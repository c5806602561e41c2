import ScriptIR.Proofs.Lowering.Wrapping
import ScriptIR.Proofs.Syntax.Fringe

/-!
# Arrays as arguments

Where an array stands among the arguments of a call it is not lowered as an array. Its leaves become
arguments, and where it stands as an expression its leaves become the elements of an initializer.
The two agree: both lower the elements of the array one after the other, which are its leaves but
for empty groupings, and the arguments have the places of the elements as their indices.
-/
namespace ScriptIR

namespace Node

/-- The leaves that are no empty groupings. -/
def elements (n : Node) : List Node :=
  n.leaves.filter fun leaf => !leaf.label.kind.isGrouping

/-- The node is an array, and no type is written on it. -/
structure IsUntypedArray (n : Node) : Prop where
  kind : n.label.kind = .arrayExpression ∨ n.label.kind = .arrayLiteral
  untyped : ∀ text ∈ n.label.typeText, Text.trim text = ""

/-! ### Empty groupings -/

theorem elements_of_children (attrs : Attributes) {children : List Node} (h : children ≠ []) :
    elements ⟨attrs, children⟩ = children.flatMap elements := by
  unfold elements
  rw [Tree.leaves_of_children attrs h, List.filter_flatMap]

theorem elements_of_grouping {attrs : Attributes} (h : attrs.kind.isGrouping = true)
    (children : List Node) : elements ⟨attrs, children⟩ = children.flatMap elements := by
  cases children with
  | nil => simp [elements, h]
  | cons child rest => exact elements_of_children attrs (by simp)

/-- The second tree is the first one with an empty grouping put in somewhere: among the children of
a node, or into a grouping without any. -/
inductive Padded : Node → Node → Prop
  | here (attrs : Attributes) (before after : List Node) {empty : Attributes} :
      empty.kind.isGrouping = true → before ++ after ≠ [] ∨ attrs.kind.isGrouping = true →
      Padded ⟨attrs, before ++ after⟩ ⟨attrs, before ++ ⟨empty, []⟩ :: after⟩
  | deeper (attrs : Attributes) (before : List Node) {e e' : Node} (after : List Node) :
      Padded e e' → Padded ⟨attrs, before ++ e :: after⟩ ⟨attrs, before ++ e' :: after⟩

theorem Padded.label_eq {n m : Node} (h : Padded n m) : m.label = n.label := by
  cases h <;> rfl

theorem Padded.elements_eq {n m : Node} (h : Padded n m) : m.elements = n.elements := by
  induction h with
  | here attrs before after empty others =>
    have mine : elements ⟨attrs, before ++ after⟩ = (before ++ after).flatMap elements :=
      others.elim (elements_of_children attrs) (elements_of_grouping · _)
    rw [mine, elements_of_children attrs (by simp), List.flatMap_append, List.flatMap_append,
      List.flatMap_cons, elements_of_grouping empty, List.flatMap_nil, List.nil_append]
  | deeper attrs before after _ ih =>
    rw [elements_of_children attrs (by simp), elements_of_children attrs (by simp)]
    simp only [List.flatMap_append, List.flatMap_cons, ih]

/-- Any number of empty groupings make no difference to the elements. -/
theorem elements_of_padded {n m : Node} (h : Relation.ReflTransGen Padded n m) :
    m.label = n.label ∧ m.elements = n.elements := by
  induction h with
  | refl => exact ⟨rfl, rfl⟩
  | tail _ step ih => exact ⟨step.label_eq.trans ih.1, step.elements_eq.trans ih.2⟩

/-! ### The readings of leaves -/

section
variable (cfg : Config)

/-- The leaves of a tree's readings are the readings of its leaves. -/
theorem leaves_readings (n : Node) (p : Path) :
    List.Forall₂ (fun leaf r => ∃ q, r = readings cfg q leaf) n.leaves
      (n.readings cfg p).leaves := by
  let site : Site := ⟨p, n⟩
  have leaves : n.leaves = site.fringe.map Site.node := site.leaves_eq_fringe
  have read := site.leaves_readings_eq_fringe cfg
  rw [leaves, read, List.forall₂_map_left_iff, List.forall₂_map_right_iff, List.forall₂_same]
  exact fun leaf _ => ⟨leaf.path, rfl⟩

open Lower

/-- What becomes arguments or elements are the elements of the node, wherever it is. -/
theorem valueLeaves_readings (n : Node) (p : Path) :
    List.Forall₂ (fun element value =>
      Alike relocated (lowerExpression cfg element) value) n.elements
      (valueLeaves (n.readings cfg p)) := by
  have values : List.Forall₂ (fun leaf r => ∃ q, r = readings cfg q leaf) n.elements
      ((n.readings cfg p).leaves.filter fun leaf => !leaf.label.kind.isGrouping) := by
    refine List.rel_filter ?_ (leaves_readings cfg n p)
    rintro leaf _ ⟨q, rfl⟩
    simp only [readings_kind]
  rw [valueLeaves, List.forall₂_map_right_iff]
  refine values.imp ?_
  rintro element _ ⟨q, rfl⟩
  exact (readings_relocated cfg element [] q).label.expression

theorem elements_alike (n : Node) (p : Path) :
    Alike relocated (n.elements.mapM (lowerExpression cfg))
      ((valueLeaves (n.readings cfg p)).mapM id) :=
  .mapM (valueLeaves_readings cfg n p)

theorem elements_sure (n : Node) : Sure (n.elements.mapM (lowerExpression cfg)) :=
  .mapM fun element _ => readings_sure cfg element []

end

end Node

namespace Session
variable {α β : Type} {s u : Session}

theorem run_map (f : α → β) (m : Lower α) :
    s.run (do let a ← m; pure (f a)) = ((s.run m).1.map f, (s.run m).2) := by
  cases h : s.run m with
  | mk outcome t =>
    cases outcome with
    | ok a => exact run_bind_of_ok h _
    | error e => exact run_bind_of_error h _

/-- The same outcome, the same collector, and the same scopes up to their numbers. -/
structure EndsLike (ended other : Except Fault α × Session) : Prop where
  outcome : ended.1 = other.1
  collector : ended.2.collector = other.2.collector
  scopes : ended.2.scopes.unnumbered = other.2.scopes.unnumbered

theorem EndsLike.of_same {ended other third : Except Fault α × Session} (h : EndsLike ended third)
    (k : EndsLike other third) : EndsLike ended other :=
  ⟨h.1.trans k.1.symm, h.2.trans k.2.symm, h.3.trans k.3.symm⟩

end Session

namespace Lower
open Session

section
variable (cfg : Config) (callee : String) (candidates : List Function)

/-- An item that is no value of a flag in front of it parts the pass in three. -/
theorem bindFrom_group {before after : List (Tree Reading)} {item : Tree Reading}
    (apart : ∀ last ∈ before.getLast?, takesNext last item = false)
    (noFlag : item.label.kind ≠ .commandParameter)
    (noBlock : item.label.kind ≠ .scriptBlockExpression) (i : Nat) :
    bindFrom cfg callee candidates i (before ++ item :: after) = (do
      let earlier ← bindFrom cfg callee candidates i before
      let own ← bindLeaves 0 item.leaves
      let later ← bindFrom cfg callee candidates (i + before.length + 1) after
      pure (earlier ++ own ++ later)) := by
  have group := slotOf_eq_group (i + before.length) noFlag noBlock
  have takesNone : ∀ next ∈ after.head?, takesNext item next = false := by simp [takesNext, noFlag]
  have alone := bindFrom_alone cfg callee candidates takesNone (i + before.length)
  rw [group, lowerSlot_group] at alone
  have split : bindFrom cfg callee candidates i (before ++ item :: after) = (do
      let earlier ← bindFrom cfg callee candidates i before
      let others ← bindFrom cfg callee candidates (i + before.length) (item :: after)
      pure (earlier ++ others)) := by
    simp [bindFrom_eq, slots_append apart]
  simp [split, alone]

end

theorem Sure.endsLike {α : Type} {m l : Lower α} (sure : Sure m) (alike : Alike relocated m l)
    {s u : Session} (related : relocated.session s u) : EndsLike (u.run l) (s.run m) := by
  obtain ⟨outcome, collector, scopes⟩ := alike s u related
  exact ⟨outcome.eq_of_sure (sure s), collector, scopes⟩

variable (cfg : Config) {n : Node} (s : Session)

/-- The leaves that are bound as arguments are the elements of the node, with their places. -/
theorem bindLeaves_endsLike (p : Path) :
    EndsLike (s.run (bindLeaves 0 (n.readings cfg p).leaves)) (s.run do
      let elements ← n.elements.mapM (lowerExpression cfg)
      pure (elements.mapIdx fun i e => (e, (i : Int)))) := by
  refine ((n.elements_sure cfg).bind fun _ => .pure _).endsLike ?_ ⟨rfl, rfl⟩
  simp only [bindLeaves_eq, Nat.zero_add]
  exact (n.elements_alike cfg p).bind fun _ => .pure _

/-- An array has its elements below it, so that a childless one has none. -/
theorem flatMap_valueLeaves_readingsOf {attrs : Attributes} {children : List Node}
    (array : attrs.kind.isGrouping = true) (p : Path) :
    (Node.readingsOf cfg p 0 children).flatMap valueLeaves =
      valueLeaves (Node.readings cfg p ⟨attrs, children⟩) := by
  rw [Node.readings]
  cases children with
  | nil => simp [Node.readingsOf, valueLeaves, Reading.kind, Site.attributes, array]
  | cons child rest => exact (valueLeaves_of_children _ (by simp [Node.readingsOf])).symm

theorem array_eq {site : Site} {children : List (Tree Reading)}
    (untyped : ∀ text ∈ site.attributes.typeText, Text.trim text = "") :
    array site children = (do
      let elements ← (children.flatMap valueLeaves).mapM id
      pure (.initializer site.origin .unknown elements)) := by
  have type : typeOfText site.attributes.typeText (some site) = pure .unknown := by
    unfold typeOfText
    split
    · rfl
    next text given => exact if_pos (untyped text given)
  rw [array, type, pure_bind]

/-- The elements of an initializer are those of the array that it comes from. -/
theorem lowerExpression_endsLike (h : n.IsUntypedArray) :
    EndsLike (s.run (lowerExpression cfg n)) (s.run do
      let elements ← n.elements.mapM (lowerExpression cfg)
      pure (.initializer (Site.root n).origin .unknown elements)) := by
  have sure : Sure (do
      let elements ← n.elements.mapM (lowerExpression cfg)
      pure (Expression.initializer (Site.root n).origin .unknown elements)) :=
    (n.elements_sure cfg).bind fun _ => .pure _
  obtain ⟨attrs, children⟩ := n
  let site := Site.root ⟨attrs, children⟩
  let below := Node.readingsOf cfg [] 0 children
  have handler : expressionOf? cfg site below attrs.kind = some (array site below) := by
    rcases h.kind with kind | kind <;> exact kind ▸ rfl
  have grouping : attrs.kind.isGrouping = true := by
    rcases h.kind with kind | kind <;> exact kind ▸ rfl
  have alike : Alike relocated (do
      let elements ← (Node.elements ⟨attrs, children⟩).mapM (lowerExpression cfg)
      pure (Expression.initializer site.origin .unknown elements)) (array site below) := by
    have untyped : ∀ text ∈ site.attributes.typeText, Text.trim text = "" := h.untyped
    rw [array_eq untyped, flatMap_valueLeaves_readingsOf cfg grouping]
    exact (Node.elements_alike cfg _ []).bind fun _ => .pure _
  have run : s.run (lowerExpression cfg ⟨attrs, children⟩) =
      (s.dispatching site).run (array site below) := by
    rw [lowerExpression, Node.readings]
    exact run_expression_of_sure handler fun t => (sure.endsLike alike ⟨rfl, rfl⟩).outcome ▸ sure t
  rw [run]
  exact sure.endsLike alike ⟨rfl, rfl⟩

end Lower

open Lower

/-- An array without a type, behind arguments of which the last is no flag that takes it for its
value, stands for arguments of its own among the others. From any session they are bound to the
elements of the initializer that the array is lowered to where an expression stands, with the
indices from 0 on; and the reports and the scopes are the same. Both are what lowering the
elements of the array one after the other gives, and empty groupings that are put in below it
contribute to neither. -/
theorem array_arguments_eq_elements (cfg : Config) (callee : String)
    (candidates : List Function) {n : Node}
    (h : n.IsUntypedArray) (p : Path) :
    (∀ before after : List (Tree Reading),
      (∀ last ∈ before.getLast?, ¬(last.label.kind = .commandParameter ∧ last.children = [])) →
      bindArguments cfg callee candidates (before ++ n.readings cfg p :: after) = do
        let earlier ← bindFrom cfg callee candidates 0 before
        let own ← bindLeaves 0 (n.readings cfg p).leaves
        let later ← bindFrom cfg callee candidates (before.length + 1) after
        pure ((earlier ++ own ++ later).mapIdx fun position e => .mk e.1 e.2 position)) ∧
    ∀ s : Session,
      let elements := s.run (n.elements.mapM (lowerExpression cfg))
      let list := s.run (lowerExpression cfg n)
      let bound := s.run (bindLeaves 0 (n.readings cfg p).leaves)
      list.1 = elements.1.map (fun es => .initializer (Site.root n).origin .unknown es) ∧
      bound.1 = elements.1.map (fun es => es.mapIdx fun i e => (e, (i : Int))) ∧
      list.2.collector = bound.2.collector ∧
      list.2.scopes.unnumbered = bound.2.scopes.unnumbered ∧
      ∀ m : Node, Relation.ReflTransGen Node.Padded n m → ∀ q : Path,
        Session.EndsLike (s.run (lowerExpression cfg m)) list ∧
        Session.EndsLike (s.run (bindLeaves 0 (m.readings cfg q).leaves)) bound := by
  refine ⟨fun before after apart => ?_, fun s => ?_⟩
  · have kind := n.readings_kind cfg p
    have noFlag : (n.readings cfg p).label.kind ≠ .commandParameter := by
      rcases h.kind with array | array <;> simp [kind, array]
    have noBlock : (n.readings cfg p).label.kind ≠ .scriptBlockExpression := by
      rcases h.kind with array | array <;> simp [kind, array]
    have stays : ∀ last ∈ before.getLast?, takesNext last (n.readings cfg p) = false := by
      intro last hlast
      simpa [takesNext, noFlag] using apart last hlast
    rw [bindArguments_eq_bindFrom,
      bindFrom_group cfg callee candidates stays noFlag noBlock]
    simp
  · have list := lowerExpression_endsLike cfg s h
    have bound := bindLeaves_endsLike cfg (n := n) s p
    refine ⟨?_, ?_, ?_, ?_, fun m padded q => ?_⟩
    · rw [list.outcome, Session.run_map]
    · rw [bound.outcome, Session.run_map]
    · rw [list.collector, bound.collector, Session.run_map, Session.run_map]
    · rw [list.scopes, bound.scopes, Session.run_map, Session.run_map]
    · obtain ⟨label, same⟩ := Node.elements_of_padded padded
      have array : m.IsUntypedArray := ⟨label ▸ h.kind, label ▸ h.untyped⟩
      have origin : (Site.root m).origin = (Site.root n).origin := by
        rw [Site.origin, Site.origin, show (Site.root m).attributes =
          (Site.root n).attributes from label]
      have list' := lowerExpression_endsLike cfg s array
      have bound' := bindLeaves_endsLike cfg (n := m) s q
      rw [same] at list' bound'
      rw [origin] at list'
      exact ⟨list'.of_same list, bound'.of_same bound⟩

/-- Two numbers in nested lists with empty groupings between them, behind a flag
with a value of its own. -/
theorem array_arguments_eq_elements_nested :
    let number (text : String) : Node :=
      ⟨{ kind := .constantExpression, tag := "", code := some text }, []⟩
    let flag : Node := ⟨{ kind := .commandParameter, tag := "", name := some "-x" }, [number "0"]⟩
    let list : Node := .bare .arrayLiteral [number "1", .bare .parenExpression [],
      .bare .arrayExpression [.bare .pipeline [], number "2"]]
    let literal (text : String) : Expression :=
      .literal { code := some text } (.named "integer") text text
    ((Session.start {}).run (lowerExpression {} list)).1 =
        .ok (.initializer {} .unknown [literal "1", literal "2"]) ∧
      ((Session.start {}).run (Lower.bindArguments {} "f" []
        (Node.readingsOf {} [] 1 [flag, list]))).1 =
          .ok [.mk (literal "0") 0 0, .mk (literal "1") 0 1, .mk (literal "2") 1 2] := by
  intro number flag list literal
  have array : list.IsUntypedArray := ⟨.inr rfl, by decide⟩
  obtain ⟨call, runs⟩ := array_arguments_eq_elements {} "f" [] array [2]
  obtain ⟨initializer, -⟩ := runs (Session.start {})
  have bound := call [flag.readings {} [1]] [] (by decide)
  refine ⟨initializer.trans rfl, ?_⟩
  rw [show Node.readingsOf {} [] 1 [flag, list] = [flag.readings {} [1]] ++
    [list.readings {} [2]] from rfl,
    bound]
  rfl

end ScriptIR
