import Mathlib.Data.List.Forall2
import ScriptIR.Proofs.Diagnostics.Tags
import ScriptIR.Proofs.Lowering.Readings

/-!
# Two runs side by side

A `Likeness` says when two sessions are alike and when two nodes are. `Lower.Alike L m l`
compares the runs of two actions from sessions that are alike: they end with the same outcome,
in sessions that are alike again. A node that is lowered through its children alone is lowered
alike on both sides if the children are, whatever the likeness; it has to be kept by the two
steps that such nodes take themselves, which are dispatching a node and reporting an issue. How
much the children need to have in common depends on the kind of the node: `TreesAlike` is all
that can be asked, and operands and leaves need less.
-/
namespace ScriptIR

/-- What two runs are compared by. Nodes that are alike say the same of themselves, as far as
`tag` shows their tags. -/
structure Likeness where
  session : Session → Session → Prop
  site : Site → Site → Prop
  stop : Stop → Stop → Prop := Eq
  tag : String → String := id
  attributes : ∀ {s t : Site}, site s t → t.attributes.retag tag = s.attributes.retag tag

namespace Likeness
variable (L : Likeness)

/-- The same value, or faults of nodes that are alike which differ in their tags at most. -/
inductive Outcome {α : Type} : Except Fault α → Except Fault α → Prop
  | ok (a : α) : Outcome (.ok a) (.ok a)
  | malformed {m m' : Malformation} {s t : Site} : m'.retag L.tag = m.retag L.tag →
      L.site s t → Outcome (.error (.malformed m s)) (.error (.malformed m' t))
  | stopped {stop stop' : Stop} :
      L.stop stop stop' → Outcome (.error (.stopped stop)) (.error (.stopped stop'))
  | scope (e : ScopeError) : Outcome (.error (.scope e)) (.error (.scope e))

/-- Nothing is left out of account: not the tags, nor the reasons to stop. -/
structure Exact : Prop where
  stop : L.stop = Eq
  tag : L.tag = id

variable {L}

/-- A likeness of every node with itself is one of every outcome with itself. -/
theorem Outcome.refl {α : Type} (same : ∀ s, L.site s s) (x : Except Fault α)
    (exact : L.Exact := by exact ⟨rfl, rfl⟩) : L.Outcome x x := by
  rcases x with (⟨m, site⟩ | stop | e) | a
  · exact .malformed rfl (same site)
  · exact .stopped (exact.stop ▸ rfl)
  · exact .scope e
  · exact .ok a

/-- Where only one node is like another, the outcomes are the same. -/
theorem Outcome.eq {α : Type} {x y : Except Fault α} (h : L.Outcome x y)
    (same : ∀ {s t : Site}, L.site s t → s = t) (exact : L.Exact := by exact ⟨rfl, rfl⟩) :
    x = y := by
  cases h with
  | ok a => rfl
  | malformed tags hsite =>
    rw [exact.tag, Malformation.retag_id, Malformation.retag_id] at tags
    rw [same hsite, tags]
  | stopped hstop =>
    rw [exact.stop] at hstop
    rw [hstop]
  | scope e => rfl

/-- What has not given up on a node has the same outcome. -/
theorem Outcome.eq_of_sure {α : Type} {x y : Except Fault α} (h : L.Outcome x y)
    (sure : ∀ m culprit, x ≠ .error (.malformed m culprit))
    (exact : L.Exact := by exact ⟨rfl, rfl⟩) : y = x := by
  cases h with
  | malformed => exact absurd rfl (sure _ _)
  | stopped hstop =>
    rw [exact.stop] at hstop
    rw [hstop]
  | ok | scope => rfl

section
variable {s t : Site} (h : L.site s t)
include h

theorem shownTag : L.tag t.attributes.tag = L.tag s.attributes.tag :=
  (congrArg Attributes.tag (L.attributes h) :)

/-- What is said of nodes that are alike shows the same of their tags. -/
theorem malformation (m : String → Malformation)
    (carries : ∀ tag, (m tag).retag L.tag = m (L.tag tag) := by exact fun _ => rfl) :
    (m t.attributes.tag).retag L.tag = (m s.attributes.tag).retag L.tag := by
  rw [carries, carries, L.shownTag h]

theorem issue (i : String → Issue)
    (carries : ∀ tag, (i tag).retag L.tag = i (L.tag tag) := by exact fun _ => rfl) :
    (i t.attributes.tag).retag L.tag = (i s.attributes.tag).retag L.tag := by
  rw [carries, carries, L.shownTag h]

theorem kind : t.attributes.kind = s.attributes.kind :=
  (congrArg Attributes.kind (L.attributes h) :)

theorem code : t.attributes.code = s.attributes.code :=
  (congrArg Attributes.code (L.attributes h) :)

theorem name : t.attributes.name = s.attributes.name :=
  (congrArg Attributes.name (L.attributes h) :)

theorem operator : t.attributes.operator = s.attributes.operator :=
  (congrArg Attributes.operator (L.attributes h) :)

theorem unaryToken : t.attributes.unaryToken = s.attributes.unaryToken :=
  (congrArg Attributes.unaryToken (L.attributes h) :)

theorem typeText : t.attributes.typeText = s.attributes.typeText :=
  (congrArg Attributes.typeText (L.attributes h) :)

theorem location : t.attributes.location = s.attributes.location :=
  (congrArg Attributes.location (L.attributes h) :)

theorem identifier : t.attributes.identifier = s.attributes.identifier := by
  rw [Attributes.identifier, L.name h, L.code h, Attributes.identifier]

theorem literalText : t.attributes.literalText = s.attributes.literalText := by
  rw [Attributes.literalText, L.name h, L.code h, Attributes.literalText]

theorem origin : t.origin = s.origin := by
  rw [Site.origin, L.location h, L.code h, Site.origin]

theorem unknown : t.unknown = s.unknown := by
  rw [Site.unknown, L.origin h, L.code h, Site.unknown]

end

end Likeness

namespace Lower

/-- From sessions that are alike the two actions end with the same outcome, in sessions that are
alike. -/
def Alike (L : Likeness) {α : Type} (m l : Lower α) : Prop :=
  ∀ s u, L.session s u → L.Outcome (s.run m).1 (u.run l).1 ∧ L.session (s.run m).2 (u.run l).2

/-- The likeness is kept by the steps of nodes that are lowered through their children alone. -/
structure KeptBySteps (L : Likeness) : Prop where
  dispatched : ∀ {s t : Site}, L.site s t →
    Alike L (record (.dispatched s.path s.attributes.tag))
      (record (.dispatched t.path t.attributes.tag))
  report : ∀ {s t : Site}, L.site s t → ∀ {issue issue' : Issue},
    issue'.retag L.tag = issue.retag L.tag →
      Alike L (report (some s) issue) (report (some t) issue')

namespace Alike
open Session
variable {L : Likeness} {α β γ : Type}

theorem pure (a : α) : Alike L (pure a : Lower α) (pure a) :=
  fun _ _ h => ⟨.ok a, h⟩

theorem malformed {m m' : Malformation} (tags : m'.retag L.tag = m.retag L.tag) {site other : Site}
    (h : L.site site other) : Alike L (malformed m site : Lower α) (malformed m' other) :=
  fun _ _ related => ⟨.malformed tags h, related⟩

theorem bind {m l : Lower α} {f g : α → Lower β} (h : Alike L m l)
    (k : ∀ a, Alike L (f a) (g a)) : Alike L (m >>= f) (l >>= g) := by
  intro s u related
  obtain ⟨same, after⟩ := h s u related
  cases hm : s.run m with
  | mk outcome t =>
    cases hl : u.run l with
    | mk other v =>
      rw [hm, hl] at same after
      cases same with
      | ok a =>
        rw [run_bind_of_ok hm, run_bind_of_ok hl]
        exact k a t v after
      | malformed tags hsite =>
        rw [run_bind_of_error hm, run_bind_of_error hl]
        exact ⟨.malformed tags hsite, after⟩
      | stopped hstop =>
        rw [run_bind_of_error hm, run_bind_of_error hl]
        exact ⟨.stopped hstop, after⟩
      | scope e =>
        rw [run_bind_of_error hm, run_bind_of_error hl]
        exact ⟨.scope e, after⟩

theorem mapM {f : α → Lower γ} {g : β → Lower γ} {as : List α} {bs : List β}
    (h : List.Forall₂ (fun a b => Alike L (f a) (g b)) as bs) :
    Alike L (as.mapM f) (bs.mapM g) := by
  induction h with
  | nil => exact pure []
  | cons first _ ih =>
    rw [List.mapM_cons, List.mapM_cons]
    exact first.bind fun _ => ih.bind fun _ => pure _

theorem checked {c : Prop} [Decidable c] {m l : Lower Unit} {f g : Unit → Lower α}
    (h : Alike L m l) (k : ∀ u, Alike L (f u) (g u)) :
    Alike L (if c then f () else m >>= f) (if c then g () else l >>= g) := by
  split
  · exact k ()
  · exact h.bind k

/-- Recovering reports the malformed node of each side, and nodes that are alike
become unknown alike. -/
theorem orUnknown {site other : Site} {m l : Lower Expression} (kept : KeptBySteps L)
    (hsite : L.site site other) (h : Alike L m l) :
    Alike L (orUnknown site m) (orUnknown other l) := by
  intro s u related
  obtain ⟨same, after⟩ := h s u related
  cases hm : s.run m with
  | mk outcome t =>
    cases hl : u.run l with
    | mk outcome' v =>
      rw [hm, hl] at same after
      cases same with
      | ok e =>
        rw [run_orUnknown_of_ok hm, run_orUnknown_of_ok hl]
        exact ⟨.ok e, after⟩
      | malformed tags hculprit =>
        rw [run_orUnknown_of_malformed hm, run_orUnknown_of_malformed hl, L.unknown hsite]
        have issues : (Issue.malformed _).retag L.tag = (Issue.malformed _).retag L.tag :=
          congrArg Issue.malformed tags
        have recovery := (kept.report hculprit issues).bind fun _ => pure site.unknown
        exact recovery t v after
      | stopped hstop =>
        rw [run_orUnknown_of_error hm (by simp), run_orUnknown_of_error hl (by simp)]
        exact ⟨.stopped hstop, after⟩
      | scope e =>
        rw [run_orUnknown_of_error hm (by simp), run_orUnknown_of_error hl (by simp)]
        exact ⟨.scope e, after⟩

end Alike

/-! ### Types and parameters -/

section
variable {L : Likeness} (kept : KeptBySteps L) {site other : Site} (hsite : L.site site other)
include kept hsite

theorem typeOfText_alike (text : Option String) :
    Alike L (typeOfText text (some site)) (typeOfText text (some other)) := by
  unfold typeOfText
  split
  · exact .pure _
  · split
    · exact .pure _
    · split
      · exact .pure _
      · exact (kept.report hsite rfl).bind fun _ => .pure _

/-- Only type references say a type, by their first identifier. -/
theorem typeOfNode_alike
    (identifiers : site.attributes.kind = .typeReference →
      (other.node.children.find? (·.label.kind = .identifier)).map (·.label.identifier) =
        (site.node.children.find? (·.label.kind = .identifier)).map (·.label.identifier)) :
    Alike L (typeOfNode site) (typeOfNode other) := by
  unfold typeOfNode
  rw [L.kind hsite]
  split
  next reference =>
    have same := identifiers reference
    cases hmine : site.node.children.find? (·.label.kind = .identifier) with
    | none =>
      rw [hmine, Option.map_none, Option.map_eq_none_iff] at same
      rw [same]
      exact (kept.report hsite rfl).bind fun _ => .pure _
    | some identifier =>
      rw [hmine, Option.map_some, Option.map_eq_some_iff] at same
      obtain ⟨identifier', hother, label⟩ := same
      rw [hother]
      dsimp only
      rw [label]
      exact typeOfText_alike kept hsite _
  · exact .pure _

/-- A parameter says its name and type itself and by its first variable. -/
theorem parameter_alike (cfg : Config) (index : Int)
    (named : (other.node.children.find? (·.label.kind = .variableExpression)).map
        (fun v => (v.label.identifier, v.label.typeText)) =
      (site.node.children.find? (·.label.kind = .variableExpression)).map
        fun v => (v.label.identifier, v.label.typeText)) :
    Alike L (parameter cfg site index) (parameter cfg other index) := by
  unfold parameter
  dsimp only
  rw [L.typeText hsite, L.origin hsite]
  cases hmine : site.node.children.find? (·.label.kind = .variableExpression) with
  | none =>
    rw [hmine, Option.map_none, Option.map_eq_none_iff] at named
    rw [named]
    dsimp only
    rw [L.identifier hsite]
    exact (typeOfText_alike kept hsite _).bind fun _ => .pure _
  | some v =>
    rw [hmine, Option.map_some, Option.map_eq_some_iff] at named
    obtain ⟨w, hother, same⟩ := named
    obtain ⟨identifier, typeText⟩ := Prod.mk.inj same
    rw [hother]
    dsimp only [Option.bind_some]
    rw [identifier, typeText]
    exact (typeOfText_alike kept hsite _).bind fun _ => .pure _

theorem flagIndex_alike (cfg : Config) (callee : String) (candidates : List Function)
    (number : Nat) :
    Alike L (flagIndex cfg callee candidates site number)
      (flagIndex cfg callee candidates other number) := by
  have name : flagName cfg other.attributes = flagName cfg site.attributes := by
    rw [flagName, L.identifier hsite, flagName]
  unfold flagIndex
  rw [name]
  dsimp only
  split
  · exact .pure _
  · split
    · exact .pure _
    · exact (kept.report hsite rfl).bind fun _ => .pure _

end

/-- Nodes that declare the same parameter, at whatever index. -/
def ParametersAlike (L : Likeness) (cfg : Config) (p q : Site) : Prop :=
  ∀ index, Alike L (parameter cfg p index) (parameter cfg q index)

/-- Nodes that are alike wherever they stand. -/
def NodesAlike (L : Likeness) (n m : Node) : Prop :=
  ∀ p q, L.site ⟨p, n⟩ ⟨q, m⟩

/-- What is looked for among related elements is found at the same place. -/
theorem find?_rel {α β : Type} {R : α → β → Prop} {found : α → Bool} {found' : β → Bool}
    (same : ∀ a b, R a b → found' b = found a) {as : List α} {bs : List β}
    (h : List.Forall₂ R as bs) : Option.Rel R (as.find? found) (bs.find? found') := by
  induction h with
  | nil => exact .none
  | @cons a b _ _ first _ ih =>
    rw [List.find?_cons, List.find?_cons, same a b first]
    split
    · exact .some first
    · exact ih

section
variable {L : Likeness} {n m : Node} {p q : Path} (hsite : L.site ⟨p, n⟩ ⟨q, m⟩)
variable (children : List.Forall₂ (NodesAlike L) n.children m.children)
include children

/-- Among children that are alike the first one of a kind shows the same. -/
theorem firstChild_alike {γ : Type} (shows : Attributes → γ) (kind : Kind)
    (same : ∀ {s t : Site}, L.site s t → shows t.attributes = shows s.attributes) :
    (m.children.find? (·.label.kind = kind)).map (fun v => shows v.label) =
      (n.children.find? (·.label.kind = kind)).map fun v => shows v.label := by
  have found : Option.Rel (NodesAlike L) (n.children.find? (·.label.kind = kind))
      (m.children.find? (·.label.kind = kind)) :=
    find?_rel (fun v w alike => by
      have kinds : w.label.kind = v.label.kind := L.kind (alike [] [])
      rw [kinds]) children
  generalize n.children.find? (·.label.kind = kind) = mine at found ⊢
  generalize m.children.find? (·.label.kind = kind) = theirs at found ⊢
  cases found with
  | none => rfl
  | some alike => exact congrArg some (same (alike [] []))

variable (kept : KeptBySteps L)
include hsite kept

theorem typeOfNode_alike_of_children : Alike L (typeOfNode ⟨p, n⟩) (typeOfNode ⟨q, m⟩) :=
  typeOfNode_alike kept hsite fun _ =>
    firstChild_alike children Attributes.identifier .identifier L.identifier

theorem parameter_alike_of_children (cfg : Config) : ParametersAlike L cfg ⟨p, n⟩ ⟨q, m⟩ :=
  fun index => parameter_alike kept hsite cfg index
    (firstChild_alike children (fun a => (a.identifier, a.typeText)) .variableExpression
      fun h => Prod.ext (L.identifier h) (L.typeText h))

end

theorem parameters_alike {L : Likeness} {cfg : Config} {ps qs : List Site}
    (h : List.Forall₂ (ParametersAlike L cfg) ps qs) :
    Alike L (ps.zipIdx.mapM fun p => parameter cfg p.1 p.2)
      (qs.zipIdx.mapM fun p => parameter cfg p.1 p.2) := by
  have numbered : ∀ i, List.Forall₂ (fun p q : Site × Nat =>
      Alike L (parameter cfg p.1 p.2) (parameter cfg q.1 q.2)) (ps.zipIdx i) (qs.zipIdx i) := by
    induction h with
    | nil => exact fun _ => .nil
    | cons first _ ih =>
      intro i
      rw [List.zipIdx_cons, List.zipIdx_cons]
      exact .cons (first i) (ih (i + 1))
  exact .mapM (numbered 0)

/-! ### Children -/

/-- Two slots with flags that are alike, the same number, and values that are alike. -/
inductive Slot.Alike (L : Likeness) : Slot → Slot → Prop
  | flag {site other : Site} {value value' : Lower Expression} (number : Nat) : L.site site other →
      Lower.Alike L value value' →
      Slot.Alike L (.flag site value number) (.flag other value' number)
  | block {value value' : Lower Expression} (number : Nat) :
      Lower.Alike L value value' → Slot.Alike L (.block value number) (.block value' number)
  | group {values values' : List (Lower Expression)} :
      List.Forall₂ (Lower.Alike L) values values' → Slot.Alike L (.group values) (.group values')

/-- Two readings of nodes that are alike. -/
structure ReadingsAlike (L : Likeness) (r q : Reading) : Prop where
  site : L.site r.site q.site
  type : Alike L (typeOfNode r.site) (typeOfNode q.site)
  expression : Alike L r.expression q.expression
  statement : Alike L r.statement q.statement

theorem ReadingsAlike.kind {L : Likeness} {r q : Reading} (h : ReadingsAlike L r q) :
    q.kind = r.kind :=
  L.kind h.site

/-- Two trees stand for the same values where only their leaves count. -/
def LeavesAlike (L : Likeness) (t u : Tree Reading) : Prop :=
  List.Forall₂ (Alike L) (valueLeaves t) (valueLeaves u)

/-- Two trees are the same where an operand stands. -/
structure OperandsAlike (L : Likeness) (t u : Tree Reading) : Prop where
  expression : Alike L t.label.expression u.label.expression
  leaves : LeavesAlike L t u

/-- Two trees are the same wherever they stand. -/
structure TreesAlike (L : Likeness) (t u : Tree Reading) : Prop where
  label : ReadingsAlike L t.label u.label
  childless : u.children.isEmpty = t.children.isEmpty
  slot : ∀ number, Slot.Alike L (slotOf number t) (slotOf number u)
  leaves : LeavesAlike L t u

theorem TreesAlike.operand {L : Likeness} {t u : Tree Reading} (h : TreesAlike L t u) :
    OperandsAlike L t u :=
  ⟨h.label.expression, h.leaves⟩

theorem valueLeaves_of_children (r : Reading) {children : List (Tree Reading)}
    (h : children ≠ []) : valueLeaves ⟨r, children⟩ = children.flatMap valueLeaves := by
  unfold valueLeaves
  rw [Tree.leaves_of_children r h, List.filter_flatMap, List.map_flatMap]

section
variable {L : Likeness} {children others : List (Tree Reading)}

theorem flatMap_valueLeaves_alike (h : List.Forall₂ (LeavesAlike L) children others) :
    List.Forall₂ (Alike L) (children.flatMap valueLeaves) (others.flatMap valueLeaves) := by
  induction h with
  | nil => exact .nil
  | cons first _ ih => exact List.rel_append first ih

/-- The leaves of a node with children are those of the children. -/
theorem leavesAlike_of_children (r q : Reading) (hne : children ≠ [])
    (h : List.Forall₂ (LeavesAlike L) children others) :
    LeavesAlike L ⟨r, children⟩ ⟨q, others⟩ := by
  have hne' : others ≠ [] := fun none => hne (List.forall₂_nil_right_iff.mp (none ▸ h))
  rw [LeavesAlike, valueLeaves_of_children r hne, valueLeaves_of_children q hne']
  exact flatMap_valueLeaves_alike h

variable {r q : Reading} (label : ReadingsAlike L r q)
include label

theorem leavesAlike_node (h : List.Forall₂ (LeavesAlike L) children others) :
    LeavesAlike L ⟨r, children⟩ ⟨q, others⟩ := by
  cases h with
  | nil =>
    have kind : q.kind = r.kind := label.kind
    simp only [LeavesAlike, valueLeaves, Tree.leaves_childless, List.filter_cons,
      List.filter_nil, kind]
    split
    · exact .cons label.expression .nil
    · exact .nil
  | cons first rest => exact leavesAlike_of_children r q (by simp) (.cons first rest)

theorem slotOf_alike_of_leaves (number : Nat) (hflag : r.kind ≠ .commandParameter)
    (h : List.Forall₂ (LeavesAlike L) children others) :
    Slot.Alike L (slotOf number ⟨r, children⟩) (slotOf number ⟨q, others⟩) := by
  unfold slotOf
  dsimp only
  rw [label.kind]
  split
  next flag => exact absurd flag hflag
  · exact .block _ label.expression
  · exact .group (leavesAlike_node label h)

/-- A node that is no flag is the same wherever it stands if it is the same in itself and the leaves
of its children are. -/
theorem TreesAlike.of_leaves (hflag : r.kind ≠ .commandParameter)
    (h : List.Forall₂ (LeavesAlike L) children others) :
    TreesAlike L ⟨r, children⟩ ⟨q, others⟩ where
  label := label
  childless := by cases h <;> rfl
  slot number := slotOf_alike_of_leaves label number hflag h
  leaves := leavesAlike_node label h

/-- A flag takes the value of its first child. -/
theorem TreesAlike.of_operands (h : List.Forall₂ (OperandsAlike L) children others) :
    TreesAlike L ⟨r, children⟩ ⟨q, others⟩ where
  label := label
  childless := by cases h <;> rfl
  slot number := by
    by_cases hflag : r.kind = .commandParameter
    · unfold slotOf
      dsimp only
      rw [label.kind, hflag]
      cases h with
      | nil => exact .flag _ label.site label.expression
      | cons first _ => exact .flag _ label.site first.expression
    · exact slotOf_alike_of_leaves label number hflag (h.imp fun _ _ => OperandsAlike.leaves)
  leaves := leavesAlike_node label (h.imp fun _ _ => OperandsAlike.leaves)

theorem TreesAlike.of_children (h : List.Forall₂ (TreesAlike L) children others) :
    TreesAlike L ⟨r, children⟩ ⟨q, others⟩ :=
  .of_operands label (h.imp fun _ _ => TreesAlike.operand)

end

/-- The first child of a kind is the same on both sides. -/
theorem find?_kind_alike {L : Likeness} {children others : List (Tree Reading)} (kind : Kind)
    (h : List.Forall₂ (TreesAlike L) children others) :
    Option.Rel (TreesAlike L) (children.find? (·.label.kind = kind))
      (others.find? (·.label.kind = kind)) :=
  find?_rel (fun _ _ alike => by rw [alike.label.kind]) h

/-- Among trees that are related and have the same kinds, the trees of some kinds are related. -/
theorem filter_kind_rel {R : Tree Reading → Tree Reading → Prop}
    (same : ∀ t u, R t u → u.label.kind = t.label.kind) (p : Kind → Bool)
    {children others : List (Tree Reading)} (h : List.Forall₂ R children others) :
    List.Forall₂ R (children.filter fun t => p t.label.kind)
      (others.filter fun t => p t.label.kind) :=
  List.rel_filter (fun t u related => by
    dsimp only
    rw [same t u related]) h

theorem filter_kind_alike {L : Likeness} {children others : List (Tree Reading)}
    (p : Kind → Prop) [DecidablePred p] (h : List.Forall₂ (TreesAlike L) children others) :
    List.Forall₂ (TreesAlike L) (children.filter fun t => p t.label.kind)
      (others.filter fun t => p t.label.kind) :=
  filter_kind_rel (fun _ _ alike => alike.label.kind) (decide <| p ·) h

theorem types_alike {L : Likeness} {children others : List (Tree Reading)}
    (h : List.Forall₂ (TreesAlike L) children others) :
    ∀ t ∈ children.head?, ∀ u ∈ others.head?,
      Alike L (typeOfNode t.label.site) (typeOfNode u.label.site) := by
  cases h with
  | nil => exact fun _ absurd => by cases absurd
  | cons first _ =>
    rintro _ ⟨⟩ _ ⟨⟩
    exact first.label.type

/-! ### Arguments -/

section
variable {L : Likeness}

theorem takesNext_alike {item item' next next' : Tree Reading} (hitem : TreesAlike L item item')
    (hnext : TreesAlike L next next') : takesNext item' next' = takesNext item next := by
  simp [takesNext, hitem.label.kind, hnext.label.kind, hitem.childless]

theorem slots_alike (i : Nat) {items others : List (Tree Reading)}
    (h : List.Forall₂ (TreesAlike L) items others) :
    List.Forall₂ (Slot.Alike L) (slots i items) (slots i others) := by
  fun_induction slots i items generalizing others with
  | case1 =>
    cases h
    exact .nil
  | case2 i item =>
    obtain _ | ⟨hitem, _ | _⟩ := h
    exact .cons (hitem.slot i) .nil
  | case3 i item next rest takes ih =>
    obtain _ | ⟨hitem, _ | ⟨hnext, hrest⟩⟩ := h
    rw [slots, takesNext_alike hitem hnext, if_pos takes]
    exact .cons (.flag i hitem.label.site hnext.label.expression) (ih hrest)
  | case4 i item next rest stays ih =>
    obtain _ | ⟨hitem, _ | ⟨hnext, hrest⟩⟩ := h
    rw [slots, takesNext_alike hitem hnext, if_neg stays]
    exact .cons (hitem.slot i) (ih (.cons hnext hrest))

variable (kept : KeptBySteps L) (cfg : Config) (callee : String) (candidates : List Function)
include kept

theorem lowerSlot_alike {slot other : Slot} (h : Slot.Alike L slot other) :
    Alike L (lowerSlot cfg callee candidates slot) (lowerSlot cfg callee candidates other) := by
  cases h with
  | flag number hsite lowered =>
    exact (flagIndex_alike kept hsite cfg callee candidates number).bind fun _ =>
      lowered.bind fun _ => .pure _
  | block number lowered => exact lowered.bind fun _ => .pure _
  | group lowered => exact (Alike.mapM lowered).bind fun _ => .pure _

theorem bindArguments_alike {items others : List (Tree Reading)}
    (h : List.Forall₂ (Slot.Alike L) (slots 0 items) (slots 0 others)) :
    Alike L (bindArguments cfg callee candidates items)
      (bindArguments cfg callee candidates others) := by
  rw [bindArguments_eq, bindArguments_eq]
  have lowered := h.imp fun _ _ => lowerSlot_alike kept cfg callee candidates
  exact (Alike.mapM lowered).bind fun _ => .pure _

end

/-! ### Nodes that are lowered through their children alone -/

section
variable {L : Likeness} {site other : Site} (hsite : L.site site other)
variable {children others : List (Tree Reading)}
include hsite

theorem compound_alike {statement statement' : Lower Statement} (h : Alike L statement statement') :
    Alike L (compound site statement) (compound other statement') := by
  unfold compound
  rw [L.origin hsite]
  exact h.bind fun _ => .pure _

theorem binary_alike (h : List.Forall₂ (OperandsAlike L) children others) :
    Alike L (binary site children) (binary other others) := by
  have operands := fun count => L.malformation hsite (Malformation.operandCount · count)
  unfold binary
  rw [L.operator hsite, L.origin hsite, h.length_eq]
  split
  · match children, others, h with
    | [_, _], [_, _], .cons left (.cons right .nil) =>
      exact left.expression.bind fun _ => right.expression.bind fun _ => .pure _
    | [], [], .nil => exact .malformed (operands _) hsite
    | [_], [_], .cons _ .nil => exact .malformed (operands _) hsite
    | _ :: _ :: _ :: _, _ :: _ :: _ :: _, .cons _ (.cons _ (.cons _ _)) =>
      exact .malformed (operands _) hsite
  · exact .malformed (L.malformation hsite .noOperator) hsite

theorem unary_alike (h : List.Forall₂ (OperandsAlike L) children others) :
    Alike L (unary site children) (unary other others) := by
  unfold unary
  rw [L.unaryToken hsite, L.origin hsite]
  dsimp only
  split
  · cases h with
    | nil => exact .malformed rfl hsite
    | cons operand _ => exact operand.expression.bind fun _ => .pure _
  · exact .malformed rfl hsite

variable (kept : KeptBySteps L)
include kept

theorem reference_alike : Alike L (reference site) (reference other) := by
  unfold reference
  rw [L.typeText hsite, L.identifier hsite, L.origin hsite]
  exact (typeOfText_alike kept hsite _).bind fun _ => .pure _

theorem literal_alike (cfg : Config) : Alike L (literal cfg site) (literal cfg other) := by
  unfold literal
  rw [L.literalText hsite, L.kind hsite, L.origin hsite]
  dsimp only
  split
  · exact .pure _
  · exact (kept.report hsite (L.issue hsite .unidentifiedLiteral)).bind fun _ => .pure _

theorem memberAccess_alike : Alike L (memberAccess site) (memberAccess other) := by
  unfold memberAccess
  rw [L.code hsite, L.unknown hsite]
  exact (kept.report hsite rfl).bind fun _ => .pure _

theorem wrapper_alike (h : List.Forall₂ (OperandsAlike L) children others) :
    Alike L (wrapper site children) (wrapper other others) := by
  cases h with
  | nil => exact .malformed (L.malformation hsite .emptyWrapper) hsite
  | cons first rest =>
    have single : ∀ {ts us : List (Tree Reading)}, List.Forall₂ (OperandsAlike L) ts us →
        us.isEmpty = ts.isEmpty := fun alike => by cases alike <;> rfl
    have extra := fun count => L.issue hsite fun tag => .malformed (.extraChildren tag count)
    simp only [wrapper, single rest, List.length_cons, rest.length_eq]
    exact .checked (kept.report hsite (extra _)) fun _ => first.expression

theorem array_alike (h : List.Forall₂ (LeavesAlike L) children others) :
    Alike L (array site children) (array other others) := by
  unfold array
  rw [L.typeText hsite, L.origin hsite]
  have elements := Alike.mapM (f := id) (g := id) (flatMap_valueLeaves_alike h)
  exact (typeOfText_alike kept hsite _).bind fun _ => elements.bind fun _ => .pure _

/-- The first child of a conversion may say its type. -/
theorem cast_alike (h : List.Forall₂ (OperandsAlike L) children others)
    (types : ∀ t ∈ children.head?, ∀ u ∈ others.head?,
      Alike L (typeOfNode t.label.site) (typeOfNode u.label.site)) :
    Alike L (cast site children) (cast other others) := by
  unfold cast
  rw [L.typeText hsite, L.origin hsite]
  match children, others, h with
  | [typeNode, _], [typeNode', _], .cons _ (.cons operand .nil) =>
    have type := types typeNode rfl typeNode' rfl
    dsimp only
    split
    · exact (typeOfText_alike kept hsite _).bind fun _ => operand.expression.bind fun _ => .pure _
    · exact type.bind fun _ => operand.expression.bind fun _ => .pure _
  | [], [], .nil => exact .malformed rfl hsite
  | [_], [_], .cons _ .nil => exact .malformed rfl hsite
  | _ :: _ :: _ :: _, _ :: _ :: _ :: _, .cons _ (.cons _ (.cons _ rest)) =>
    simp only [List.length_cons, rest.length_eq]
    exact .malformed rfl hsite

end

end Lower

end ScriptIR
