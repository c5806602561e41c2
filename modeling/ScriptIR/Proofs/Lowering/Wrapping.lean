import Mathlib.Logic.Relation
import ScriptIR.Proofs.Lowering.AlikeInScopes
import ScriptIR.Proofs.Lowering.Arguments
import ScriptIR.Proofs.Lowering.Recovery

/-!
# Wrappers around operands

A wrapper, or a pipeline of one stage, means what its child means wherever an operand stands, and in
arrays and positional arguments only leaves count. `Node.Wrapped n m` says that `m` is `n` with one
such node put around a subtree in such a place. Wrapping moves nodes to other places in the tree,
which only the trace tells, and the numbers by which scopes are told apart are taken from the trace:
`relocated` compares runs up to these.
-/
namespace ScriptIR

/-! ### Wrapped trees -/

/-- Kinds that, around a single child, mean what the child means where an expression stands. -/
def Kind.isTransparent (k : Kind) : Bool :=
  k.isWrapper || k = .pipeline

/-- Kinds of nodes that are expressions wherever they stand: neither blocks nor definitions, and
neither types nor parameters. -/
def Kind.isPlain (k : Kind) : Bool :=
  !k.isBlock && k ∉ [.functionDefinition, .typeReference, .paramBlock, .parameter]

namespace Node

/-- Behind the children `before` of a node and in front of the children `after`, a node of the given
kind has an operand. -/
inductive OperandPlace : (kind : Kind) → (before after : List Node) → Prop
  | binary (before after : List Node) : OperandPlace .binaryExpression before after
  | assignment (before after : List Node) : OperandPlace .assignmentStatement before after
  | unary (after : List Node) : OperandPlace .unaryExpression [] after
  | flagValue (after : List Node) : OperandPlace .commandParameter [] after
  | converted (type : Node) (after : List Node) : OperandPlace .convertExpression [type] after
  | stage : OperandPlace .pipeline [] []
  | wrapped {kind : Kind} : kind.isWrapper = true → kind ≠ .statementBlock →
      OperandPlace kind [] []

/-- The second tree is the first one with a node put around one of its subtrees, wherever that is,
or around the whole. -/
inductive WrappedSomewhere : Node → Node → Prop
  | here (e : Node) (w : Attributes) : w.kind.isTransparent = true → WrappedSomewhere e ⟨w, [e]⟩
  | deeper (attrs : Attributes) (before : List Node) {e e' : Node} (after : List Node) :
      WrappedSomewhere e e' →
      WrappedSomewhere ⟨attrs, before ++ e :: after⟩ ⟨attrs, before ++ e' :: after⟩

/-- An item behind the items `before` that stands for its leaves: it is no flag, no script block,
and not the value of a flag in front of it. -/
structure IsPositional (before : List Node) (item : Attributes) : Prop where
  noFlag : item.kind ≠ .commandParameter
  noBlock : item.kind ≠ .scriptBlockExpression
  noValue : ∀ last ∈ before.getLast?,
    ¬(last.label.kind = .commandParameter ∧ last.children = [])

/-- The second tree is the first one with a transparent node put around one subtree where an operand
stands, or anywhere below an array or a positional argument. -/
inductive Wrapped : Node → Node → Prop
  | operand (attrs : Attributes) (before : List Node) (e : Node) (after : List Node)
      (w : Attributes) : OperandPlace attrs.kind before after → w.kind.isTransparent = true →
      Wrapped ⟨attrs, before ++ e :: after⟩ ⟨attrs, before ++ ⟨w, [e]⟩ :: after⟩
  | element (attrs : Attributes) (before : List Node) {e e' : Node} (after : List Node) :
      attrs.kind = .arrayExpression ∨ attrs.kind = .arrayLiteral → WrappedSomewhere e e' →
      Wrapped ⟨attrs, before ++ e :: after⟩ ⟨attrs, before ++ e' :: after⟩
  | argument (attrs : Attributes) (callee : Node) (before : List Node) (item : Attributes)
      (inFront : List Node) {e e' : Node} (behind after : List Node) : attrs.kind = .command →
      IsPositional before item → WrappedSomewhere e e' →
      Wrapped ⟨attrs, callee :: (before ++ ⟨item, inFront ++ e :: behind⟩ :: after)⟩
        ⟨attrs, callee :: (before ++ ⟨item, inFront ++ e' :: behind⟩ :: after)⟩
  | deeper (attrs : Attributes) (before : List Node) {e e' : Node} (after : List Node) :
      Wrapped e e' → Wrapped ⟨attrs, before ++ e :: after⟩ ⟨attrs, before ++ e' :: after⟩

theorem Wrapped.label_eq {n m : Node} (h : Wrapped n m) : m.label = n.label := by
  cases h <;> rfl

theorem Wrapped.labels_eq {e e' : Node} (h : Wrapped e e') (before after : List Node) :
    (before ++ e' :: after).map Tree.label = (before ++ e :: after).map Tree.label := by
  simp [h.label_eq]

end Node

/-! ### Scopes without their numbers -/

mutual
/-- The scope with nothing that tells owners apart that look alike. -/
def Scope.unnumbered : Scope → Scope
  | ⟨owner, _, declarations, children⟩ => ⟨owner, 0, declarations, unnumberedAll children⟩

def Scope.unnumberedAll : List Scope → List Scope
  | [] => []
  | s :: rest => s.unnumbered :: unnumberedAll rest
end

theorem Scope.unnumberedAll_append (ss ts : List Scope) :
    unnumberedAll (ss ++ ts) = unnumberedAll ss ++ unnumberedAll ts := by
  induction ss with
  | nil => rfl
  | cons s ss ih => rw [List.cons_append, unnumberedAll, unnumberedAll, ih, List.cons_append]

namespace ScopeStack

def unnumbered (s : ScopeStack) : ScopeStack :=
  ⟨s.current.unnumbered, s.enclosing.map Scope.unnumbered⟩

theorem unnumbered_eq_iff {s u : ScopeStack} :
    u.unnumbered = s.unnumbered ↔ u.current.unnumbered = s.current.unnumbered ∧
      u.enclosing.map Scope.unnumbered = s.enclosing.map Scope.unnumbered := by
  rw [unnumbered, unnumbered, ScopeStack.mk.injEq]

end ScopeStack

namespace Scope
variable {s u child child' : Scope}

theorem unnumbered_eq_iff :
    u.unnumbered = s.unnumbered ↔ u.owner = s.owner ∧ u.declarations = s.declarations ∧
      unnumberedAll u.children = unnumberedAll s.children := by
  obtain ⟨owner, serial, declarations, children⟩ := s
  obtain ⟨owner', serial', declarations', children'⟩ := u
  simp [unnumbered]

theorem functions_unnumbered (h : u.unnumbered = s.unnumbered) (cfg : Config) (name : String) :
    u.functions cfg name = s.functions cfg name := by
  rw [functions, lookup, (unnumbered_eq_iff.mp h).2.1, functions, lookup]

theorem addChild_unnumbered (h : u.unnumbered = s.unnumbered)
    (hchild : child'.unnumbered = child.unnumbered) :
    (u.addChild child').unnumbered = (s.addChild child).unnumbered := by
  obtain ⟨owner, declarations, children⟩ := unnumbered_eq_iff.mp h
  refine unnumbered_eq_iff.mpr ⟨owner, declarations, ?_⟩
  simp only [addChild, unnumberedAll_append, children, unnumberedAll, hchild]

end Scope

theorem ScopeStack.resolve_unnumbered {s u : ScopeStack} (h : u.unnumbered = s.unnumbered)
    (cfg : Config) (name : String) : u.resolve cfg name = s.resolve cfg name := by
  obtain ⟨current, enclosing⟩ := unnumbered_eq_iff.mp h
  have same : ∀ {ss us : List Scope}, us.map Scope.unnumbered = ss.map Scope.unnumbered →
      us.flatMap (·.functions cfg name) = ss.flatMap (·.functions cfg name) := by
    intro ss
    induction ss with
    | nil =>
      intro us hus
      rw [List.map_eq_nil_iff.mp hus]
    | cons scope rest ih =>
      intro us hus
      obtain ⟨scope', rest', rfl, first, others⟩ := List.map_eq_cons_iff.mp hus
      rw [List.flatMap_cons, List.flatMap_cons, Scope.functions_unnumbered first, ih others]
  rw [resolve, resolve, List.flatMap_cons, List.flatMap_cons, Scope.functions_unnumbered current,
    same enclosing]

namespace Lower
open Session

/-- Nodes that say the same of themselves, wherever they are, and sessions that differ in their
trace and in the numbers of scopes. -/
def relocated : Likeness where
  session s u := u.collector = s.collector ∧ u.scopes.unnumbered = s.scopes.unnumbered
  site s t := t.attributes = s.attributes
  attributes h := h ▸ rfl

theorem relocated_steps : KeptBySteps relocated where
  dispatched _ _ _ related := ⟨.ok (), related⟩
  report := by
    rintro site other (attributes : other.attributes = site.attributes) issue issue' tags s u
      ⟨collector, scopes⟩
    obtain rfl : issue = issue' := by simpa [relocated] using tags.symm
    have stop : u.stop? other issue = s.stop? site issue := by
      rw [stop?, stop?, collector, attributes]
    have kept : (u.reported other issue).collector = (s.reported site issue).collector := by
      change (u.collector.report _).collector = (s.collector.report _).collector
      rw [collector, attributes]
    have after : relocated.session (s.reported site issue) (u.reported other issue) :=
      ⟨kept, scopes⟩
    cases hstop : s.stop? site issue with
    | none =>
      rw [run_report_of_none hstop, run_report_of_none (stop.trans hstop)]
      exact ⟨.ok (), after⟩
    | some reason =>
      rw [run_report_of_stop hstop, run_report_of_stop (stop.trans hstop)]
      exact ⟨.stopped rfl, after⟩

theorem relocated_scopes (cfg : Config) : KeptByScopes cfg relocated where
  resolve := by
    rintro site other _ callee s u ⟨collector, scopes⟩
    have candidates := ScopeStack.resolve_unnumbered scopes cfg callee
    have mine : (s.run (resolve cfg site callee)).1 = .ok (s.scopes.resolve cfg callee) := rfl
    have theirs : (u.run (resolve cfg other callee)).1 = .ok (u.scopes.resolve cfg callee) := rfl
    rw [mine, theirs, candidates]
    exact ⟨.ok _, collector, scopes⟩
  declareAll := by
    rintro s u ds ⟨collector, scopes⟩
    obtain ⟨current, enclosing⟩ := ScopeStack.unnumbered_eq_iff.mp scopes
    obtain ⟨owner, declarations, children⟩ := Scope.unnumbered_eq_iff.mp current
    refine ⟨collector, ScopeStack.unnumbered_eq_iff.mpr ⟨?_, enclosing⟩⟩
    refine Scope.unnumbered_eq_iff.mpr ⟨owner, ?_, children⟩
    simp only [declareAll, declarations]
  opening := by
    rintro s u owner ⟨collector, scopes⟩
    obtain ⟨current, enclosing⟩ := ScopeStack.unnumbered_eq_iff.mp scopes
    refine ⟨collector, ScopeStack.unnumbered_eq_iff.mpr
      ⟨Scope.unnumbered_eq_iff.mpr ⟨rfl, rfl, rfl⟩, ?_⟩⟩
    exact congrArg₂ List.cons current enclosing
  closing := by
    rintro s u t v owner ⟨_, scopes⟩ ⟨collector, inner⟩
    obtain ⟨current, enclosing⟩ := ScopeStack.unnumbered_eq_iff.mp scopes
    obtain ⟨closed, _⟩ := ScopeStack.unnumbered_eq_iff.mp inner
    exact ⟨collector, ScopeStack.unnumbered_eq_iff.mpr
      ⟨Scope.addChild_unnumbered current closed, enclosing⟩⟩

/-! ### A node in another place -/

theorem nodesAlike_of_labels {children others : List Node}
    (labels : others.map Tree.label = children.map Tree.label) :
    List.Forall₂ (NodesAlike relocated) children others := by
  have same : List.Forall₂ (· = ·) (children.map Tree.label) (others.map Tree.label) :=
    labels ▸ List.forall₂_refl _
  rw [List.forall₂_map_left_iff, List.forall₂_map_right_iff] at same
  exact same.imp fun _ _ label _ _ => label.symm

theorem parameter_relocated {cfg : Config} {attrs : Attributes} {children others : List Node}
    {p q : Path} (labels : others.map Tree.label = children.map Tree.label) :
    ParametersAlike relocated cfg ⟨p, ⟨attrs, children⟩⟩ ⟨q, ⟨attrs, others⟩⟩ :=
  parameter_alike_of_children rfl (nodesAlike_of_labels labels) relocated_steps cfg

theorem relocated_matches : Node.Matches relocated (· = ·) where
  root same _ _ := same ▸ rfl
  children same := same ▸ List.forall₂_refl _

theorem expressionOf?_of_isWrapper (cfg : Config) (site : Site) (children : List (Tree Reading))
    {k : Kind} (h : k.isWrapper = true) :
    expressionOf? cfg site children k = some (wrapper site children) := by
  cases k <;> first | rfl | cases h

end Lower

namespace Node
open Lower
variable (cfg : Config)

theorem parametersOf_relocated (children : List Node) (p q : Path) (i : Nat) :
    List.Forall₂ (ParametersAlike relocated cfg) (parametersOf p i children)
      (parametersOf q i children) :=
  parametersOf_alike_of_matches relocated_steps cfg
    relocated_matches _ _ (List.forall₂_refl _) p q i

theorem parameters_relocated (n : Node) (p q : Path) :
    List.Forall₂ (ParametersAlike relocated cfg) (n.parameters p) (n.parameters q) :=
  parameters_alike_of_matches relocated_steps cfg relocated_matches n n rfl p q

/-- A tree is lowered alike wherever it is. -/
theorem readings_relocated (n : Node) (p q : Path) :
    TreesAlike relocated (n.readings cfg p) (n.readings cfg q) :=
  readings_alike_of_matches relocated_steps (relocated_scopes cfg) relocated_matches n n rfl p q

theorem readingsOf_relocated (children : List Node) (p q : Path) (i : Nat) :
    List.Forall₂ (TreesAlike relocated) (readingsOf cfg p i children)
      (readingsOf cfg q i children) :=
  readingsOf_alike_of_matches relocated_steps (relocated_scopes cfg) relocated_matches _ _
    (List.forall₂_refl _) p q i

/-- What all trees have in common with themselves in other places, and a child with the one in its
place, all children of a node have in common. -/
theorem readingsOf_around {R : Tree Reading → Tree Reading → Prop} {e e' : Node}
    (same : ∀ t u, TreesAlike relocated t u → R t u)
    (here : ∀ p q, R (e.readings cfg p) (e'.readings cfg q)) (before after : List Node) (p q : Path)
    (i : Nat) : List.Forall₂ R (readingsOf cfg p i (before ++ e :: after))
      (readingsOf cfg q i (before ++ e' :: after)) := by
  induction before generalizing i with
  | nil =>
    rw [List.nil_append, List.nil_append, readingsOf, readingsOf]
    exact .cons (here _ _) ((readingsOf_relocated cfg after p q (i + 1)).imp same)
  | cons child rest ih =>
    rw [List.cons_append, List.cons_append, readingsOf, readingsOf]
    exact .cons (same _ _ (readings_relocated cfg child _ _)) (ih (i + 1))

theorem parametersOf_around {e e' : Node}
    (here : ∀ p q, List.Forall₂ (ParametersAlike relocated cfg) (e.parameters p) (e'.parameters q))
    (before after : List Node) (p q : Path) (i : Nat) :
    List.Forall₂ (ParametersAlike relocated cfg) (parametersOf p i (before ++ e :: after))
      (parametersOf q i (before ++ e' :: after)) := by
  induction before generalizing i with
  | nil =>
    rw [List.nil_append, List.nil_append, parametersOf, parametersOf]
    exact List.rel_append (here _ _) (parametersOf_relocated cfg after p q (i + 1))
  | cons child rest ih =>
    rw [List.cons_append, List.cons_append, parametersOf, parametersOf]
    exact List.rel_append (parameters_relocated cfg child _ _) (ih (i + 1))

/-! ### Wrapped nodes -/

theorem readings_sure : ∀ (n : Node) (p : Path), Sure (n.readings cfg p).label.expression
  | ⟨_, _⟩, _ => expression_sure cfg _ _

/-- A transparent node around a tree is lowered as an expression as the tree is. -/
theorem expression_wrapped {w : Attributes} (hw : w.kind.isTransparent = true) (e : Node)
    (p q : Path) :
    Alike relocated (e.readings cfg p).label.expression
      (readings cfg q ⟨w, [e]⟩).label.expression := by
  let site : Site := ⟨q, ⟨w, [e]⟩⟩
  let below := readingsOf cfg q 0 [e]
  have inside : Alike relocated (e.readings cfg p).label.expression
      (e.readings cfg (q ++ [0])).label.expression :=
    (readings_relocated cfg e p (q ++ [0])).label.expression
  have handler : expressionOf? cfg site below w.kind =
      some (e.readings cfg (q ++ [0])).label.expression := by
    have kind : w.kind.isWrapper = true ∨ w.kind = .pipeline := by
      simpa [Kind.isTransparent] using hw
    rcases kind with wrapper | pipeline
    · exact expressionOf?_of_isWrapper cfg site below wrapper
    · rw [pipeline]
      rfl
  have sure := readings_sure cfg e (q ++ [0])
  intro s u related
  have dispatched : relocated.session s (u.dispatching site) := related
  have run : u.run (readings cfg q ⟨w, [e]⟩).label.expression =
      (u.dispatching site).run (e.readings cfg (q ++ [0])).label.expression := by
    rw [readings]
    exact (run_expression_of_some handler).trans (sure.run_orUnknown _)
  rw [run]
  exact inside s _ dispatched

theorem leaves_wrapped (w : Attributes) (e : Node) (p q : Path) :
    LeavesAlike relocated (e.readings cfg p) (readings cfg q ⟨w, [e]⟩) := by
  have inside := (readings_relocated cfg e p (q ++ [0])).leaves
  rw [LeavesAlike, readings, readingsOf, readingsOf, valueLeaves_of_children _ (by simp),
    List.flatMap_singleton]
  exact inside

theorem operand_wrapped {w : Attributes} (hw : w.kind.isTransparent = true) (e : Node)
    (p q : Path) :
    OperandsAlike relocated (e.readings cfg p) (readings cfg q ⟨w, [e]⟩) :=
  ⟨expression_wrapped cfg hw e p q, leaves_wrapped cfg w e p q⟩

/-- Wherever a node is put around a subtree, the leaves stay what they are. -/
theorem WrappedSomewhere.leaves {n m : Node} (h : WrappedSomewhere n m) (p q : Path) :
    LeavesAlike relocated (n.readings cfg p) (m.readings cfg q) := by
  induction h generalizing p q with
  | here e w _ => exact leaves_wrapped cfg w e p q
  | deeper attrs before after _ ih =>
    rw [readings, readings]
    refine leavesAlike_of_children _ _ (fun none => ?_)
      (readingsOf_around cfg (fun _ _ => TreesAlike.leaves) ih before after p q 0)
    cases before <;> cases none

/-- A node that is plainly an expression declares no parameters. -/
theorem parameters_of_plain {attrs : Attributes} (plain : attrs.kind.isPlain = true)
    (children : List Node) (p : Path) : Node.parameters p ⟨attrs, children⟩ = [] := by
  rw [Node.parameters]
  generalize attrs.kind = k at plain ⊢
  cases k <;> first | rfl | cases plain

theorem OperandPlace.plain {kind : Kind} {before after : List Node}
    (place : OperandPlace kind before after) : kind.isPlain = true := by
  cases place with
  | wrapped wrapper noBlock => cases kind <;> first | rfl | exact absurd rfl noBlock | cases wrapper
  | _ => rfl

section
variable {attrs : Attributes} {before after : List Node} {e e' : Node}

/-- A node that is plainly an expression is lowered alike if it is where an expression stands. -/
theorem label_relocated {children others : List Node} {p q : Path}
    (plain : attrs.kind.isPlain = true)
    (handled : Option.Rel (Alike relocated)
      (expressionOf? cfg ⟨p, ⟨attrs, children⟩⟩ (readingsOf cfg p 0 children) attrs.kind)
      (expressionOf? cfg ⟨q, ⟨attrs, others⟩⟩ (readingsOf cfg q 0 others) attrs.kind)) :
    ReadingsAlike relocated (readings cfg p ⟨attrs, children⟩).label
      (readings cfg q ⟨attrs, others⟩).label := by
  have noBlock : attrs.kind.isBlock = false := by
    generalize attrs.kind = k at plain ⊢
    cases k <;> first | rfl | cases plain
  have noDefinition : attrs.kind ≠ .functionDefinition := fun kind => by
    simp [kind, Kind.isPlain] at plain
  have noType : attrs.kind ≠ .typeReference := fun kind => by simp [kind, Kind.isPlain] at plain
  have same : relocated.site ⟨p, ⟨attrs, children⟩⟩ ⟨q, ⟨attrs, others⟩⟩ := rfl
  have lowered := expression_alike relocated_steps same handled
  rw [readings, readings]
  constructor
  · exact same
  · exact typeOfNode_alike relocated_steps same fun type => absurd type noType
  · exact lowered
  · exact statement_alike_of_expression same noBlock noDefinition lowered

/-! ### Wrapped operands -/

/-- A node with a child wrapped where an operand stands is handled as without the wrapper. -/
theorem expressionOf?_operand (place : OperandPlace attrs.kind before after) {w : Attributes}
    (hw : w.kind.isTransparent = true) (p q : Path) :
    let mine := before ++ e :: after
    let theirs := before ++ ⟨w, [e]⟩ :: after
    Option.Rel (Alike relocated)
      (expressionOf? cfg ⟨p, ⟨attrs, mine⟩⟩ (readingsOf cfg p 0 mine) attrs.kind)
      (expressionOf? cfg ⟨q, ⟨attrs, theirs⟩⟩ (readingsOf cfg q 0 theirs) attrs.kind) := by
  intro mine theirs
  have same : relocated.site ⟨p, ⟨attrs, mine⟩⟩ ⟨q, ⟨attrs, theirs⟩⟩ := rfl
  have operands : List.Forall₂ (OperandsAlike relocated) (readingsOf cfg p 0 mine)
      (readingsOf cfg q 0 theirs) :=
    readingsOf_around cfg (fun _ _ => TreesAlike.operand) (operand_wrapped cfg hw e)
      before after p q 0
  generalize attrs.kind = kind at place ⊢
  cases place with
  | binary => exact .some (binary_alike same operands)
  | assignment => exact .some (binary_alike same operands)
  | unary => exact .some (unary_alike same operands)
  | flagValue => exact .some (reference_alike same relocated_steps)
  | converted type =>
    have types : Alike relocated (typeOfNode (type.readings cfg (p ++ [0])).label.site)
        (typeOfNode (type.readings cfg (q ++ [0])).label.site) :=
      (readings_relocated cfg type _ _).label.type
    refine .some (cast_alike same relocated_steps operands ?_)
    rintro _ ⟨⟩ _ ⟨⟩
    exact types
  | stage => exact .some (expression_wrapped cfg hw e _ _)
  | wrapped wrapper noBlock =>
    have handled := wrapper_alike same relocated_steps operands
    cases kind <;> first | exact .some handled | cases wrapper

theorem readings_operand (place : OperandPlace attrs.kind before after) {w : Attributes}
    (hw : w.kind.isTransparent = true) (p q : Path) :
    TreesAlike relocated (readings cfg p ⟨attrs, before ++ e :: after⟩)
      (readings cfg q ⟨attrs, before ++ ⟨w, [e]⟩ :: after⟩) := by
  have operands := readingsOf_around cfg (fun _ _ => TreesAlike.operand) (operand_wrapped cfg hw e)
    before after p q 0
  have label := label_relocated cfg place.plain (expressionOf?_operand cfg (e := e) place hw p q)
  rw [readings, readings] at label ⊢
  exact .of_operands label operands

/-! ### Wrappers among leaves -/

theorem isPlain_of_array {kind : Kind} (array : kind = .arrayExpression ∨ kind = .arrayLiteral) :
    kind.isPlain = true := by
  rcases array with rfl | rfl <;> rfl

/-- Of an array's children only the leaves count. -/
theorem readings_element (array : attrs.kind = .arrayExpression ∨ attrs.kind = .arrayLiteral)
    (h : WrappedSomewhere e e') (p q : Path) :
    TreesAlike relocated (readings cfg p ⟨attrs, before ++ e :: after⟩)
      (readings cfg q ⟨attrs, before ++ e' :: after⟩) := by
  have same : relocated.site ⟨p, ⟨attrs, before ++ e :: after⟩⟩
      ⟨q, ⟨attrs, before ++ e' :: after⟩⟩ := rfl
  have leaves : List.Forall₂ (LeavesAlike relocated) (readingsOf cfg p 0 (before ++ e :: after))
      (readingsOf cfg q 0 (before ++ e' :: after)) :=
    readingsOf_around cfg (fun _ _ => TreesAlike.leaves) (h.leaves cfg) before after p q 0
  have handled := array_alike same relocated_steps leaves
  have label : ReadingsAlike relocated (readings cfg p ⟨attrs, before ++ e :: after⟩).label
      (readings cfg q ⟨attrs, before ++ e' :: after⟩).label := by
    apply label_relocated
    · exact isPlain_of_array array
    · rcases array with kind | kind <;> rw [kind] <;> exact .some handled
  have noFlag : attrs.kind ≠ .commandParameter := by
    rcases array with kind | kind <;> simp [kind]
  rw [readings, readings] at label ⊢
  exact .of_leaves label noFlag leaves

theorem IsPositional.apart {item : Node} (h : IsPositional before item.label) (p q : Path) :
    ∀ last ∈ (readingsOf cfg p 1 before).getLast?,
      takesNext last (item.readings cfg q) = false := by
  intro last hlast
  rcases List.eq_nil_or_concat' before with rfl | ⟨others, node, rfl⟩
  · cases hlast
  · have noValue := h.noValue node (by simp)
    obtain ⟨attrs, children⟩ := node
    rw [readingsOf_append, readingsOf, readingsOf, List.getLast?_concat] at hlast
    cases hlast
    have childless : (readingsOf cfg (p ++ [1 + others.length]) 0 children).isEmpty =
        children.isEmpty := by
      cases children <;> simp [readingsOf]
    have stays : (decide (attrs.kind = .commandParameter) && children.isEmpty) = false := by
      simpa using noValue
    rw [takesNext, readings, childless]
    exact congrArg (· && _) stays

theorem slots_cons_of_noFlag (i : Nat) {item : Tree Reading} (others : List (Tree Reading))
    (noFlag : item.label.kind ≠ .commandParameter) :
    slots i (item :: others) = slotOf i item :: slots (i + 1) others := by
  cases others with
  | nil => rfl
  | cons next rest => simp [slots, takesNext, noFlag]

/-- Of a positional argument only the leaves count. -/
theorem slots_positional {item item' : Node} (same : item'.label = item.label)
    (positional : IsPositional before item.label)
    (h : ∀ p q, LeavesAlike relocated (item.readings cfg p) (item'.readings cfg q))
    (after : List Node) (p q : Path) :
    List.Forall₂ (Slot.Alike relocated) (slots 0 (readingsOf cfg p 1 (before ++ item :: after)))
      (slots 0 (readingsOf cfg q 1 (before ++ item' :: after))) := by
  have noFlag : ∀ (n : Node) (path : Path), n.label = item.label →
      (n.readings cfg path).label.kind ≠ .commandParameter := by
    intro n path label
    rw [readings_kind, label]
    exact positional.noFlag
  have noBlock : ∀ (n : Node) (path : Path), n.label = item.label →
      (n.readings cfg path).label.kind ≠ .scriptBlockExpression := by
    intro n path label
    rw [readings_kind, label]
    exact positional.noBlock
  have apart := positional.apart cfg p
  have apart' : ∀ path, _ := (same ▸ positional).apart cfg q
  rw [readingsOf_append, readingsOf_append, readingsOf, readingsOf, slots_append (apart _),
    slots_append (apart' _), slots_cons_of_noFlag _ _ (noFlag _ _ rfl),
    slots_cons_of_noFlag _ _ (noFlag _ _ same),
      slotOf_eq_group _ (noFlag _ _ rfl) (noBlock _ _ rfl),
    slotOf_eq_group _ (noFlag _ _ same) (noBlock _ _ same), length_readingsOf, length_readingsOf]
  refine List.rel_append (slots_alike 0 (readingsOf_relocated cfg before p q 1)) (.cons ?_ ?_)
  · exact .group (h _ _)
  · exact slots_alike _ (readingsOf_relocated cfg after p q _)

theorem readings_argument {callee : Node} {item : Attributes} {inFront behind : List Node}
    (command : attrs.kind = .command) (positional : IsPositional before item)
    (h : WrappedSomewhere e e') (p q : Path) :
    TreesAlike relocated
      (readings cfg p ⟨attrs, callee :: (before ++ ⟨item, inFront ++ e :: behind⟩ :: after)⟩)
      (readings cfg q ⟨attrs, callee :: (before ++ ⟨item, inFront ++ e' :: behind⟩ :: after)⟩) := by
  have below : WrappedSomewhere ⟨item, inFront ++ e :: behind⟩ ⟨item, inFront ++ e' :: behind⟩ :=
    .deeper item inFront behind h
  let mine := callee :: (before ++ ⟨item, inFront ++ e :: behind⟩ :: after)
  let theirs := callee :: (before ++ ⟨item, inFront ++ e' :: behind⟩ :: after)
  have same : relocated.site ⟨p, ⟨attrs, mine⟩⟩ ⟨q, ⟨attrs, theirs⟩⟩ := rfl
  have shown : (⟨item, inFront ++ e' :: behind⟩ : Node).label =
      (⟨item, inFront ++ e :: behind⟩ : Node).label := rfl
  have slots := slots_positional cfg shown positional (below.leaves cfg) after p q
  have first := readings_relocated cfg callee (p ++ [0]) (q ++ [0])
  have handled := command_alike relocated_steps (relocated_scopes cfg) same first.label.site slots
  have label : ReadingsAlike relocated (readings cfg p ⟨attrs, mine⟩).label
      (readings cfg q ⟨attrs, theirs⟩).label := by
    apply label_relocated
    · rw [command]
      rfl
    · rw [command]
      exact .some handled
  have leaves : List.Forall₂ (LeavesAlike relocated) (readingsOf cfg p 0 mine)
      (readingsOf cfg q 0 theirs) :=
    readingsOf_around cfg (fun _ _ => TreesAlike.leaves) (below.leaves cfg) (callee :: before) after
      p q 0
  have noFlag : attrs.kind ≠ .commandParameter := by simp [command]
  change TreesAlike relocated (readings cfg p ⟨attrs, mine⟩) (readings cfg q ⟨attrs, theirs⟩)
  rw [readings, readings] at label ⊢
  exact .of_leaves label noFlag leaves

end

/-! ### Wrappers anywhere -/

theorem Wrapped.parameters {n m : Node} (h : Wrapped n m) (p q : Path) :
    List.Forall₂ (ParametersAlike relocated cfg) (n.parameters p) (m.parameters q) := by
  induction h generalizing p q with
  | operand attrs before e after w place hw =>
    rw [parameters_of_plain place.plain, parameters_of_plain place.plain]
    exact .nil
  | element attrs before after array =>
    have plain := isPlain_of_array array
    rw [parameters_of_plain plain, parameters_of_plain plain]
    exact .nil
  | argument attrs callee before item inFront behind after command =>
    have plain : attrs.kind.isPlain = true := command ▸ rfl
    rw [parameters_of_plain plain, parameters_of_plain plain]
    exact .nil
  | deeper attrs before after inner ih =>
    rw [Node.parameters, Node.parameters]
    split
    · exact .cons (parameter_relocated (inner.labels_eq before after)) .nil
    · split
      · exact parametersOf_around cfg ih before after p q 0
      · exact .nil

/-- A wrapped tree is lowered as the tree is. -/
theorem Wrapped.readings {n m : Node} (h : Wrapped n m) (p q : Path) :
    TreesAlike relocated (n.readings cfg p) (m.readings cfg q) := by
  induction h generalizing p q with
  | operand attrs before e after w place hw => exact readings_operand cfg place hw p q
  | element attrs before after array somewhere => exact readings_element cfg array somewhere p q
  | argument attrs callee before item inFront behind after command positional somewhere =>
    exact readings_argument cfg command positional somewhere p q
  | deeper attrs before after inner ih =>
    exact readings_alike_of_children relocated_steps (relocated_scopes cfg) rfl
      (nodesAlike_of_labels (inner.labels_eq before after))
      (readingsOf_around cfg (fun _ _ same => same) ih before after p q 0)
      (parametersOf_around cfg (inner.parameters cfg) before after p q 0)

end Node

/-- Nodes put around subtrees make no difference: around one where an operand stands, that is either
child of a binary operator or an assignment, the first child of a unary operator or of a flag, the
second one of a conversion, or the only child of a pipeline or of a wrapper other than a statement
block; or around anything below an array or a positional argument. A tree with any number of
wrappers and pipelines of one stage put in such places is lowered, from any session, with the same
outcome, the same collector and the same scopes up to their numbers. -/
theorem lower_wrapped (cfg : Config) {n m : Node} (h : Relation.ReflTransGen Node.Wrapped n m)
    (s : Session) :
    let plain := s.run (lowerExpression cfg n)
    let wrapped := s.run (lowerExpression cfg m)
    wrapped.1 = plain.1 ∧ wrapped.2.collector = plain.2.collector ∧
      wrapped.2.scopes.unnumbered = plain.2.scopes.unnumbered := by
  induction h with
  | refl => exact ⟨rfl, rfl, rfl⟩
  | @tail m l _ step ih =>
    obtain ⟨outcome, collector, scopes⟩ := ih
    have alike : Lower.Alike Lower.relocated (lowerExpression cfg m) (lowerExpression cfg l) :=
      (step.readings cfg [] []).label.expression
    obtain ⟨same, collector', scopes'⟩ := alike s s ⟨rfl, rfl⟩
    have last : (s.run (lowerExpression cfg l)).1 = (s.run (lowerExpression cfg m)).1 :=
      same.eq_of_sure (m.readings_sure cfg [] s)
    exact ⟨last.trans outcome, collector'.trans collector, scopes'.trans scopes⟩

/-- An element of a list is a sum. Its left operand is put in parentheses, which make up a pipeline,
and the sum is put in parentheses too. -/
theorem lower_wrapped_chain :
    let x := Node.bare .variableExpression []
    let sum (left : Node) : Node :=
      ⟨{ kind := .binaryExpression, tag := "", operator := some "+" }, [left, x]⟩
    let list (element : Node) := Node.bare .arrayLiteral [element]
    let wrapped :=
      list (.bare .parenExpression [sum (.bare .pipeline [.bare .parenExpression [x]])])
    Relation.ReflTransGen Node.Wrapped (list (sum x)) wrapped ∧
      ((Session.start {}).run (lowerExpression {} wrapped)).1 =
        ((Session.start {}).run (lowerExpression {} (list (sum x)))).1 := by
  intro x sum list wrapped
  have parentheses : Node.Wrapped (list (sum x)) (list (sum (.bare .parenExpression [x]))) :=
    .deeper _ [] [] (.operand _ [] x [x] _ (.binary [] [x]) rfl)
  have pipeline : Node.Wrapped (list (sum (.bare .parenExpression [x])))
      (list (sum (.bare .pipeline [.bare .parenExpression [x]]))) :=
    .deeper _ [] [] (.operand _ [] _ [x] _ (.binary [] [x]) rfl)
  have element : Node.Wrapped (list (sum (.bare .pipeline [.bare .parenExpression [x]]))) wrapped :=
    .element _ [] [] (.inr rfl) (.here _ _ rfl)
  have chain : Relation.ReflTransGen Node.Wrapped (list (sum x)) wrapped :=
    .tail (.tail (.single parentheses) pipeline) element
  exact ⟨chain, (lower_wrapped {} chain (Session.start {})).1⟩

end ScriptIR
