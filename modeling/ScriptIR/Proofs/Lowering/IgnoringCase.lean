import ScriptIR.Proofs.Lowering.Recasing

/-!
# Case is ignored throughout a run

Where names are matched regardless of case, nothing that a run does depends on the case of letters
of names and code: not what a callee or a flag stands for, nor what is reported or where a run
stops. By induction over trees that a `Recasing` relates all their nodes are lowered in step, and
the nodes in the same places of two trees that differ in case only are related in that way.
-/
namespace ScriptIR

open Text (uncased)
open Lower (AllComposed TreesInStep)

namespace Lower
variable {cfg : Config} {R : Site → Site → Prop} (recasing : Recasing cfg R)
variable {site other : Site} (hsite : R site other) {children others : List (Tree Reading)}
variable {known known' : Site → Prop} (hchildren : AllComposed cfg known children)
variable (hothers : AllComposed cfg known' others)
    (h : List.Forall₂ (TreesInStep cfg R) children others)
include recasing hsite hchildren hothers h

theorem expressionOf?_inStep (kind : Kind) :
    Option.Rel (InStep cfg R (Expression.Recased R)) (expressionOf? cfg site children kind)
      (expressionOf? cfg other others kind) := by
  have block := block_inStep hsite hchildren hothers h
  have function := function_inStep hsite hchildren hothers h recasing
  cases kind
  all_goals first
    | exact .none
    | apply Option.Rel.some
  all_goals first
    | exact wrapper_inStep hsite recasing h
    | exact pipeline_inStep hsite hchildren hothers h
    | exact scriptBlock_inStep hsite hchildren hothers h
    | exact command_inStep hsite recasing h
    | exact reference_inStep hsite recasing
    | exact compound_inStep hsite block
    | exact binary_inStep hsite recasing h
    | exact unary_inStep hsite recasing h
    | exact literal_inStep hsite recasing
    | exact function.bind fun _ _ recased => .pure (.definition hsite (.function recased))
    | exact array_inStep hsite recasing h
    | exact cast_inStep hsite recasing h
    | exact memberAccess_inStep hsite recasing

theorem expression_inStep :
    InStep cfg R (Expression.Recased R) (expression cfg site children)
      (expression cfg other others) := by
  refine (InStep.record _ _).bind fun _ _ _ => ?_
  have handled := expressionOf?_inStep recasing hsite hchildren hothers h site.attributes.kind
  rw [recasing.kind hsite]
  generalize expressionOf? cfg site children site.attributes.kind = lowered at handled ⊢
  generalize expressionOf? cfg other others site.attributes.kind = lowered' at handled ⊢
  cases handled with
  | none => exact (InStep.report recasing hsite).bind fun _ _ _ => .pure (.unknown hsite)
  | some step => exact step.orUnknown recasing hsite

theorem statement_inStep :
    InStep cfg R (Statement.Recased R) (statement cfg site children)
      (statement cfg other others) := by
  unfold statement
  rw [recasing.kind hsite]
  split
  · exact block_inStep hsite hchildren hothers h
  · split
    · exact (function_inStep hsite hchildren hothers h recasing).bind fun _ _ recased =>
        .pure (.definition hsite (.function recased))
    · exact (expression_inStep recasing hsite hchildren hothers h).bind fun _ _ recased =>
        .pure (.expression hsite recased)

end Lower

/-! ### Trees -/

namespace Recasing
variable {cfg : Config} {R : Site → Site → Prop} (recasing : Recasing cfg R)
    {s t : Site} (h : R s t)
include recasing h

/-- Related nodes are lowered in step, through all that is below them. -/
theorem readings : TreesInStep cfg R (s.node.readings cfg s.path) (t.node.readings cfg t.path) := by
  refine recasing.induct (motive := fun s t =>
    TreesInStep cfg R (s.node.readings cfg s.path) (t.node.readings cfg t.path)) ?_ h
  intro s t related children
  have below : List.Forall₂ (TreesInStep cfg R) (s.below cfg) (t.below cfg) := by
    rw [s.below_eq, t.below_eq, List.forall₂_map_left_iff, List.forall₂_map_right_iff]
    exact children.imp fun _ _ child => child.2
  have composed := s.below_composed cfg
  have composed' := t.below_composed cfg
  rw [s.node_readings_eq, t.node_readings_eq, s.reading_eq, t.reading_eq]
  exact .node ⟨related, recasing.kind related,
    Lower.expression_inStep recasing related composed composed' below,
    Lower.statement_inStep recasing related composed composed' below⟩ below

end Recasing

/-! ### Two trees -/

namespace Node

/-- No function of the tree has two parameters whose names have the same key. -/
def ParametersApart (cfg : Config) (n : Node) : Prop :=
  ∀ s ∈ n.sites [], s.attributes.kind = .functionDefinition → s.ParametersApart cfg

instance (cfg : Config) (n : Node) : Decidable (n.ParametersApart cfg) :=
  inferInstanceAs (Decidable (∀ s ∈ n.sites [], _ → _))

/-- Nodes in the same place of two trees, the same but for the case of letters. -/
structure Counterparts (n m : Node) (s t : Site) : Prop where
  mine : s ∈ n.sites []
  theirs : t ∈ m.sites []
  path : t.path = s.path
  recased : s.node.Recased t.node

variable {n m : Node}

/-- What is made from counterparts has the same location, and code that differs in case at most. -/
theorem Counterparts.origin {s t : Site} (h : n.Counterparts m s t) :
    t.origin.location = s.origin.location ∧ t.origin.code.map uncased = s.origin.code.map uncased :=
  ⟨(congrArg Attributes.location h.recased.label :), (congrArg Attributes.code h.recased.label :)⟩

theorem Counterparts.root (h : n.Recased m) : n.Counterparts m (.root n) (.root m) :=
  ⟨n.site_mem_sites [], m.site_mem_sites [], rfl, h⟩

theorem Counterparts.children {s t : Site} (h : n.Counterparts m s t) :
    List.Forall₂ (n.Counterparts m) s.children t.children := by
  have recased : List.Forall₂ (fun c d : Site => d.path = c.path ∧ c.node.Recased d.node) s.children
      t.children :=
    forall₂_mapIdx h.recased.children fun i _ _ child => ⟨by rw [h.path], child⟩
  obtain ⟨length, pairs⟩ := List.forall₂_iff_zip.mp recased
  refine List.forall₂_iff_zip.mpr ⟨length, fun both => ?_⟩
  obtain ⟨hc, hd⟩ := List.of_mem_zip both
  obtain ⟨path, child⟩ := pairs both
  exact ⟨s.children_subset_sites h.mine hc, t.children_subset_sites h.theirs hd, path, child⟩

/-- Where case is ignored, counterparts can stand for one another. -/
theorem Counterparts.recasing {cfg : Config} (ignoreCase : cfg.ignoreCase = true)
    (sigil : Text.Caseless cfg.sigil) (marker : Text.Caseless cfg.flagMarker)
    (apart : n.ParametersApart cfg) : Recasing cfg (n.Counterparts m) where
  ignoreCase := ignoreCase
  sigil := sigil
  marker := marker
  attributes h := h.recased.label
  children h := h.children
  apart h := apart _ h.mine

end Node

/-- Results of the same kind that correspond. -/
inductive Part.Recased (R : Site → Site → Prop) : Part → Part → Prop
  | expression {e e' : Expression} : e.Recased R e' → Recased R (.expression e) (.expression e')
  | statement {s s' : Statement} : s.Recased R s' → Recased R (.statement s) (.statement s')

theorem Recasing.lower {cfg : Config} {R : Site → Site → Prop}
    (recasing : Recasing cfg R) {n m : Node}
    (h : R (.root n) (.root m)) (entry : EntryPoint) :
    Lower.InStep cfg R (Part.Recased R) (entry.lower cfg n) (entry.lower cfg m) := by
  have lowered := (recasing.readings h).label
  cases entry with
  | expression => exact lowered.expression.bind fun _ _ recased => .pure (.expression recased)
  | statement => exact lowered.statement.bind fun _ _ recased => .pure (.statement recased)
  | script =>
    refine Lower.InStep.bind (Q := Statement.Recased R)
      (lowered.statement.bind fun _ _ recased => ?_)
      fun _ _ recased => .pure (.statement recased)
    cases recased with
    | expression hsite e => exact .pure (.block h (.cons (.expression hsite e) .nil))
    | definition hsite f => exact .pure (.block h (.cons (.definition hsite f) .nil))
    | block hsite statements => exact .pure (.block hsite statements)

/-- Where names are matched regardless of case, the case of letters counts for nothing in a whole
run. Two trees that differ in the case of letters of names and code are lowered with the same
outcome: each part of the one result is made from a node with a counterpart, and corresponds to the
part of the other result that is made from this; calls have the same indices and positions, and are
bound to functions that were defined at counterparts, or both to none. The diagnostics agree one by
one in all but their wording. -/
theorem lower_ignores_case {cfg : Config} (ignoreCase : cfg.ignoreCase = true)
    (sigil : Text.Caseless cfg.sigil) (marker : Text.Caseless cfg.flagMarker) {n m : Node}
    (recased : n.Recased m) (apart : n.ParametersApart cfg) (entry : EntryPoint) (c : Collector) :
    let mine := (Session.start c).run (entry.lower cfg n)
    let theirs := (Session.start c).run (entry.lower cfg m)
    Fault.InStep (n.Counterparts m) (Part.Recased (n.Counterparts m)) mine.1 theirs.1 ∧
      theirs.2.collector.entries.toList.map Diagnostic.heading =
        mine.2.collector.entries.toList.map Diagnostic.heading := by
  intro mine theirs
  have recasing := Node.Counterparts.recasing (m := m) ignoreCase sigil marker apart
  have fresh : (Session.start c).InStep cfg (n.Counterparts m) (Session.start c) := ⟨.nil, .refl _⟩
  obtain ⟨outcome, after⟩ := recasing.lower (.root recased) entry _ _ fresh
  exact ⟨outcome, after.collector.entries⟩

/-- The definition of a function with one parameter, and behind it a call with a flag. -/
def definedAndCalled (function parameter callee flag : String) : Node :=
  Node.bare .namedBlock
    [⟨{ kind := .functionDefinition, tag := "FunctionDefinition", name := some function },
      [Node.bare .parameter
        [⟨{ kind := .variableExpression, tag := "VariableExpression",
            name := some parameter }, []⟩]]⟩,
    Node.bare .command
      [⟨{ kind := .stringConstantExpression, tag := "StringConstantExpression",
          code := some callee }, []⟩,
      ⟨{ kind := .commandParameter, tag := "CommandParameter", name := some flag }, []⟩,
      ⟨{ kind := .constantExpression, tag := "ConstantExpression", code := some "1" }, []⟩]]

theorem definedAndCalled_recased {f f' p p' c c' g g' : String} (function : uncased f' = uncased f)
    (parameter : uncased p' = uncased p) (callee : uncased c' = uncased c)
    (flag : uncased g' = uncased g) :
    (definedAndCalled f p c g).Recased (definedAndCalled f' p' c' g') := by
  have named : ∀ {kind : Kind} {label s s' : String}, uncased s' = uncased s →
      Attributes.uncased ⟨kind, label, none, some s', none, none, none, {}⟩ =
        Attributes.uncased ⟨kind, label, none, some s, none, none, none, {}⟩ := fun same => by
    simp only [Attributes.uncased, Option.map_some, same]
  have coded : ∀ {kind : Kind} {label s s' : String}, uncased s' = uncased s →
      Attributes.uncased ⟨kind, label, some s', none, none, none, none, {}⟩ =
        Attributes.uncased ⟨kind, label, some s, none, none, none, none, {}⟩ := fun same => by
    simp only [Attributes.uncased, Option.map_some, same]
  refine .node rfl (.cons (.node (named function) (.cons (.node rfl ?_) .nil))
    (.cons (.node rfl ?_) .nil))
  · exact .cons (.node (named parameter) .nil) .nil
  · exact .cons (.node (coded callee) .nil)
      (.cons (.node (named flag) .nil) (.cons (.node rfl .nil) .nil))

theorem lower_ignores_case_called :
    let n := definedAndCalled "f" "q" "F" "-Q:"
    let m := definedAndCalled "F" "Q" "f" "-q:"
    let mine := (Session.start {}).run (EntryPoint.statement.lower {} n)
    let theirs := (Session.start {}).run (EntryPoint.statement.lower {} m)
    let f : Function := .mk {} "f" [{ name := "$q" }] .none
    let a : Argument := .mk (.literal { code := some "1" } (.named "integer") "1" "1") 0 0
    let call : Statement := .expression {} (.call {} "F" [a] (some f))
    n.Recased m ∧ n.ParametersApart {} ∧
      mine.1 = .ok (.statement (.block {} [.definition {} (.function f), call])) ∧
      Fault.InStep (n.Counterparts m) (Part.Recased (n.Counterparts m)) mine.1 theirs.1 ∧
      theirs.2.collector.entries.toList.map Diagnostic.heading =
        mine.2.collector.entries.toList.map Diagnostic.heading := by
  intro n m mine theirs f a call
  have recased : n.Recased m :=
    definedAndCalled_recased (by decide) (by decide) (by decide) (by decide)
  have apart : n.ParametersApart {} := by decide
  exact ⟨recased, apart, rfl,
    lower_ignores_case (rfl : Config.ignoreCase {} = true) (by decide) (by decide) recased apart
      .statement {}⟩

end ScriptIR
