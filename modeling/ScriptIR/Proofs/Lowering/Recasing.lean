import Mathlib.Data.List.Nodup
import ScriptIR.Proofs.Lowering.InStep

/-!
# The steps of lowering, regardless of case

Related nodes are lowered in step if their children are, whatever their kind. Names of theirs that
differ in the case of letters have the same key, also with sigil and marker put on and taken off, so
that flags find the same parameters and callees the functions that correspond. Types are read from
texts regardless of case, and fail to be read together.
-/
namespace ScriptIR

open Text (uncased)
open Lower (AllComposed Slot slots slotOf takesNext valueLeaves)

/-! ### Names -/

namespace Lower
variable {cfg : Config}

theorem withSigil_uncased (sigil : Text.Caseless cfg.sigil) (name : String) :
    withSigil cfg (uncased name) = uncased (withSigil cfg name) := by
  unfold withSigil
  rw [Text.isPrefixOf_uncased sigil]
  split
  · rfl
  · rw [Text.uncased_append, Text.uncased_of_caseless sigil]

/-- Marker, colon and sigil stand where they stood. -/
theorem flagName_uncased (sigil : Text.Caseless cfg.sigil) (marker : Text.Caseless cfg.flagMarker)
    (a : Attributes) : flagName cfg a.uncased = uncased (flagName cfg a) := by
  have colon : ∀ cs : List Char, (cs.map Char.toLower).takeWhile (· ≠ ':') =
      (cs.takeWhile (· ≠ ':')).map Char.toLower := by
    intro cs
    have same : (fun c : Char => decide (c ≠ ':')) ∘ Char.toLower = fun c => decide (c ≠ ':') := by
      funext c
      have mark : c.toLower = ':' ↔ c = ':' := Text.toLower_eq_iff (by decide)
      simp [mark]
    rw [List.takeWhile_map, same]
  unfold flagName
  dsimp only
  rw [a.identifier_uncased, Text.isPrefixOf_uncased marker, Text.toList_uncased, ← List.map_drop,
    ← apply_ite (List.map Char.toLower), colon, Text.uncased_append, Text.uncased_of_caseless sigil]
  simp [uncased]

end Lower

namespace Recasing
variable {cfg : Config} {R : Site → Site → Prop} (recasing : Recasing cfg R) {s t : Site}
include recasing

theorem withSigil {name name' : String} (h : uncased name' = uncased name) :
    uncased (Lower.withSigil cfg name') = uncased (Lower.withSigil cfg name) := by
  rw [← Lower.withSigil_uncased recasing.sigil, h, Lower.withSigil_uncased recasing.sigil]

variable (h : R s t)
include h

theorem flagName :
    uncased (Lower.flagName cfg t.attributes) = uncased (Lower.flagName cfg s.attributes) := by
  rw [← Lower.flagName_uncased recasing.sigil recasing.marker, recasing.attributes h,
    Lower.flagName_uncased recasing.sigil recasing.marker]

theorem labels : List.Forall₂ (fun c d : Node => d.label.uncased = c.label.uncased) s.node.children
    t.node.children := by
  rw [← s.map_node_children, ← t.map_node_children, List.forall₂_map_left_iff,
    List.forall₂_map_right_iff]
  exact (recasing.children h).imp fun _ _ => recasing.attributes

/-- The first child of a kind corresponds to the first child of that kind. -/
theorem firstChild (kind : Kind) : Option.Rel (fun c d : Node => d.label.uncased = c.label.uncased)
    (s.node.children.find? (·.label.kind = kind)) (t.node.children.find? (·.label.kind = kind)) :=
  Lower.find?_rel (fun c d same => by
    have kinds : d.label.kind = c.label.kind := (congrArg Attributes.kind same :)
    rw [kinds]) (recasing.labels h)

omit h in
/-- What holds of related nodes if it holds of their children, one by one, holds
of all related nodes. -/
theorem induct {motive : Site → Site → Prop} (step : ∀ s t, R s t →
      List.Forall₂ (fun c d => R c d ∧ motive c d) s.children t.children → motive s t)
    (h : R s t) : motive s t := by
  have each : ∀ (n : Node) (path : Path) (t : Site), R ⟨path, n⟩ t → motive ⟨path, n⟩ t := by
    intro n
    induction n using Tree.induct with
    | node attrs children ih =>
      intro path t related
      have below : ∀ c ∈ (⟨path, ⟨attrs, children⟩⟩ : Site).children, ∀ d, R c d → motive c d := by
        intro c hc
        have child := List.mem_map_of_mem (f := Site.node) hc
        rw [Site.map_node_children] at child
        exact ih c.node child c.path
      have both := (List.forall₂_and_left _ _).mpr ⟨below, recasing.children related⟩
      exact step _ _ related (both.imp fun c d hcd => ⟨hcd.2, hcd.1 d hcd.2⟩)
  exact each s.node s.path t h

/-- Parameters correspond in their order. -/
theorem parameters : List.Forall₂ R s.parameters t.parameters := by
  let Contributed (s t : Site) : Prop :=
    List.Forall₂ R (s.node.parameters s.path) (t.node.parameters t.path)
  have gathered : ∀ {s t : Site}, List.Forall₂ Contributed s.children t.children →
      List.Forall₂ R s.parameters t.parameters := by
    intro s t children
    rw [s.parameters_eq, t.parameters_eq]
    exact List.rel_flatMap children fun _ _ child => child
  have contributed : ∀ {s t : Site}, R s t → Contributed s t :=
    recasing.induct fun s t related children => by
      dsimp only [Contributed]
      rw [s.node_parameters_eq, t.node_parameters_eq, recasing.kind related]
      split
      · exact .cons related .nil
      · split
        · exact gathered (children.imp fun _ _ child => child.2)
        · exact .nil
  exact gathered ((recasing.children h).imp fun _ _ => contributed)

end Recasing

namespace Lower
open Session
variable {cfg : Config} {R : Site → Site → Prop} (recasing : Recasing cfg R) {site other : Site}
variable (hsite : R site other)
include recasing hsite

/-! ### Types and parameters -/

theorem typeOfText_inStep {text text' : Option String}
    (same : text'.map uncased = text.map uncased) :
    InStep cfg R (fun t t' => t'.uncased = t.uncased) (typeOfText text (some site))
      (typeOfText text' (some other)) := by
  cases text with
  | none =>
    obtain rfl : text' = none := by simpa using same
    exact .pure rfl
  | some literal =>
    obtain ⟨literal', rfl, letters⟩ := Option.map_eq_some_iff.mp same
    have blank : Text.trim literal' = "" ↔ Text.trim literal = "" := by
      rw [← Text.uncased_eq_empty_iff, ← Text.trim_uncased, letters, Text.trim_uncased,
        Text.uncased_eq_empty_iff]
    have parsed := TypeLiteral.parse_of_uncased_eq letters
    simp only [typeOfText, blank]
    split
    · exact .pure rfl
    · cases mine : TypeLiteral.parse literal with
      | ok type =>
        cases theirs : TypeLiteral.parse literal' with
        | ok type' =>
          rw [mine, theirs] at parsed
          exact .pure (Option.some.inj parsed)
        | error e =>
          rw [mine, theirs] at parsed
          cases parsed
      | error e =>
        cases theirs : TypeLiteral.parse literal' with
        | ok type' =>
          rw [mine, theirs] at parsed
          cases parsed
        | error e' => exact (InStep.report recasing hsite).bind fun _ _ _ => .pure rfl

theorem typeOfNode_inStep :
    InStep cfg R (fun t t' => t'.uncased = t.uncased) (typeOfNode site) (typeOfNode other) := by
  have identifiers := recasing.firstChild hsite .identifier
  unfold typeOfNode
  rw [recasing.kind hsite]
  split
  · generalize site.node.children.find? (·.label.kind = .identifier) = mine at identifiers ⊢
    generalize other.node.children.find? (·.label.kind = .identifier) = theirs at identifiers ⊢
    cases identifiers with
    | none => exact (InStep.report recasing hsite).bind fun _ _ _ => .pure rfl
    | some same =>
      refine typeOfText_inStep recasing hsite ?_
      rw [Option.map_some, Option.map_some, ← Attributes.identifier_uncased, same,
        Attributes.identifier_uncased]
  · exact .pure rfl

theorem parameter_inStep (index : Int) :
    InStep cfg R (Parameter.Recased R) (parameter cfg site index) (parameter cfg other index) := by
  have named := recasing.firstChild hsite .variableExpression
  unfold parameter
  dsimp only
  rw [recasing.typeText hsite]
  generalize site.node.children.find? (·.label.kind = .variableExpression) = mine at named ⊢
  generalize other.node.children.find? (·.label.kind = .variableExpression) = theirs at named ⊢
  cases named with
  | none =>
    have name := recasing.withSigil (recasing.identifier hsite)
    exact (typeOfText_inStep recasing hsite rfl).bind fun _ _ type =>
      .pure (.mk index hsite name type)
  | @some v w same =>
    have typeText : w.label.typeText = v.label.typeText := (congrArg Attributes.typeText same :)
    have identifier : uncased w.label.identifier = uncased v.label.identifier := by
      rw [← Attributes.identifier_uncased, same, Attributes.identifier_uncased]
    have name := recasing.withSigil identifier
    dsimp only [Option.bind_some]
    rw [typeText]
    exact (typeOfText_inStep recasing hsite rfl).bind fun _ _ type =>
      .pure (.mk index hsite name type)

omit recasing hsite in
/-- Parameters with different keys make up the indices as they are. -/
theorem parameterIndices_of_apart {f : Function} (apart : f.ParametersApart cfg)
    (others : List Function) :
    parameterIndices cfg (f :: others) = f.parameters.map fun p => (cfg.key p.name, p.index) := by
  have nodup : ((f.parameters.map fun p => (cfg.key p.name, p.index)).map Prod.fst).Nodup := by
    rw [List.map_map]
    exact apart
  have names : ((f.parameters.map fun p => (p.name, p.index)).map Prod.fst).Nodup := by
    rw [List.map_map] at nodup ⊢
    refine List.Nodup.of_map cfg.key ?_
    rwa [List.map_map]
  have positions : f.positions = f.parameters.map fun p => (p.name, p.index) :=
    Dictionary.ofEntries_of_nodup names
  dsimp only [parameterIndices]
  rw [positions, List.map_map]
  exact Dictionary.ofEntries_of_nodup nodup

omit hsite in
/-- Functions that correspond have their parameters under the same keys. -/
theorem parameterIndices_inStep {candidates candidates' : List Function}
    (h : List.Forall₂ (Function.InStep cfg R) candidates candidates') :
    parameterIndices cfg candidates' = parameterIndices cfg candidates := by
  cases h with
  | nil => rfl
  | @cons f g _ _ first _ =>
    have same : (g.parameters.map fun p => (cfg.key p.name, p.index)) =
        f.parameters.map fun p => (cfg.key p.name, p.index) := by
      have parameters := first.recased.parameters
      rw [← List.forall₂_eq_eq_eq, List.forall₂_map_left_iff, List.forall₂_map_right_iff]
      refine parameters.flip.imp fun q p recased => ?_
      cases recased with
      | mk index _ name _ => rw [recasing.key name]
    have apart : g.ParametersApart cfg := by
      have keys := congrArg (List.map Prod.fst) same
      rw [List.map_map, List.map_map] at keys
      have names : (g.parameters.map fun p => cfg.key p.name) = f.parameters.map fun p =>
          cfg.key p.name :=
        keys
      unfold Function.ParametersApart
      rw [names]
      exact first.apart
    rw [parameterIndices_of_apart apart, parameterIndices_of_apart first.apart, same]

/-- A flag in any case names the same parameter, or none. -/
theorem flagIndex_inStep {callee callee' : String} {candidates candidates' : List Function}
    (h : List.Forall₂ (Function.InStep cfg R) candidates candidates') (number : Nat) :
    InStep cfg R (fun i j => j = i) (flagIndex cfg callee candidates site number)
      (flagIndex cfg callee' candidates' other number) := by
  unfold flagIndex
  dsimp only
  rw [parameterIndices_inStep recasing h, recasing.key (recasing.flagName hsite),
    isEmpty_of_forall₂ h]
  split
  · exact .pure rfl
  · split
    · exact .pure rfl
    · exact (InStep.report recasing hsite).bind fun _ _ _ => .pure rfl

end Lower

/-! ### Readings -/

section
variable (cfg : Config) (R : Site → Site → Prop)

/-- Two readings of related nodes, whose actions keep step. -/
structure Reading.InStep (r q : Reading) : Prop where
  site : R r.site q.site
  kind : q.kind = r.kind
  expression : Lower.InStep cfg R (Expression.Recased R) r.expression q.expression
  statement : Lower.InStep cfg R (Statement.Recased R) r.statement q.statement

/-- Two trees of the same shape whose readings keep step. -/
abbrev Lower.TreesInStep : Tree Reading → Tree Reading → Prop :=
  Tree.Rel (Reading.InStep cfg R)

/-- Two slots with related flags, the same number, and values that keep step. -/
inductive Lower.Slot.InStep : Slot → Slot → Prop
  | flag {site other : Site} {value value' : Lower Expression} (number : Nat) : R site other →
      Lower.InStep cfg R (Expression.Recased R) value value' →
      Slot.InStep (.flag site value number) (.flag other value' number)
  | block {value value' : Lower Expression} (number : Nat) :
      Lower.InStep cfg R (Expression.Recased R) value value' →
      Slot.InStep (.block value number) (.block value' number)
  | group {values values' : List (Lower Expression)} :
      List.Forall₂ (Lower.InStep cfg R (Expression.Recased R)) values values' →
      Slot.InStep (.group values) (.group values')

end

namespace Lower
variable {cfg : Config} {R : Site → Site → Prop}

section
variable {t u : Tree Reading} {children others : List (Tree Reading)}

theorem filter_kind_inStep (p : Kind → Bool)
    (h : List.Forall₂ (TreesInStep cfg R) children others) :
    List.Forall₂ (TreesInStep cfg R) (children.filter fun t => p t.label.kind)
      (others.filter fun t => p t.label.kind) :=
  filter_kind_rel (fun _ _ related => related.label.kind) p h

theorem valueLeaves_inStep (h : TreesInStep cfg R t u) :
    List.Forall₂ (InStep cfg R (Expression.Recased R)) (valueLeaves t) (valueLeaves u) := by
  unfold valueLeaves
  rw [List.forall₂_map_left_iff, List.forall₂_map_right_iff]
  exact (filter_kind_inStep (!·.isGrouping) h.leaves).imp fun _ _ leaf => leaf.label.expression

theorem slotOf_inStep (number : Nat) (h : TreesInStep cfg R t u) :
    Slot.InStep cfg R (slotOf number t) (slotOf number u) := by
  unfold slotOf
  rw [h.label.kind]
  split
  · have children := h.children
    generalize t.children = values at children ⊢
    generalize u.children = values' at children ⊢
    cases children with
    | nil => exact .flag _ h.label.site h.label.expression
    | cons first _ => exact .flag _ h.label.site first.label.expression
  · exact .block _ h.label.expression
  · exact .group (valueLeaves_inStep h)

theorem takesNext_inStep {next next' : Tree Reading} (h : TreesInStep cfg R t u)
    (hnext : TreesInStep cfg R next next') : takesNext u next' = takesNext t next := by
  rw [takesNext, h.label.kind, hnext.label.kind, isEmpty_of_forall₂ h.children, takesNext]

theorem slots_inStep (i : Nat) (h : List.Forall₂ (TreesInStep cfg R) children others) :
    List.Forall₂ (Slot.InStep cfg R) (slots i children) (slots i others) := by
  fun_induction slots i children generalizing others with
  | case1 =>
    cases h
    exact .nil
  | case2 i item =>
    obtain _ | ⟨hitem, _ | _⟩ := h
    exact .cons (slotOf_inStep i hitem) .nil
  | case3 i item next rest takes ih =>
    obtain _ | ⟨hitem, _ | ⟨hnext, hrest⟩⟩ := h
    rw [slots, takesNext_inStep hitem hnext, if_pos takes]
    exact .cons (.flag i hitem.label.site hnext.label.expression) (ih hrest)
  | case4 i item next rest stays ih =>
    obtain _ | ⟨hitem, _ | ⟨hnext, hrest⟩⟩ := h
    rw [slots, takesNext_inStep hitem hnext, if_neg stays]
    exact .cons (slotOf_inStep i hitem) (ih (.cons hnext hrest))

end

/-! ### Arguments -/

section
variable (recasing : Recasing cfg R) {callee callee' : String}
    {candidates candidates' : List Function}
variable (functions : List.Forall₂ (Function.InStep cfg R) candidates candidates')
include recasing functions

theorem lowerSlot_inStep {slot other : Slot} (h : Slot.InStep cfg R slot other) :
    InStep cfg R (List.Forall₂ fun a b => a.1.Recased R b.1 ∧ b.2 = a.2)
      (lowerSlot cfg callee candidates slot) (lowerSlot cfg callee' candidates' other) := by
  cases h with
  | flag number hsite lowered =>
    exact (flagIndex_inStep recasing hsite functions number).bind fun _ _ index =>
      lowered.bind fun _ _ recased => .pure (.cons ⟨recased, index⟩ .nil)
  | block number lowered => exact lowered.bind fun _ _ recased => .pure (.cons ⟨recased, rfl⟩ .nil)
  | group lowered =>
    exact (InStep.mapM lowered).bind fun _ _ recased =>
      .pure (forall₂_mapIdx recased fun _ _ _ each => ⟨each, rfl⟩)

theorem bindArguments_inStep {items others : List (Tree Reading)}
    (h : List.Forall₂ (TreesInStep cfg R) items others) :
    InStep cfg R (List.Forall₂ (Argument.Recased R)) (bindArguments cfg callee candidates items)
      (bindArguments cfg callee' candidates' others) := by
  rw [bindArguments_eq, bindArguments_eq]
  have slots := slots_inStep 0 h
  refine (InStep.mapM (slots.imp fun _ _ => lowerSlot_inStep recasing functions)).bind
    fun _ _ lowered => .pure (forall₂_mapIdx (List.rel_flatten lowered) fun position a b each => ?_)
  rw [each.2]
  exact .mk a.2 position each.1

end

/-! ### Nodes by kind -/

section
variable {site other : Site} (hsite : R site other) {children others : List (Tree Reading)}
include hsite

theorem compound_inStep {lowered lowered' : Lower Statement}
    (h : InStep cfg R (Statement.Recased R) lowered lowered') :
    InStep cfg R (Expression.Recased R) (compound site lowered) (compound other lowered') :=
  h.bind fun _ _ recased => .pure (.compound hsite recased)

variable (recasing : Recasing cfg R)
include recasing

theorem wrapper_inStep (h : List.Forall₂ (TreesInStep cfg R) children others) :
    InStep cfg R (Expression.Recased R) (wrapper site children) (wrapper other others) := by
  cases h with
  | nil =>
    unfold wrapper
    rw [recasing.tag hsite]
    exact .malformed _ hsite
  | cons first rest =>
    simp only [wrapper, isEmpty_of_forall₂ rest]
    exact .checked (.report recasing hsite) fun _ _ => first.label.expression

theorem binary_inStep (h : List.Forall₂ (TreesInStep cfg R) children others) :
    InStep cfg R (Expression.Recased R) (binary site children) (binary other others) := by
  unfold binary
  rw [recasing.operator hsite, recasing.tag hsite, h.length_eq]
  split
  · match children, others, h with
    | [_, _], [_, _], .cons left (.cons right .nil) =>
      refine left.label.expression.bind fun lhs lhs' hlhs =>
        right.label.expression.bind fun rhs rhs' hrhs => .pure (.binary _ hsite hlhs hrhs ?_)
      rw [← TypeExpr.firstKnown_uncased, hlhs.type, hrhs.type, TypeExpr.firstKnown_uncased]
    | [], [], .nil => exact .malformed _ hsite
    | [_], [_], .cons _ .nil => exact .malformed _ hsite
    | _ :: _ :: _ :: _, _ :: _ :: _ :: _, .cons _ (.cons _ (.cons _ _)) => exact .malformed _ hsite
  · exact .malformed _ hsite

theorem unary_inStep (h : List.Forall₂ (TreesInStep cfg R) children others) :
    InStep cfg R (Expression.Recased R) (unary site children) (unary other others) := by
  unfold unary
  rw [recasing.unaryToken hsite]
  dsimp only
  split
  · cases h with
    | nil => exact .malformed _ hsite
    | cons operand _ =>
      exact operand.label.expression.bind fun _ _ recased => .pure (.unary _ _ hsite recased)
  · exact .malformed _ hsite

theorem reference_inStep :
    InStep cfg R (Expression.Recased R) (reference site) (reference other) := by
  unfold reference
  rw [recasing.typeText hsite]
  exact (typeOfText_inStep recasing hsite rfl).bind fun _ _ type =>
    .pure (.reference hsite (recasing.identifier hsite) type)

theorem literal_inStep :
    InStep cfg R (Expression.Recased R) (literal cfg site) (literal cfg other) := by
  have text := recasing.literalText hsite
  unfold literal
  rw [recasing.kind hsite]
  dsimp only
  split
  · exact .pure (.literal hsite rfl text text)
  · exact (InStep.report recasing hsite).bind fun _ _ _ => .pure (.literal hsite rfl text text)

theorem memberAccess_inStep :
    InStep cfg R (Expression.Recased R) (memberAccess site) (memberAccess other) :=
  (InStep.report recasing hsite).bind fun _ _ _ => .pure (.unknown hsite)

theorem array_inStep (h : List.Forall₂ (TreesInStep cfg R) children others) :
    InStep cfg R (Expression.Recased R) (array site children) (array other others) := by
  have values : List.Forall₂ (InStep cfg R (Expression.Recased R)) (children.flatMap valueLeaves)
      (others.flatMap valueLeaves) :=
    List.rel_flatMap h fun _ _ => valueLeaves_inStep
  have elements := InStep.mapM (f := id) (g := id) values
  unfold array
  rw [recasing.typeText hsite]
  exact (typeOfText_inStep recasing hsite rfl).bind fun _ _ type =>
    elements.bind fun _ _ lowered => .pure (.initializer hsite type lowered)

theorem cast_inStep (h : List.Forall₂ (TreesInStep cfg R) children others) :
    InStep cfg R (Expression.Recased R) (cast site children) (cast other others) := by
  unfold cast
  rw [recasing.typeText hsite]
  match children, others, h with
  | [_, _], [_, _], .cons typeNode (.cons operand .nil) =>
    have finish : ∀ {target target' : TypeExpr}, target'.uncased = target.uncased →
        InStep cfg R (Expression.Recased R) _ _ := fun type =>
      operand.label.expression.bind fun _ _ inner => .pure (.cast hsite type inner)
    dsimp only
    split
    · exact (typeOfText_inStep recasing hsite rfl).bind fun _ _ => finish
    · exact (typeOfNode_inStep recasing typeNode.label.site).bind fun _ _ => finish
  | [], [], .nil => exact .malformed _ hsite
  | [_], [_], .cons _ .nil => exact .malformed _ hsite
  | _ :: _ :: _ :: _, _ :: _ :: _ :: _, .cons _ (.cons _ (.cons _ rest)) =>
    simp only [List.length_cons, rest.length_eq]
    exact .malformed _ hsite

/-- Calls are bound to functions that correspond, or both to none. -/
theorem call_inStep {callee callee' : String} (name : uncased callee' = uncased callee)
    {candidates candidates' : List Function}
    (functions : List.Forall₂ (Function.InStep cfg R) candidates candidates')
    (h : List.Forall₂ (TreesInStep cfg R) children others) :
    InStep cfg R (Expression.Recased R)
      (do
        let arguments ← bindArguments cfg callee candidates children
        pure (.call site.origin callee arguments candidates.head?))
      (do
        let arguments ← bindArguments cfg callee' candidates' others
        pure (.call other.origin callee' arguments candidates'.head?)) := by
  refine (bindArguments_inStep recasing functions h).bind fun _ _ arguments =>
    .pure (.call hsite name arguments ?_)
  cases functions with
  | nil => exact .none
  | cons found _ => exact .some found.recased

theorem command_inStep (h : List.Forall₂ (TreesInStep cfg R) children others) :
    InStep cfg R (Expression.Recased R) (command cfg site children) (command cfg other others) := by
  cases h with
  | nil => exact .malformed _ hsite
  | cons first rest =>
    have named := first.label.site
    have name := recasing.literalText named
    simp only [command, recasing.kind named, recasing.tag named]
    refine .checked (.malformed _ named) fun _ _ => (InStep.resolve recasing name).bind
      fun candidates candidates' functions => ?_
    have call := call_inStep hsite recasing name functions rest
    cases functions with
    | nil => exact (InStep.report recasing hsite).bind fun _ _ _ => call
    | cons _ more =>
      cases more with
      | nil => exact call
      | cons _ _ => exact (InStep.report recasing hsite).bind fun _ _ _ => call

omit hsite in
theorem parameters_inStep {ps qs : List Site} (h : List.Forall₂ R ps qs) :
    InStep cfg R (List.Forall₂ (Parameter.Recased R))
      (ps.zipIdx.mapM fun p => parameter cfg p.1 p.2)
      (qs.zipIdx.mapM fun p => parameter cfg p.1 p.2) := by
  have numbered : ∀ ss : List Site, ss.zipIdx = ss.mapIdx fun i s => (s, i) := fun ss => by
    simp [List.mapIdx_eq_zipIdx_map]
  rw [numbered, numbered]
  exact .mapM (forall₂_mapIdx h fun i p q related => parameter_inStep recasing related i)

end

section
variable {site other : Site} (hsite : R site other) {children others : List (Tree Reading)}
variable {known known' : Site → Prop} (composed : AllComposed cfg known children)
variable (composed' : AllComposed cfg known' others)
variable (h : List.Forall₂ (TreesInStep cfg R) children others)
include hsite composed composed' h

/-- The statements of a block keep step, and so does what is around it. -/
theorem blockOf_inStep :
    InStep cfg R (Statement.Recased R) (blockOf site children) (blockOf other others) := by
  have statements : InStep cfg R (List.Forall₂ (Statement.Recased R))
      (children.mapM (·.label.statement)) (others.mapM (·.label.statement)) :=
    .mapM (h.imp fun _ _ related => related.label.statement)
  exact (statements.inBlock _ _ (.mapM fun _ hchild => (composed.label hchild).statement)
    (.mapM fun _ hchild => (composed'.label hchild).statement)).bind
      fun _ _ lowered => .pure (.block hsite lowered)

theorem block_inStep :
    InStep cfg R (Statement.Recased R) (block site children) (block other others) :=
  blockOf_inStep hsite (composed.subset List.filter_sublist.subset)
    (composed'.subset List.filter_sublist.subset) (filter_kind_inStep (decide <| · ≠ .paramBlock) h)

theorem pipeline_inStep :
    InStep cfg R (Expression.Recased R) (pipeline site children) (pipeline other others) :=
  match children, others, h with
  | [], [], .nil => .malformed _ hsite
  | [_], [_], .cons stage .nil => stage.label.expression
  | _ :: _ :: _, _ :: _ :: _, .cons first (.cons second rest) =>
    compound_inStep hsite (block_inStep hsite composed composed' (.cons first (.cons second rest)))

theorem scriptBlock_inStep :
    InStep cfg R (Expression.Recased R) (scriptBlock site children) (scriptBlock other others) :=
  match children, others, h with
  | [], [], .nil => .malformed _ hsite
  | [_], [_], .cons only .nil => compound_inStep hsite only.label.statement
  | _ :: _ :: _, _ :: _ :: _, .cons first (.cons second rest) =>
    compound_inStep hsite
      (blockOf_inStep hsite composed composed' (.cons first (.cons second rest)))

variable (recasing : Recasing cfg R)
include recasing

/-- The function that is defined can tell its parameters apart, for its node can. -/
theorem function_inStep :
    InStep cfg R (Function.Recased R) (function cfg site children) (function cfg other others) := by
  have names : (nonEmpty? other.attributes.name).map uncased =
      (nonEmpty? site.attributes.name).map uncased := by
    rw [← Text.nonEmpty?_uncased, recasing.name hsite, Text.nonEmpty?_uncased]
  have bodies : Option.Rel (TreesInStep cfg R) (children.find? (·.label.kind = .scriptBlock))
      (others.find? (·.label.kind = .scriptBlock)) :=
    find?_rel (fun _ _ related => by rw [related.label.kind]) h
  unfold function
  dsimp only
  rw [recasing.kind hsite, recasing.tag hsite]
  -- Only a definition has its parameters apart, so its kind is needed behind the check of the kind.
  split
  next defines =>
    generalize nonEmpty? site.attributes.name = name at names ⊢
    generalize nonEmpty? other.attributes.name = name' at names ⊢
    cases name with
    | none =>
      rw [Option.map_none, Option.map_eq_none_iff] at names
      rw [names]
      exact .malformed _ hsite
    | some name =>
      obtain ⟨name', rfl, same⟩ := Option.map_eq_some_iff.mp names
      refine ((parameters_inStep recasing (recasing.parameters hsite)).returning fun s t ps run =>
        parameters_names cfg site run).bind fun ps ps' lowered => ?_
      obtain ⟨parameters, declared⟩ := lowered
      have header : (Function.mk site.origin name ps .none).InStep cfg R
          (.mk other.origin name' ps' .none) := {
        recased := .mk hsite same parameters .none
        apart := by
          have keys := congrArg (List.map cfg.key) declared
          rw [List.map_map, List.map_map] at keys
          exact (congrArg List.Nodup keys).mpr (recasing.apart hsite defines) }
      have lowered := composed.found (·.label.kind = .scriptBlock)
      have lowered' := composed'.found (·.label.kind = .scriptBlock)
      generalize children.find? (·.label.kind = .scriptBlock) = body at bodies lowered ⊢
      generalize others.find? (·.label.kind = .scriptBlock) = body' at bodies lowered' ⊢
      cases bodies with
      | none => exact (InStep.declared header).bind fun _ _ _ => .pure header.recased
      | some related =>
        exact .defining header.recased header.apart (lowered _ rfl).statement
          (lowered' _ rfl).statement related.label.statement
  next =>
    exact InStep.bind (Q := fun _ _ => False) (.malformed _ hsite) fun _ _ never => never.elim

end

end Lower

end ScriptIR
