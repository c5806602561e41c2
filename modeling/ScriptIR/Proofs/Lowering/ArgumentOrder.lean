import ScriptIR.Proofs.Lowering.Arguments
import ScriptIR.Proofs.Lowering.Secured

/-!
# The two orders of arguments

The arguments of a call come in the order in which they were bound, and each has a position and an
index. Positions count the arguments; indices are those of parameters, or numbers of items, or
places in a group, so that they repeat. Sorting by index keeps arguments of one index in the order
of their positions, and sorting by position gives the order back that they came in. For this the
positions have to count from zero, which is shown of every call that can be reached from a lowered
program, also in the bodies of the functions that calls are bound to.
-/
namespace ScriptIR

/-! ### Sorting arguments -/

/-- The positions count the arguments from zero on, and no index is negative. -/
structure Argument.Numbered (arguments : List Argument) : Prop where
  positions : arguments.map Argument.position = List.range arguments.length
  natural : ∀ a ∈ arguments, 0 ≤ a.index

/-- By index, and by position where the indices are the same. -/
def Argument.Before (a b : Argument) : Prop :=
  a.index < b.index ∨ a.index = b.index ∧ a.position < b.position

namespace Argument.Numbered
variable {arguments : List Argument} (h : Numbered arguments)
include h

theorem pairwise : arguments.Pairwise fun a b => a.position < b.position := by
  have ascending : (arguments.map Argument.position).Pairwise (· < ·) :=
    h.positions ▸ List.pairwise_lt_range
  exact List.pairwise_map.mp ascending

/-- In whatever order they stand, no two of them have one position. -/
theorem distinct {others : List Argument} (same : others.Perm arguments) :
    others.Pairwise fun a b => a.position ≠ b.position := by
  have nodup : (others.map Argument.position).Nodup :=
    (same.map _).nodup_iff.mpr (h.positions ▸ List.nodup_range)
  exact List.pairwise_map.mp nodup

end Argument.Numbered

namespace Expression
variable (origin : Origin) (callee : String) (arguments : List Argument)
    (declaration : Option Function)

theorem argumentsByIndex_perm :
    ((call origin callee arguments declaration).argumentsByIndex).Perm arguments :=
  List.mergeSort_perm ..

/-- No argument comes behind one of the same index and a later position. -/
theorem argumentsByIndex_pairwise (h : Argument.Numbered arguments) :
    ((call origin callee arguments declaration).argumentsByIndex).Pairwise Argument.Before := by
  have sorted := @List.pairwise_mergeSort Argument
    (fun a b => a.index < b.index || (a.index == b.index && a.position ≤ b.position))
    (fun a b c => by simp; omega) (fun a b => by simp; omega) arguments
  have distinct := h.distinct (argumentsByIndex_perm origin callee arguments declaration)
  refine (sorted.and distinct).imp fun ⟨le, ne⟩ => ?_
  simp only [Bool.or_eq_true, decide_eq_true_eq, Bool.and_eq_true, beq_iff_eq] at le
  exact le.imp_right fun ⟨same, position⟩ => ⟨same, Nat.lt_of_le_of_ne position ne⟩

/-- Sorting by position gives the arguments back as they came. -/
theorem sort_argumentsByIndex (h : Argument.Numbered arguments) :
    ((call origin callee arguments declaration).argumentsByIndex).mergeSort
      (fun a b => a.position ≤ b.position) = arguments := by
  have sorted := @List.pairwise_mergeSort Argument (fun a b => a.position ≤ b.position)
    (fun a b c => by simp; omega) (fun a b => by simp; omega)
    (call origin callee arguments declaration).argumentsByIndex
  have same := (List.mergeSort_perm (call origin callee arguments declaration).argumentsByIndex
    fun a b : Argument => decide (a.position ≤ b.position)).trans (argumentsByIndex_perm ..)
  have ascending := (sorted.and (h.distinct same)).imp fun {a b} ⟨le, ne⟩ =>
    Nat.lt_of_le_of_ne (decide_eq_true_eq.mp le) ne
  exact same.eq_of_pairwise
    (fun a b _ _ before after => absurd before (Nat.lt_asymm after)) ascending
    h.pairwise

end Expression

/-! ### Numbered parts -/

namespace Part

/-- The parts that a part is put together from directly, and the function that a
call is bound to. -/
def linked : Part → List Part
  | expression (.call origin callee arguments bound) =>
    (expression (.call origin callee arguments bound)).children ++ bound.toList.map function
  | p => p.children

/-- From the first part one gets to the second, into the parts of a part and from a call to the
function that it is bound to. -/
def Reaches : Part → Part → Prop :=
  Relation.ReflTransGen fun p q => q ∈ p.linked

/-- The arguments of a call are numbered, and a parameter has no negative index. -/
def WellCounted : Part → Prop
  | expression (.call _ _ arguments _) => Argument.Numbered arguments
  | parameter p => 0 ≤ p.index
  | _ => True

/-- All calls that the part reaches have numbered arguments. -/
def Numbered (p : Part) : Prop :=
  ∀ q, p.Reaches q → q.WellCounted

theorem numbered_iff {p : Part} : p.Numbered ↔ p.WellCounted ∧ ∀ q ∈ p.linked, q.Numbered :=
  forall_reflTransGen_iff

theorem Numbered.intro {p : Part} (counted : p.WellCounted) (below : ∀ q ∈ p.linked, q.Numbered) :
    p.Numbered :=
  numbered_iff.mpr ⟨counted, below⟩

theorem numbered_unknown (site : Site) : (expression site.unknown).Numbered :=
  .intro trivial (by simp [linked, Site.unknown])

/-- A function is numbered if its parameters are, and its body if it has one. -/
theorem numbered_function {f : Function} : (function f).Numbered ↔
    (∀ p ∈ f.parameters, 0 ≤ p.index) ∧ ∀ body ∈ f.body.statement?, (statement body).Numbered := by
  obtain ⟨origin, name, parameters, body⟩ := f
  have parameter (p : Parameter) : (Part.parameter p).Numbered ↔ 0 ≤ p.index := by
    rw [numbered_iff]
    simp [linked, WellCounted]
  rw [numbered_iff]
  simp [linked, WellCounted, Function.parameters, Function.body, or_imp, forall_and, parameter]

end Part

namespace Lower
open Session

/-- The action ends with numbered parts, as long as the visible functions are numbered. -/
def Numbers {α : Type} (part : α → Part) (m : Lower α) : Prop :=
  Secures (fun f => (Part.function f).Numbered) (fun a => (part a).Numbered) m

end Lower

/-- What a reading ends with is numbered. -/
structure Reading.Numbers (r : Reading) : Prop where
  expression : Lower.Numbers .expression r.expression
  statement : Lower.Numbers .statement r.statement

namespace Lower
open ScriptIR.Part (Numbered numbered_iff numbered_function numbered_unknown)

/-- What the readings of the given trees end with is numbered. -/
def AllNumber (trees : List (Tree Reading)) : Prop :=
  ∀ t ∈ trees, ∀ r ∈ t.labels, r.Numbers

namespace AllNumber
variable {trees others : List (Tree Reading)}

theorem label (h : AllNumber trees) {t : Tree Reading} (ht : t ∈ trees) : t.label.Numbers :=
  h t ht _ t.label_mem_labels

theorem subset (h : AllNumber trees) (sub : others ⊆ trees) : AllNumber others :=
  fun t ht => h t (sub ht)

end AllNumber

/-! ### Parameters and arguments -/

section
variable (cfg : Config) (callee : String) {candidates : List Function}

/-- The indices that a flag can find are those of parameters. -/
theorem declaredIndex?_natural (h : ∀ f ∈ candidates, (Part.function f).Numbered) (name : String) :
    ∀ index ∈ declaredIndex? cfg candidates name, 0 ≤ index := by
  intro index found
  obtain ⟨f, hf, found⟩ := Option.bind_eq_some_iff.mp found
  have entry := Dictionary.mem_of_mem_ofEntries (Dictionary.mem_of_get? found)
  obtain ⟨position, hposition, same⟩ := List.mem_map.mp entry
  obtain ⟨p, hp, rfl⟩ := List.mem_map.mp (Dictionary.mem_of_mem_ofEntries hposition)
  obtain rfl : p.index = index := congrArg Prod.snd same
  exact (numbered_function.mp (h f (List.mem_of_mem_head? hf))).1 p hp

theorem flagIndex_natural {G : Function → Prop} (h : ∀ f ∈ candidates, (Part.function f).Numbered)
    (flag : Site) (number : Nat) :
    Secures G (0 ≤ ·) (flagIndex cfg callee candidates flag number) := by
  unfold flagIndex
  dsimp only
  rw [get?_parameterIndices]
  cases declared : declaredIndex? cfg candidates (flagName cfg flag.attributes) with
  | some index => exact .pure (declaredIndex?_natural cfg h _ index declared)
  | none => exact .checked (.report flag _) fun _ => .pure (Int.natCast_nonneg number)

/-- What is bound as an argument is numbered, and no index is negative. -/
def Bound (share : Expression × Int) : Prop :=
  (Part.expression share.1).Numbered ∧ 0 ≤ share.2

theorem lowerSlot_numbers (h : ∀ f ∈ candidates, (Part.function f).Numbered) {slot : Slot}
    (values : ∀ value ∈ slot.values, Numbers .expression value) :
    Secures (fun f => (Part.function f).Numbered) (fun group => ∀ share ∈ group, Bound share)
      (lowerSlot cfg callee candidates slot) := by
  cases slot with
  | flag site value number =>
    have lowered := values value (by simp [Slot.values])
    refine (flagIndex_natural cfg callee h site number).bind fun index natural =>
      lowered.bind fun e numbered => .pure ?_
    exact List.forall_mem_singleton.mpr ⟨numbered, natural⟩
  | block value number =>
    have lowered := values value (by simp [Slot.values])
    refine lowered.bind fun e numbered => .pure ?_
    exact List.forall_mem_singleton.mpr ⟨numbered, Int.natCast_nonneg number⟩
  | group all =>
    refine (Secures.mapM values).bind fun es numbered => .pure fun share hshare => ?_
    obtain ⟨i, hi, rfl⟩ := List.mem_mapIdx.mp hshare
    exact ⟨numbered _ (List.getElem_mem hi), Int.natCast_nonneg i⟩

theorem numbered_mapIdx {bound : List (Expression × Int)} (h : ∀ share ∈ bound, Bound share) :
    Argument.Numbered (bound.mapIdx fun position e => .mk e.1 e.2 position) where
  positions := List.ext_getElem (by simp) fun n _ _ => by simp [Argument.position]
  natural a ha := by
    obtain ⟨i, hi, rfl⟩ := List.mem_mapIdx.mp ha
    exact (h _ (List.getElem_mem hi)).2

theorem bindArguments_numbers (h : ∀ f ∈ candidates, (Part.function f).Numbered)
    {items : List (Tree Reading)} (hitems : AllNumber items) :
    Secures (fun f => (Part.function f).Numbered) (fun arguments => Argument.Numbered arguments ∧
      ∀ a ∈ arguments, (Part.expression a.expression).Numbered)
      (bindArguments cfg callee candidates items) := by
  have each (slot : Slot) (hslot : slot ∈ slots 0 items) :
      Secures (fun f => (Part.function f).Numbered) (fun group => ∀ share ∈ group, Bound share)
        (lowerSlot cfg callee candidates slot) := by
    refine lowerSlot_numbers cfg callee h fun value hvalue => ?_
    obtain ⟨t, ht, r, hr, rfl⟩ := (slots_from 0 items slot hslot).values value hvalue
    exact (hitems t ht r hr).expression
  rw [bindArguments_eq]
  refine (Secures.mapM each).bind fun groups bound => .pure ?_
  have all : ∀ share ∈ groups.flatten, Bound share := by
    intro share hshare
    obtain ⟨group, hgroup, inside⟩ := List.mem_flatten.mp hshare
    exact bound group hgroup share inside
  refine ⟨numbered_mapIdx all, fun a ha => ?_⟩
  obtain ⟨i, hi, rfl⟩ := List.mem_mapIdx.mp ha
  exact (all _ (List.getElem_mem hi)).1

end

/-! ### Nodes by kind -/

theorem unknown_numbers (site : Site) : Numbers .expression (pure site.unknown) :=
  .pure (numbered_unknown site)

section
variable (cfg : Config) {site : Site} {children : List (Tree Reading)}

theorem compound_numbers {statement : Lower Statement} (h : Numbers .statement statement) :
    Numbers .expression (compound site statement) :=
  h.bind fun _ numbered => .pure (.intro trivial (by simpa [Part.linked] using numbered))

theorem reference_numbers : Numbers .expression (reference site) :=
  (Secures.typeOfText _ site).after fun _ => .pure (.intro trivial (by simp [Part.linked]))

theorem literal_numbers : Numbers .expression (literal cfg site) := by
  unfold literal
  dsimp only
  split
  · exact .pure (.intro trivial (by simp [Part.linked]))
  · exact (Secures.report site _).after fun _ => .pure (.intro trivial (by simp [Part.linked]))

theorem memberAccess_numbers : Numbers .expression (memberAccess site) :=
  (Secures.report site _).after fun _ => unknown_numbers site

variable (h : AllNumber children)
include h

theorem wrapper_numbers : Numbers .expression (wrapper site children) := by
  unfold wrapper
  split
  · exact .malformed _ _
  next first rest =>
    exact .checked (.report site _) fun _ => (h.label (t := first) List.mem_cons_self).expression

theorem binary_numbers : Numbers .expression (binary site children) := by
  unfold binary
  split
  · split
    next left right =>
      refine (h.label (t := left) (by simp)).expression.bind fun l hl =>
        (h.label (t := right) (by simp)).expression.bind fun r hr => .pure (.intro trivial ?_)
      simpa [Part.linked] using ⟨hl, hr⟩
    · exact .malformed _ _
  · exact .malformed _ _

theorem unary_numbers : Numbers .expression (unary site children) := by
  unfold unary
  dsimp only
  split
  · split
    · exact .malformed _ _
    next operand rest =>
      exact (h.label (t := operand) List.mem_cons_self).expression.bind fun _ numbered =>
        .pure (.intro trivial (by simpa [Part.linked] using numbered))
  · exact .malformed _ _

theorem array_numbers : Numbers .expression (array site children) := by
  have leaves : ∀ value ∈ children.flatMap valueLeaves, Numbers .expression value := by
    intro value hvalue
    obtain ⟨item, hitem, hleaf⟩ := List.mem_flatMap.mp hvalue
    obtain ⟨r, hr, rfl⟩ := mem_labels_of_mem_valueLeaves hleaf
    exact (h item hitem r hr).expression
  refine (Secures.typeOfText _ site).after fun type =>
    (Secures.mapM leaves).bind fun es numbered => ?_
  exact .pure (.intro trivial (by simpa [Part.linked] using numbered))

theorem cast_numbers : Numbers .expression (cast site children) := by
  unfold cast
  split
  next typeNode operand =>
    have finish (target : TypeExpr) : Numbers .expression (do
        let inner ← operand.label.expression
        pure (Expression.cast site.origin target inner)) :=
      (h.label (t := operand) (by simp)).expression.bind fun _ numbered =>
        .pure (.intro trivial (by simpa [Part.linked] using numbered))
    dsimp only
    split
    · exact (Secures.typeOfText _ site).after finish
    · exact (Secures.typeOfNode typeNode.label.site).after finish
  · exact .malformed _ _

theorem command_numbers : Numbers .expression (command cfg site children) := by
  unfold command
  split
  · exact .malformed _ _
  next callee items =>
    have call (name : String) (candidates : List Function)
        (hcandidates : ∀ f ∈ candidates, (Part.function f).Numbered) : Numbers .expression (do
          let arguments ← bindArguments cfg name candidates items
          pure (Expression.call site.origin name arguments candidates.head?)) := by
      have bound := bindArguments_numbers cfg name hcandidates
        (h.subset (List.subset_cons_self callee items))
      refine bound.bind fun arguments numbered => .pure (.intro numbered.1 ?_)
      simp only [Part.linked, Part.children, List.forall_mem_append, List.forall_mem_map]
      exact ⟨numbered.2, fun f hf => hcandidates f (List.mem_of_mem_head? (by simpa using hf))⟩
    refine Secures.checked (.malformed _ _) fun _ =>
      (Secures.resolve cfg site _).bind fun candidates numbered => ?_
    split
    · exact (Secures.report site _).after fun _ => call _ _ numbered
    · exact call _ _ numbered
    · exact (Secures.report site _).after fun _ => call _ _ numbered

variable {known : Site → Prop} (composed : AllComposed cfg known children)
include composed

variable {cfg} in
theorem blockOf_numbers : Numbers .statement (blockOf site children) := by
  have each (child : Tree Reading) (hchild : child ∈ children) :
      Numbers .statement child.label.statement := (h.label hchild).statement
  have inside : Composed cfg known (children.mapM (·.label.statement)) :=
    .mapM fun _ hchild => (composed.label hchild).statement
  refine ((Secures.mapM each).inBlock inside).bind fun statements numbered => .pure ?_
  exact .intro trivial (by simpa [Part.linked] using numbered)

variable {cfg} in
theorem block_numbers : Numbers .statement (block site children) :=
  blockOf_numbers (h.subset List.filter_sublist.subset) (composed.subset List.filter_sublist.subset)

variable {cfg} in
theorem pipeline_numbers : Numbers .expression (pipeline site children) := by
  unfold pipeline
  split
  · exact .malformed _ _
  · exact (h.label List.mem_cons_self).expression
  · exact compound_numbers (block_numbers h composed)

variable {cfg} in
theorem scriptBlock_numbers : Numbers .expression (scriptBlock site children) := by
  unfold scriptBlock
  split
  · exact .malformed _ _
  · exact compound_numbers (h.label List.mem_cons_self).statement
  · exact compound_numbers (blockOf_numbers h composed)

/-- Parameters are counted from zero. -/
theorem function_numbers : Numbers .function (function cfg site children) := by
  unfold function
  refine Secures.checked (.malformed _ _) fun _ => ?_
  split
  next name _ =>
    have counted (p : Site × Nat) (_ : p ∈ site.parameters.zipIdx) :
        Secures (fun f => (Part.function f).Numbered) (fun p => 0 ≤ p.index)
          (parameter cfg p.1 (p.2 : Nat)) :=
      (Secures.typeOfText _ p.1).after fun _ => .pure (Int.natCast_nonneg p.2)
    refine (Secures.mapM counted).bind fun ps natural => ?_
    have header : (Part.function (.mk site.origin name ps .none)).Numbered :=
      numbered_function.mpr ⟨natural, by simp [Function.body]⟩
    have opened : (Part.function (.mk site.origin name ps .unfinished)).Numbered :=
      numbered_function.mpr ⟨natural, by simp [Function.body]⟩
    cases hbody : children.find? (·.label.kind = .scriptBlock) with
    | none => exact (Secures.declared header).after fun _ => .pure header
    | some body =>
      have hmem := List.mem_of_find?_eq_some hbody
      have lowered := (h.label hmem).statement
      refine .defining (composed.label hmem).statement opened header lowered
        fun lowered numbered => ?_
      refine numbered_function.mpr ⟨natural, ?_⟩
      simpa [Function.withBody, Function.body] using numbered
  · exact .malformed _ _

theorem definition_numbers : Numbers .expression (definition cfg site children) :=
  (function_numbers cfg h composed).bind fun _ numbered =>
    .pure (.intro trivial (by simpa [Part.linked] using numbered))

theorem expressionOf?_numbers {kind : Kind} {lowered : Lower Expression}
    (handler : expressionOf? cfg site children kind = some lowered) :
      Numbers .expression lowered := by
  unfold expressionOf? at handler
  split at handler
  all_goals cases handler
  all_goals with_reducible first
    | exact wrapper_numbers h
    | exact pipeline_numbers h composed
    | exact scriptBlock_numbers h composed
    | exact command_numbers cfg h
    | exact reference_numbers
    | exact compound_numbers (block_numbers h composed)
    | exact binary_numbers h
    | exact unary_numbers h
    | exact literal_numbers cfg
    | exact definition_numbers cfg h composed
    | exact array_numbers h
    | exact cast_numbers h
    | exact memberAccess_numbers

theorem expression_numbers : Numbers .expression (expression cfg site children) := by
  refine Secures.after (Q := fun _ => True) ?_ fun _ => ?_
  · exact .of_returns (fun _ => rfl) fun _ _ _ _ => trivial
  cases handler : expressionOf? cfg site children site.attributes.kind with
  | none => exact (Secures.report site _).after fun _ => unknown_numbers site
  | some lowered =>
    exact (expressionOf?_numbers cfg h composed handler).orUnknown (numbered_unknown site)

theorem statement_numbers : Numbers .statement (statement cfg site children) := by
  unfold statement
  split
  · exact block_numbers h composed
  · split
    · exact (function_numbers cfg h composed).bind fun _ numbered =>
        .pure (.intro trivial (by simpa [Part.linked] using numbered))
    · exact (expression_numbers cfg h composed).bind fun _ numbered =>
        .pure (.intro trivial (by simpa [Part.linked] using numbered))

end

end Lower

/-! ### Trees -/

theorem Node.readings_number (cfg : Config) (n : Node) (path : Path) :
    ∀ r ∈ (n.readings cfg path).labels, r.Numbers := by
  refine n.readings_induct cfg path fun s _ below => ?_
  have composed := s.below_composed cfg
  rw [s.reading_eq]
  exact ⟨Lower.expression_numbers cfg below composed, Lower.statement_numbers cfg below composed⟩

theorem EntryPoint.lower_numbers (entry : EntryPoint) (cfg : Config) (n : Node) :
    Lower.Numbers id (entry.lower cfg n) := by
  have root := n.readings_number cfg [] _ (Tree.label_mem_labels _)
  cases entry with
  | expression => exact root.expression.bind fun _ numbered => .pure numbered
  | statement => exact root.statement.bind fun _ numbered => .pure numbered
  | script =>
    have script : Lower.Numbers .statement (lowerScript cfg n) := by
      refine root.statement.bind fun lowered numbered => ?_
      cases lowered with
      | block _ _ => exact .pure numbered
      | expression _ _ | definition _ _ =>
        exact .pure (.intro trivial (by simpa [Part.linked] using numbered))
    exact script.bind fun _ numbered => .pure numbered

/-- Every call that can be reached from what is lowered, also in the bodies of the functions that
calls are bound to, has arguments whose positions count from zero and whose indices are not
negative. So sorting them by index gives each of them once, in the order of the indices and, of one
index, in the order in which they were bound; and sorting that by position gives back the list. This
goes for lowering from any session in which the visible functions are of that sort, as they are at
the start and stay however the lowering ends. -/
theorem lower_argument_orders (entry : EntryPoint) (cfg : Config) (n : Node) :
    (∀ collector, (Session.start collector).Sees fun f => (Part.function f).Numbered) ∧
    ∀ s : Session, s.Sees (fun f => (Part.function f).Numbered) →
      let ended := s.run (entry.lower cfg n)
      ended.2.Sees (fun f => (Part.function f).Numbered) ∧
      ∀ part, ended.1 = .ok part → ∀ origin callee arguments declaration,
        let call := Expression.call origin callee arguments declaration
        part.Reaches (.expression call) →
        arguments.map Argument.position = List.range arguments.length ∧
        (∀ a ∈ arguments, 0 ≤ a.index) ∧
        call.argumentsByIndex.Perm arguments ∧
        call.argumentsByIndex.Pairwise Argument.Before ∧
        call.argumentsByIndex.mergeSort (fun a b => a.position ≤ b.position) = arguments := by
  refine ⟨Session.sees_start, fun s sees => ?_⟩
  obtain ⟨after, value⟩ := entry.lower_numbers cfg n s sees
  refine ⟨after, fun part ok origin callee arguments declaration reached => ?_⟩
  have numbered : Argument.Numbered arguments := value part ok _ reached
  exact ⟨numbered.positions, numbered.natural, Expression.argumentsByIndex_perm ..,
    Expression.argumentsByIndex_pairwise _ _ _ _ numbered,
    Expression.sort_argumentsByIndex _ _ _ _ numbered⟩

/-- Two flags of an unknown command take items for their values, and a list behind them is
counted from zero again. -/
theorem lower_argument_orders_mixed :
    let leaf (kind : Kind) (text : String) : Node :=
      ⟨{ kind := kind, tag := "", code := some text }, []⟩
    let n : Node := .bare .command [leaf .stringConstantExpression "f",
      leaf .commandParameter "-x", leaf .constantExpression "1",
      leaf .commandParameter "-x", leaf .constantExpression "2",
      .bare .arrayLiteral [leaf .variableExpression "$a", leaf .variableExpression "$b"]]
    ∃ origin arguments,
      let call := Expression.call origin "f" arguments none
      ((Session.start {}).run (EntryPoint.expression.lower {} n)).1 = .ok (.expression call) ∧
      arguments.map Argument.index = [0, 2, 0, 1] ∧
      call.argumentsByIndex.mergeSort (fun a b => a.position ≤ b.position) = arguments := by
  intro leaf n
  have run : ∃ origin arguments, ((Session.start {}).run (EntryPoint.expression.lower {} n)).1 =
      .ok (.expression (.call origin "f" arguments none)) ∧
      arguments.map Argument.index = [0, 2, 0, 1] := ⟨_, _, rfl, rfl⟩
  obtain ⟨origin, arguments, run, indices⟩ := run
  obtain ⟨start, orders⟩ := lower_argument_orders .expression {} n
  obtain ⟨-, calls⟩ := orders (Session.start {}) (start {})
  obtain ⟨-, -, -, -, back⟩ := calls _ run origin "f" arguments none .refl
  exact ⟨origin, arguments, run, indices, back⟩

end ScriptIR
