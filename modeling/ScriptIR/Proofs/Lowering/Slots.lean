import ScriptIR.Lowering.Binding

/-!
# What items amount to

Binding goes through the items one by one and remembers which of them a flag has taken. What the
items amount to can be told beforehand: a slot is a flag with its value, a block, or the leaves of a
group. `bindArguments_eq` says that the arguments are those of the slots, one slot after the other.
-/
namespace ScriptIR.Lower

/-- What one or two neighbouring items amount to, with the number of the first. -/
inductive Slot where
  | flag (site : Site) (value : Lower Expression) (number : Nat)
  | block (value : Lower Expression) (number : Nat)
  | group (values : List (Lower Expression))

/-- The slot of an item that takes no value from the next one. -/
def slotOf (number : Nat) (item : Tree Reading) : Slot :=
  match item.label.kind with
  | .commandParameter =>
    match item.children with
    | value :: _ => .flag item.label.site value.label.expression number
    | [] => .flag item.label.site item.label.expression number
  | .scriptBlockExpression => .block item.label.expression number
  | _ => .group (valueLeaves item)

/-- Whether an item is a flag whose value is the next item. -/
def takesNext (item next : Tree Reading) : Bool :=
  item.label.kind = .commandParameter && item.children.isEmpty &&
    next.label.kind != .commandParameter

/-- The slots of the items from number `i` on. -/
def slots : (i : Nat) → List (Tree Reading) → List Slot
  | _, [] => []
  | i, [item] => [slotOf i item]
  | i, item :: next :: rest =>
    if takesNext item next then
      .flag item.label.site next.label.expression i :: slots (i + 2) rest
    else slotOf i item :: slots (i + 1) (next :: rest)

/-- The values of a slot with the indices that they are bound to. -/
def lowerSlot (cfg : Config) (callee : String) (candidates : List Function) :
    Slot → Lower (List (Expression × Int))
  | .flag site value number => do
    let index ← flagIndex cfg callee candidates site number
    let expression ← value
    pure [(expression, index)]
  | .block value number => do
    let expression ← value
    pure [(expression, number)]
  | .group values => do
    let expressions ← values.mapM id
    pure (expressions.mapIdx fun i e => (e, (i : Int)))

/-! ### Arguments with positions -/

/-- With more arguments, in the next positions. -/
def Binding.extend (b : Binding) (shares : List (Expression × Int)) : Binding :=
  { b with
    arguments := b.arguments ++
      shares.mapIdx fun k e => .mk e.1 e.2 (b.arguments.length + k) }

namespace Binding
variable (b : Binding)

theorem extend_nil : b.extend [] = b := by
  simp [extend]

theorem extend_append (shares others : List (Expression × Int)) :
    b.extend (shares ++ others) = (b.extend shares).extend others := by
  have positions : ∀ k, b.arguments.length + shares.length + k =
      b.arguments.length + (k + shares.length) := by omega
  simp [extend, List.mapIdx_append, positions]

theorem extend_singleton (e : Expression) (index : Int) :
    b.extend [(e, index)] = b.add e index := by
  simp [extend, add]

end Binding

/-! ### Single items -/

theorem foldlM_bindLeaf (b : Binding) (k : Nat) (values : List (Lower Expression)) :
    (values.zipIdx k).foldlM bindLeaf b = (do
      let es ← values.mapM id
      pure (b.extend (es.mapIdx fun i e => (e, ((k + i : Nat) : Int))))) := by
  induction values generalizing b k with
  | nil => simp [Binding.extend_nil]
  | cons value rest ih =>
    have shifted : ∀ i, k + 1 + i = k + (i + 1) := by omega
    simp only [List.zipIdx_cons, List.foldlM_cons, bindLeaf, bind_assoc, pure_bind, ih,
      List.mapM_cons, id, List.mapIdx_cons, Nat.add_zero, shifted]
    simp only [← Binding.extend_singleton, ← Binding.extend_append, List.singleton_append]

section
variable (cfg : Config) (callee : String) (candidates : List Function)
variable {items rest : List (Tree Reading)} {item : Tree Reading} (b : Binding) (i : Nat)

theorem bindGroup_eq : bindGroup b item = (do
    let group ← lowerSlot cfg callee candidates (.group (valueLeaves item))
    pure (b.extend group)) := by
  rw [bindGroup, foldlM_bindLeaf]
  simp [lowerSlot]

/-- A flag that takes the next item. -/
theorem bindItem_taking {next : Tree Reading} (here : items.drop i = item :: next :: rest)
    (free : i ∉ b.consumed) (takes : takesNext item next = true) :
    bindItem cfg callee candidates items b (item, i) = (do
      let group ← lowerSlot cfg callee candidates (.flag item.label.site next.label.expression i)
      pure ({ b with consumed := (i + 1) :: b.consumed }.extend group)) := by
  have behind : items[i + 1]? = some next := by
    rw [← List.getElem?_drop, here]
    rfl
  simp only [takesNext, Bool.and_eq_true, decide_eq_true_eq, List.isEmpty_iff, bne_iff_ne] at takes
  obtain ⟨⟨flag, bare⟩, value⟩ := takes
  have found : valueBehind? items i = some next := by
    simp [valueBehind?, behind, value]
  simp [bindItem, free, flag, bindNamed, bare, found, lowerSlot, Binding.extend_singleton]

/-- An item that takes nothing from the next one. -/
theorem bindItem_alone (here : items.drop i = item :: rest) (free : i ∉ b.consumed)
    (stays : ∀ next ∈ rest.head?, takesNext item next = false) :
    bindItem cfg callee candidates items b (item, i) = (do
      let group ← lowerSlot cfg callee candidates (slotOf i item)
      pure (b.extend group)) := by
  have behind : items[i + 1]? = rest.head? := by
    rw [← List.getElem?_drop, here, List.getElem?_cons_succ, List.head?_eq_getElem?]
  unfold slotOf
  split
  next flag =>
    cases children : item.children with
    | cons value others =>
      simp [bindItem, free, flag, bindNamed, children, lowerSlot, Binding.extend_singleton]
    | nil =>
      have none : valueBehind? items i = none := by
        rw [valueBehind?, behind, Option.filter_eq_none_iff]
        intro next hnext
        simpa [takesNext, flag, children] using stays next hnext
      simp [bindItem, free, flag, bindNamed, children, none, lowerSlot, Binding.extend_singleton]
  next block => simp [bindItem, free, block, lowerSlot, Binding.extend_singleton]
  next noFlag noBlock =>
    rw [← bindGroup_eq]
    simp [bindItem, free]

end

/-! ### All items -/

/-- From an item on that no flag has taken, the arguments of the slots come behind those so far. -/
theorem foldlM_bindItem (cfg : Config) (callee : String) (candidates : List Function)
    {items : List (Tree Reading)} (i : Nat) (rest : List (Tree Reading)) (b : Binding)
    (here : items.drop i = rest) (free : ∀ j, i ≤ j → j ∉ b.consumed) :
    (do
      let bound ← (rest.zipIdx i).foldlM (bindItem cfg callee candidates items) b
      pure bound.arguments) = (do
      let groups ← (slots i rest).mapM (lowerSlot cfg callee candidates)
      pure (b.extend groups.flatten).arguments) := by
  fun_induction slots i rest generalizing b with
  | case1 i => simp [Binding.extend_nil]
  | case2 i item =>
    rw [List.zipIdx_cons, List.foldlM_cons,
      bindItem_alone cfg callee candidates b i here (free i (by omega)) (by simp)]
    simp
  | case3 i item next rest takes ih =>
    have later : items.drop (i + 2) = rest := by
      rw [← List.drop_drop, here]
      rfl
    have passed (b : Binding) (h : i + 1 ∈ b.consumed) :
        bindItem cfg callee candidates items b (next, i + 1) = pure b := by
      simp [bindItem, h]
    simp only [List.zipIdx_cons, List.foldlM_cons, bind_assoc, pure_bind, List.mapM_cons,
      bindItem_taking cfg callee candidates b i here (free i (by omega)) takes]
    refine bind_congr fun group => ?_
    rw [passed _ (by simp [Binding.extend]), pure_bind, ih _ later ?free]
    case free =>
      intro j hj
      simp only [Binding.extend, List.mem_cons, not_or]
      exact ⟨by omega, free j (by omega)⟩
    simp only [List.flatten_cons, Binding.extend_append]
    rfl
  | case4 i item next rest stays ih =>
    have later : items.drop (i + 1) = next :: rest := by
      rw [← List.drop_drop, here]
      rfl
    rw [List.zipIdx_cons, List.foldlM_cons,
      bindItem_alone cfg callee candidates b i here (free i (by omega)) (by simpa using stays)]
    simp only [bind_assoc, pure_bind, List.mapM_cons]
    refine bind_congr fun group => ?_
    rw [ih (b.extend group) later fun j hj => free j (by omega)]
    simp only [List.flatten_cons, Binding.extend_append]

/-- The arguments are those of the slots, in their order and with positions from zero on. -/
theorem bindArguments_eq (cfg : Config) (callee : String) (candidates : List Function)
    (items : List (Tree Reading)) :
    bindArguments cfg callee candidates items = (do
      let groups ← (slots 0 items).mapM (lowerSlot cfg callee candidates)
      pure (groups.flatten.mapIdx fun position e => .mk e.1 e.2 position)) := by
  rw [bindArguments, foldlM_bindItem cfg callee candidates 0 items {} rfl (by simp)]
  simp [Binding.extend]

end ScriptIR.Lower
