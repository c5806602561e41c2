import Mathlib.Data.List.Forall2
import ScriptIR.Proofs.Lowering.Order

/-!
# Binding arguments in one pass

Binding looks at the items behind a callee from left to right. `bindFrom` says what becomes of the
item with number `i`, and with which number it goes on: only a flag that takes the next item as its
value passes over two. The main statement, `bindArguments_one_pass`, says that the arguments of a
call are those of that pass, in its order; that the pass cuts the items into portions, none left out
and none taken twice; and that each portion gives the arguments that are its share.
-/
namespace ScriptIR.Lower

/-- What stands in front of an item fills slots of its own, unless the last of it is a flag that
takes the item for its value. -/
theorem slots_append {before after : List (Tree Reading)} {item : Tree Reading}
    (apart : ∀ last ∈ before.getLast?, takesNext last item = false) (i : Nat) :
    slots i (before ++ item :: after) =
      slots i before ++ slots (i + before.length) (item :: after) := by
  fun_induction slots i before with
  | case1 i => simp
  | case2 i last =>
    have stays : takesNext last item = false := apart last (by simp)
    simp [slots, stays]
  | case3 i first next rest takes ih =>
    have shifted : i + (rest.length + 1 + 1) = i + 2 + rest.length := by omega
    have ih := ih fun last hlast => apart last (by cases rest <;> simp_all)
    simp [slots, takes, ih, shifted]
  | case4 i first next rest stays ih =>
    have shifted : i + (rest.length + 1 + 1) = i + 1 + (rest.length + 1) := by omega
    have ih := ih fun last hlast => apart last (by simpa using hlast)
    simp only [List.cons_append] at ih
    simp [slots, stays, ih, shifted]

/-! ### The pass -/

/-- The index that the first candidate has for a parameter's name. -/
def declaredIndex? (cfg : Config) (candidates : List Function) (name : String) : Option Int :=
  candidates.head?.bind fun f =>
    (Dictionary.ofEntries (f.positions.map fun e => (cfg.key e.1, e.2))).get? (cfg.key name)

section
variable (cfg : Config) (callee : String) (candidates : List Function)

/-- A flag with its value. That the first candidate lacks the name is reported before the value is
lowered; then the flag keeps its number, as it does if there is no candidate. -/
def bindFlag (flag : Site) (value : Lower Expression) (i : Nat) : Lower (Expression × Int) := do
  let name := flagName cfg flag.attributes
  let declared := declaredIndex? cfg candidates name
  if candidates ≠ [] ∧ declared = none then
    report (some flag) (.undeclaredParameter callee name)
  let e ← value
  pure (e, declared.getD i)

/-- The leaves that are no empty groups, with indices from `k` on. -/
def bindLeaves (k : Nat) : List (Tree Reading) → Lower (List (Expression × Int))
  | [] => pure []
  | leaf :: rest =>
    if leaf.label.kind.isGrouping then bindLeaves k rest
    else do
      let e ← leaf.label.expression
      let others ← bindLeaves (k + 1) rest
      pure ((e, (k : Int)) :: others)

/-- The items from number `i` on, with the indices that they are bound to. -/
def bindFrom (i : Nat) : List (Tree Reading) → Lower (List (Expression × Int))
  | [] => pure []
  | item :: rest =>
    match item.label.kind with
    | .commandParameter =>
      match item.children with
      | value :: _ => do
        let bound ← bindFlag cfg callee candidates item.label.site value.label.expression i
        let others ← bindFrom (i + 1) rest
        pure (bound :: others)
      | [] =>
        match rest with
        | next :: later =>
          if next.label.kind ≠ .commandParameter then do
            let bound ← bindFlag cfg callee candidates item.label.site next.label.expression i
            let others ← bindFrom (i + 2) later
            pure (bound :: others)
          else do
            let bound ← bindFlag cfg callee candidates item.label.site item.label.expression i
            let others ← bindFrom (i + 1) (next :: later)
            pure (bound :: others)
        | [] => do
          let bound ← bindFlag cfg callee candidates item.label.site item.label.expression i
          pure [bound]
    | .scriptBlockExpression => do
      let e ← item.label.expression
      let others ← bindFrom (i + 1) rest
      pure ((e, (i : Int)) :: others)
    | _ => do
      let group ← bindLeaves 0 item.leaves
      let others ← bindFrom (i + 1) rest
      pure (group ++ others)

end

/-- The items cut into portions: a flag together with the next item if that is its value, and every
other item by itself. -/
def portions : List (Tree Reading) → List (List (Tree Reading))
  | [] => []
  | [item] => [[item]]
  | item :: next :: rest =>
    if takesNext item next then [item, next] :: portions rest else [item] :: portions (next :: rest)

/-- The number of arguments that an item gives, with or without a value behind it. -/
def itemSize (item : Tree Reading) : Nat :=
  match item.label.kind with
  | .commandParameter | .scriptBlockExpression => 1
  | _ => (valueItems item).length

/-- The number of arguments that a portion gives, which is led by its first item. -/
def portionSize (portion : List (Tree Reading)) : Nat :=
  (portion.head?.map itemSize).getD 0

theorem flatten_portions (items : List (Tree Reading)) : (portions items).flatten = items := by
  fun_induction portions items with
  | case1 => rfl
  | case2 item => rfl
  | case3 item next rest _ ih => simp [ih]
  | case4 item next rest _ ih => simp [ih]

/-! ### The pass and the slots -/

section
variable (cfg : Config) (callee : String) (candidates : List Function)

theorem get?_parameterIndices (name : String) :
    (parameterIndices cfg candidates).get? (cfg.key name) = declaredIndex? cfg candidates name := by
  cases candidates <;> rfl

theorem flagIndex_eq (flag : Site) (number : Nat) :
    flagIndex cfg callee candidates flag number = (do
      let name := flagName cfg flag.attributes
      let declared := declaredIndex? cfg candidates name
      if candidates ≠ [] ∧ declared = none then
        report (some flag) (.undeclaredParameter callee name)
      pure (declared.getD number)) := by
  unfold flagIndex
  dsimp only
  rw [get?_parameterIndices]
  cases hdeclared : declaredIndex? cfg candidates (flagName cfg flag.attributes) with
  | some index => simp
  | none => cases candidates <;> simp

theorem lowerSlot_flag (flag : Site) (value : Lower Expression) (i : Nat) :
    lowerSlot cfg callee candidates (.flag flag value i) = (do
      let bound ← bindFlag cfg callee candidates flag value i
      pure [bound]) := by
  simp only [lowerSlot, flagIndex_eq, bindFlag]
  split <;> simp

theorem bindLeaves_eq (k : Nat) (leaves : List (Tree Reading)) :
    bindLeaves k leaves = (do
      let es ← ((leaves.filter fun leaf => !leaf.label.kind.isGrouping).map
        (·.label.expression)).mapM id
      pure (es.mapIdx fun i e => (e, ((k + i : Nat) : Int)))) := by
  induction leaves generalizing k with
  | nil => simp [bindLeaves]
  | cons leaf rest ih =>
    cases hgroup : leaf.label.kind.isGrouping with
    | true => simp [bindLeaves, hgroup, ih]
    | false =>
      have shifted : ∀ i, k + 1 + i = k + (i + 1) := by omega
      simp [bindLeaves, hgroup, ih, shifted]

theorem lowerSlot_group (item : Tree Reading) :
    lowerSlot cfg callee candidates (.group (valueLeaves item)) = bindLeaves 0 item.leaves := by
  simp [lowerSlot, bindLeaves_eq, valueLeaves]

/-- The first slot gives its arguments in front of those of the others. -/
theorem bind_slots_cons (slot : Slot) (rest : List Slot) :
    (do let groups ← (slot :: rest).mapM (lowerSlot cfg callee candidates); pure groups.flatten) =
      (do
        let group ← lowerSlot cfg callee candidates slot
        let others ← (do
          let groups ← rest.mapM (lowerSlot cfg callee candidates)
          pure groups.flatten)
        pure (group ++ others)) := by
  simp

/-- A flag with its value in the next item, which is passed over. -/
theorem bindFrom_taking {item next : Tree Reading} (h : takesNext item next = true) (i : Nat)
    (rest : List (Tree Reading)) :
    bindFrom cfg callee candidates i (item :: next :: rest) = (do
      let group ← lowerSlot cfg callee candidates (.flag item.label.site next.label.expression i)
      let others ← bindFrom cfg callee candidates (i + 2) rest
      pure (group ++ others)) := by
  simp only [takesNext, Bool.and_eq_true, decide_eq_true_eq, List.isEmpty_iff, bne_iff_ne] at h
  obtain ⟨⟨flag, bare⟩, value⟩ := h
  simp [bindFrom, flag, bare, value, lowerSlot_flag]

theorem slotOf_eq_group (i : Nat) {item : Tree Reading}
    (noFlag : item.label.kind ≠ .commandParameter)
    (noBlock : item.label.kind ≠ .scriptBlockExpression) :
    slotOf i item = .group (valueLeaves item) := by
  unfold slotOf
  split <;> simp_all

/-- An item that takes no value from the next one. -/
theorem bindFrom_alone {item : Tree Reading} {rest : List (Tree Reading)}
    (h : ∀ next ∈ rest.head?, takesNext item next = false) (i : Nat) :
    bindFrom cfg callee candidates i (item :: rest) = (do
      let group ← lowerSlot cfg callee candidates (slotOf i item)
      let others ← bindFrom cfg callee candidates (i + 1) rest
      pure (group ++ others)) := by
  unfold slotOf
  split
  next flag =>
    cases hchildren : item.children with
    | cons value others =>
      rw [bindFrom.eq_def]
      simp [flag, hchildren, lowerSlot_flag]
    | nil =>
      cases rest with
      | nil => simp [bindFrom, flag, hchildren, lowerSlot_flag]
      | cons next later =>
        have isFlag : next.label.kind = .commandParameter := by
          simpa [takesNext, flag, hchildren] using h next rfl
        simp [bindFrom, flag, hchildren, isFlag, lowerSlot_flag]
  next block =>
    rw [bindFrom.eq_def]
    simp [block, lowerSlot]
  next noFlag noBlock =>
    rw [bindFrom.eq_def, lowerSlot_group]
    simp

theorem bindFrom_eq (i : Nat) (items : List (Tree Reading)) :
    bindFrom cfg callee candidates i items = (do
      let groups ← (slots i items).mapM (lowerSlot cfg callee candidates)
      pure groups.flatten) := by
  fun_induction slots i items with
  | case1 => simp [bindFrom]
  | case2 i item =>
    rw [bindFrom_alone cfg callee candidates (by simp)]
    simp [bindFrom]
  | case3 i item next rest takes ih =>
    rw [bindFrom_taking cfg callee candidates takes, bind_slots_cons, ih]
  | case4 i item next rest stays ih =>
    rw [bindFrom_alone cfg callee candidates (by simpa using stays), bind_slots_cons, ih]

theorem bindArguments_eq_bindFrom (items : List (Tree Reading)) :
    bindArguments cfg callee candidates items = (do
      let bound ← bindFrom cfg callee candidates 0 items
      pure (bound.mapIdx fun position e => .mk e.1 e.2 position)) := by
  simp [bindArguments_eq, bindFrom_eq]

end

/-! ### The shares of the portions -/

/-- What holds of all single results holds of the results of a list. -/
theorem forall₂_of_run_mapM {α β : Type} {f : α → Lower β} {P : α → β → Prop}
    (h : ∀ x y (t u : Session), t.run (f x) = (.ok y, u) → P x y) {xs : List α} {ys : List β}
    {s u : Session} (hrun : s.run (xs.mapM f) = (.ok ys, u)) : List.Forall₂ P xs ys := by
  induction xs generalizing ys s u with
  | nil =>
    obtain ⟨rfl, -⟩ := Session.run_pure_eq_ok.mp hrun
    exact .nil
  | cons x xs ih =>
    rw [List.mapM_cons] at hrun
    obtain ⟨y, t, first, hrest⟩ := Session.run_bind_eq_ok.mp hrun
    obtain ⟨rest, v, others, hys⟩ := Session.run_bind_eq_ok.mp hrest
    obtain ⟨rfl, -⟩ := Session.run_pure_eq_ok.mp hys
    exact .cons (h x y s t first) (ih others)

/-- The number of arguments that a slot gives. -/
def Slot.size : Slot → Nat
  | .flag .. | .block .. => 1
  | .group values => values.length

theorem size_slotOf (i : Nat) (item : Tree Reading) : (slotOf i item).size = itemSize item := by
  unfold slotOf
  split
  next flag =>
    split <;> simp [Slot.size, itemSize, flag]
  next block => simp [Slot.size, itemSize, block]
  next => simp [Slot.size, itemSize, valueLeaves, valueItems]

theorem size_slots (i : Nat) (items : List (Tree Reading)) :
    (slots i items).map Slot.size = (portions items).map portionSize := by
  fun_induction slots i items with
  | case1 => rfl
  | case2 i item => simp [portions, portionSize, size_slotOf]
  | case3 i item next rest takes ih =>
    have flag : item.label.kind = .commandParameter := by simp_all [takesNext]
    simp [portions, takes, ih, Slot.size, portionSize, itemSize, flag]
  | case4 i item next rest stays ih =>
    simp [portions, stays, ih, portionSize, size_slotOf]

section
variable (cfg : Config) (callee : String) (candidates : List Function)
variable {s t : Session}

theorem length_of_run_lowerSlot {slot : Slot} {group : List (Expression × Int)}
    (h : s.run (lowerSlot cfg callee candidates slot) = (.ok group, t)) :
    slot.size = group.length := by
  cases slot with
  | flag site value number =>
    obtain ⟨_, _, _, hvalue⟩ := Session.run_bind_eq_ok.mp h
    obtain ⟨_, _, _, hgroup⟩ := Session.run_bind_eq_ok.mp hvalue
    obtain ⟨rfl, -⟩ := Session.run_pure_eq_ok.mp hgroup
    rfl
  | block value number =>
    obtain ⟨_, _, _, hgroup⟩ := Session.run_bind_eq_ok.mp h
    obtain ⟨rfl, -⟩ := Session.run_pure_eq_ok.mp hgroup
    rfl
  | group values =>
    obtain ⟨es, _, hvalues, hgroup⟩ := Session.run_bind_eq_ok.mp h
    obtain ⟨rfl, -⟩ := Session.run_pure_eq_ok.mp hgroup
    have count := (forall₂_of_run_mapM (P := fun _ _ => True) (by simp) hvalues).length_eq
    simpa [Slot.size] using count

/-- Every slot gives as many arguments as the portion that it comes from. -/
theorem lengths_of_run_slots {i : Nat} {items : List (Tree Reading)}
    {groups : List (List (Expression × Int))}
    (h : s.run ((slots i items).mapM (lowerSlot cfg callee candidates)) = (.ok groups, t)) :
    groups.map List.length = (portions items).map portionSize := by
  have each := forall₂_of_run_mapM
    (fun _ _ _ _ => length_of_run_lowerSlot cfg callee candidates) h
  have sizes : List.Forall₂ (· = ·) ((slots i items).map Slot.size) (groups.map List.length) := by
    rw [List.forall₂_map_left_iff, List.forall₂_map_right_iff]
    exact each
  rw [List.forall₂_eq_eq_eq] at sizes
  rw [← sizes, size_slots]

end

/-- The arguments of a call are those that one pass over its items binds: a flag with a child takes
that child, else the next item unless that is a flag too, else itself, with the index of the
parameter that it names or else its own number; a script block is one argument with its own number;
any other item gives its leaves but for empty groups, numbered from zero. The pass cuts the items
into portions, which make up the items again, and each portion gives as many arguments as it is due,
in the order of the portions; the arguments are numbered in that order. -/
theorem bindArguments_one_pass (cfg : Config) (callee : String) (candidates : List Function)
    (items : List (Tree Reading)) :
    (bindArguments cfg callee candidates items = do
      let bound ← bindFrom cfg callee candidates 0 items
      pure (bound.mapIdx fun position e => .mk e.1 e.2 position)) ∧
    (portions items).flatten = items ∧
    ∀ (s t : Session) (arguments : List Argument),
      s.run (bindArguments cfg callee candidates items) = (.ok arguments, t) →
        arguments.map Argument.position = List.range arguments.length ∧
        ∃ shares : List (List (Expression × Int)),
          arguments.map (fun a => (a.expression, a.index)) = shares.flatten ∧
          shares.map List.length = (portions items).map portionSize := by
  refine ⟨bindArguments_eq_bindFrom cfg callee candidates items, flatten_portions items,
    fun s t arguments h => ?_⟩
  rw [bindArguments_eq] at h
  obtain ⟨groups, _, hgroups, hpure⟩ := Session.run_bind_eq_ok.mp h
  obtain ⟨rfl, -⟩ := Session.run_pure_eq_ok.mp hpure
  refine ⟨?_, groups, ?_, lengths_of_run_slots cfg callee candidates hgroups⟩
  · refine List.ext_getElem (by simp) fun n _ _ => ?_
    simp [Argument.position]
  · refine List.ext_getElem (by simp) fun n _ _ => ?_
    simp [Argument.expression, Argument.index]

end ScriptIR.Lower
