import ScriptIR.Lowering.Reading

/-!
# Binding arguments

The items behind a command's callee become the arguments of a call. A flag takes the value attached
to it, or else the next item unless that is a flag too, or else stands for itself; its index is that
of the parameter it names. A script block is one argument. Any other item stands for its leaves,
empty groups left out, with indices counted from zero for each item.
-/
namespace ScriptIR.Lower

/-- The declared name that a flag means: without its marker and from a colon on, and with the sigil
of parameters. -/
def flagName (cfg : Config) (flag : Attributes) : String :=
  let text := flag.identifier.toList
  let marker := cfg.flagMarker.toList
  let bare := if marker.isPrefixOf text then text.drop marker.length else text
  cfg.sigil ++ String.ofList (bare.takeWhile (· ≠ ':'))

/-- The indices of the first candidate's parameters by the keys of their names. -/
def parameterIndices (cfg : Config) (candidates : List Function) : Dictionary Int :=
  match candidates with
  | [] => []
  | f :: _ => .ofEntries (f.positions.map fun e => (cfg.key e.1, e.2))

def valueLeaves (item : Tree Reading) : List (Lower Expression) :=
  (item.leaves.filter fun leaf => !leaf.label.kind.isGrouping).map (·.label.expression)

/-- The index of a flag's parameter. A flag that names none of a known function's parameters is
reported and keeps the number of its item. -/
def flagIndex (cfg : Config) (callee : String) (candidates : List Function) (flag : Site)
    (number : Nat) : Lower Int := do
  let name := flagName cfg flag.attributes
  match (parameterIndices cfg candidates).get? (cfg.key name) with
  | some index => pure index
  | none =>
    unless candidates.isEmpty do report (some flag) (.undeclaredParameter callee name)
    pure number

/-- What has been bound so far: the numbers of the items that a flag before them has taken, and the
arguments. -/
structure Binding where
  consumed : List Nat := []
  arguments : List Argument := []

/-- With one more argument, in the next position. -/
def Binding.add (b : Binding) (e : Expression) (index : Int) : Binding :=
  { b with arguments := b.arguments ++ [.mk e index b.arguments.length] }

section
variable (cfg : Config) (callee : String) (candidates : List Function) (items : List (Tree Reading))

/-- The item behind number `i`, unless it is a flag. -/
def valueBehind? (i : Nat) : Option (Tree Reading) :=
  items[i + 1]?.filter (·.label.kind ≠ .commandParameter)

/-- Binds the flag with number `i`. -/
def bindNamed (b : Binding) (i : Nat) (flag : Tree Reading) : Lower Binding := do
  let (value, b) :=
    match flag.children, valueBehind? items i with
    | value :: _, _ => (value, b)
    | [], some next => (next, { b with consumed := (i + 1) :: b.consumed })
    | [], none => (flag, b)
  let index ← flagIndex cfg callee candidates flag.label.site i
  let e ← value.label.expression
  pure (b.add e index)

/-- Binds a leaf of a group, by its number there. -/
def bindLeaf (b : Binding) (leaf : Lower Expression × Nat) : Lower Binding := do
  let e ← leaf.1
  pure (b.add e leaf.2)

/-- Binds the leaves of a group one after the other. -/
def bindGroup (b : Binding) (item : Tree Reading) : Lower Binding :=
  (valueLeaves item).zipIdx.foldlM bindLeaf b

/-- Binds the item with number `i`, unless a flag has taken it. -/
def bindItem (b : Binding) (item : Tree Reading × Nat) : Lower Binding :=
  if b.consumed.contains item.2 then pure b
  else
    match item.1.label.kind with
    | .commandParameter => bindNamed cfg callee candidates items b item.2 item.1
    | .scriptBlockExpression => do
      let e ← item.1.label.expression
      pure (b.add e item.2)
    | _ => bindGroup b item.1

/-- The arguments that the items amount to, for a callee with the given candidates. -/
def bindArguments : Lower (List Argument) := do
  let bound ← items.zipIdx.foldlM (bindItem cfg callee candidates items) {}
  pure bound.arguments

end

end ScriptIR.Lower
