import ScriptIR.Text.Blank
import ScriptIR.Text.DecimalDigit

/-!
# Whole numbers in texts

`integer?` reads a text as a whole number: blanks around it, a sign, and decimal digits of any
script, with single underscores between digits.
-/
namespace ScriptIR.Text

/-- The blanks that may stand around a number; the information separators may not. -/
def isNumberBlank (c : Char) : Bool :=
  isBlank c && !(0x1C ≤ c.toNat && c.toNat ≤ 0x1F)

/-- One more character of a number: the value so far, and whether a digit was last. -/
def digitStep (state : Nat × Bool) (c : Char) : Option (Nat × Bool) :=
  if c = '_' then (if state.2 then some (state.1, false) else none)
  else (decimalValue? c).map fun d => (10 * state.1 + d, true)

def natural? (cs : List Char) : Option Nat :=
  match cs.foldlM digitStep (0, false) with
  | some (n, true) => some n
  | _ => none

def integer? (s : String) : Option Int :=
  let cs := ((s.toList.dropWhile isNumberBlank).reverse.dropWhile isNumberBlank).reverse
  match cs with
  | '-' :: ds => (natural? ds).map fun n => -(n : Int)
  | '+' :: ds => (natural? ds).map Int.ofNat
  | ds => (natural? ds).map Int.ofNat

end ScriptIR.Text
