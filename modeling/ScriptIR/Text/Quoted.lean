import ScriptIR.Text.Points
import ScriptIR.Text.Printable

/-!
# Quoted texts

A text between quotes, in the notation that messages use: the quotes are single unless the text
holds a single quote and no double one; the quote in use, the backslash and the code points that
are not printable are escaped.
-/
namespace ScriptIR.Text

/-- The last `width` hexadecimal digits of `n`, in lower case. -/
def hexDigits : (width : Nat) → (n : Nat) → List Char
  | 0, _ => []
  | width + 1, n => hexDigits width (n / 16) ++ [Nat.digitChar (n % 16)]

def singleQuote : Char := Char.ofNat 0x27

/-- The quote that stands around the characters. -/
def quoteFor (cs : List Char) : Char :=
  if cs.contains singleQuote && !cs.contains '"' then '"' else singleQuote

/-- One character between quotes `quote`. -/
def escapeChar (quote c : Char) : List Char :=
  if c = quote || c = '\\' then ['\\', c]
  else if c = '\n' then ['\\', 'n']
  else if c = '\t' then ['\\', 't']
  else if c = '\r' then ['\\', 'r']
  else if isPrintable c then [c]
  else if c.toNat < 0x100 then '\\' :: 'x' :: hexDigits 2 c.toNat
  else if c.toNat < 0x10000 then '\\' :: 'u' :: hexDigits 4 c.toNat
  else '\\' :: 'U' :: hexDigits 8 c.toNat

/-- One code point between quotes `quote`. -/
def escapePoint (quote : Char) (point : Nat) : List Char :=
  if isHalf point then '\\' :: 'u' :: hexDigits 4 point else escapeChar quote (Char.ofNat point)

def quote (s : String) : String :=
  let q := quoteFor s.toList
  String.ofList (q :: (points s.toList).flatMap (escapePoint q) ++ [q])

end ScriptIR.Text
