/-!
# Code points

A text is a row of code points. Most of them are characters. The halves of surrogate pairs are
not, but a document may name one by its escape, and it is then kept like any other code point. A
`String` holds characters only, so texts are spelled: a half is written as a mark and a sign for
the half. The mark is the last of all characters, and itself is written twice; any other
character stands for itself.

All texts are spelled this way but those that are read from outside or written there.
-/
namespace ScriptIR.Text

/-- Halves of surrogate pairs are the code points that are no characters. -/
def isHalf (point : Nat) : Bool :=
  0xD800 ≤ point && point ≤ 0xDFFF

def mark : Char :=
  Char.ofNat 0x10FFFF

/-- The sign that stands behind the mark for a half. -/
def halfSign (half : Nat) : Char :=
  Char.ofNat (half - 0xD800 + 0xF0000)

def spell (point : Nat) : List Char :=
  if isHalf point then [mark, halfSign point]
  else if point = mark.toNat then [mark, mark]
  else [Char.ofNat point]

/-- The code point that two characters stand for together, if they do. -/
def pair? (c d : Char) : Option Nat :=
  if c ≠ mark then none
  else if d = mark then some mark.toNat
  else if 0xF0000 ≤ d.toNat && d.toNat ≤ 0xF07FF then some (d.toNat - 0xF0000 + 0xD800)
  else none

/-- The code points of a spelled text. -/
def points : List Char → List Nat
  | [] => []
  | [c] => [c.toNat]
  | c :: d :: cs =>
    match pair? c d with
    | some point => point :: points cs
    | none => c.toNat :: points (d :: cs)

/-- The characters that the first `n` code points are spelled with. -/
def takePoints (n : Nat) (cs : List Char) : List Char :=
  ((points cs).take n).flatMap spell

/-- The spelling of a text from outside, where each character stands for itself. -/
def spelled (characters : String) : String :=
  String.ofList (characters.toList.flatMap fun c => spell c.toNat)

/-- The bytes that a name has outside; a half has one. -/
def byteSize (text : String) : Nat :=
  (points text.toList).foldl (fun size point => size + (Char.ofNat point).utf8Size) 0

end ScriptIR.Text
