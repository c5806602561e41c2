import ScriptIR.Json.Basic
import ScriptIR.Text.Points

/-!
# Reading documents

`Json.parse` reads a text as one value. Besides the standard's values it takes `NaN`, `Infinity` and
`-Infinity`; whole numbers may be of any size, and of two equal keys the later value stands. A
failure names its cause and the place, counted in code points.
-/
namespace ScriptIR.Json

inductive ReadFailure where
  | byteOrderMark
  | value
  | propertyName
  | colon
  | comma
  | controlCharacter
  | unterminatedString
  | escape
  | unicodeEscape
  | extraData
deriving Repr, DecidableEq

def ReadFailure.message : ReadFailure → String
  | .byteOrderMark => "Unexpected UTF-8 BOM (decode using utf-8-sig)"
  | .value => "Expecting value"
  | .propertyName => "Expecting property name enclosed in double quotes"
  | .colon => "Expecting ':' delimiter"
  | .comma => "Expecting ',' delimiter"
  | .controlCharacter => "Invalid control character at"
  | .unterminatedString => "Unterminated string starting at"
  | .escape => "Invalid \\escape"
  | .unicodeEscape => "Invalid \\uXXXX escape"
  | .extraData => "Extra data"

structure ReadError where
  failure : ReadFailure
  position : Nat
deriving Repr, DecidableEq

/-- Line and column behind some code points, both from one; only a line feed ends a line. -/
def lineColumn (before : List Nat) : Nat × Nat :=
  (before.count '\n'.toNat + 1, (before.reverse.takeWhile (· ≠ '\n'.toNat)).length + 1)

def ReadError.message (e : ReadError) (text : String) : String :=
  let before := Text.points (text.toList.take e.position)
  e.failure.message ++ ": line " ++ toString (lineColumn before).1 ++ " column " ++
    toString (lineColumn before).2 ++ " (char " ++ toString before.length ++ ")"

/-- What is left of the text, and the position where it starts. -/
structure Cursor where
  position : Nat
  rest : List Char
deriving Repr, DecidableEq

def fail {α : Type} (failure : ReadFailure) (position : Nat) : Except ReadError α :=
  .error ⟨failure, position⟩

def Cursor.advance (c : Cursor) (n : Nat) : Cursor :=
  ⟨c.position + n, c.rest.drop n⟩

def isSeparator (c : Char) : Bool :=
  c == ' ' || c == '\t' || c == '\n' || c == '\r'

def Cursor.skipSeparators (c : Cursor) : Cursor :=
  c.advance (c.rest.takeWhile isSeparator).length

def hexValue? (c : Char) : Option Nat :=
  if c.isDigit then some (c.toNat - 48)
  else if 'a' ≤ c && c ≤ 'f' then some (c.toNat - 87)
  else if 'A' ≤ c && c ≤ 'F' then some (c.toNat - 55)
  else none

def hexNumber? (digits : List Char) : Option Nat :=
  digits.foldlM (fun n d => (hexValue? d).map (16 * n + ·)) 0

/-- The character that a one-letter escape stands for. -/
def simpleEscape? : Char → Option Char
  | '"' => some '"'
  | '\\' => some '\\'
  | '/' => some '/'
  | 'b' => some '\x08'
  | 'f' => some '\x0c'
  | 'n' => some '\n'
  | 'r' => some '\r'
  | 't' => some '\t'
  | _ => none

def isHighSurrogate (n : Nat) : Bool :=
  0xD800 ≤ n && n ≤ 0xDBFF

def isLowSurrogate (n : Nat) : Bool :=
  0xDC00 ≤ n && n ≤ 0xDFFF

/-- What one unit is spelled with. Units that are no halves may be characters of a spelled text. -/
def charsOfUnit (n : Nat) : List Char :=
  if Text.isHalf n then Text.spell n else [Char.ofNat n]

/-- The spelling of what was read: the two halves of a pair in a row are one character, and a half
that stands alone is kept. -/
def charsOfUnits : List Nat → List Char
  | [] => []
  | [n] => charsOfUnit n
  | n :: m :: rest =>
    if isHighSurrogate n && isLowSurrogate m then
      Text.spell (0x10000 + (n - 0xD800) * 0x400 + (m - 0xDC00)) ++ charsOfUnits rest
    else charsOfUnit n ++ charsOfUnits (m :: rest)

/-- The rest of a string whose opening quote is at `start`. The characters begin at `position`, and
`read` holds the units read so far, the last one first: characters, and the numbers of escapes. An
escape of four digits has to be followed by another character. -/
def stringFrom (start : Nat) : (position : Nat) → (read : List Nat) → List Char →
    Except ReadError (String × Cursor)
  | position, read, '"' :: rest =>
    .ok (String.ofList (charsOfUnits read.reverse), ⟨position + 1, rest⟩)
  | position, read, '\\' :: 'u' :: d₁ :: d₂ :: d₃ :: d₄ :: rest =>
    match hexNumber? [d₁, d₂, d₃, d₄], rest.isEmpty with
    | some n, false => stringFrom start (position + 6) (n :: read) rest
    | _, _ => fail .unicodeEscape (position + 1)
  | position, _, '\\' :: 'u' :: _ => fail .unicodeEscape (position + 1)
  | position, read, '\\' :: c :: rest =>
    match simpleEscape? c with
    | some plain => stringFrom start (position + 2) (plain.toNat :: read) rest
    | none => fail .escape position
  | position, read, c :: rest =>
    if c.toNat ≤ 0x1F then fail .controlCharacter position
    else if c = '\\' then fail .unterminatedString start
    else stringFrom start (position + 1) (c.toNat :: read) rest
  | _, _, [] => fail .unterminatedString start

def spanDigits (cs : List Char) : List Char × List Char :=
  (cs.takeWhile Char.isDigit, cs.dropWhile Char.isDigit)

def digitsNumber (digits : List Char) : Nat :=
  digits.foldl (fun n d => 10 * n + (d.toNat - 48)) 0

/-- The whole part of a number: a single zero, or digits that do not start with one. -/
def wholePart? : List Char → Option (List Char)
  | '0' :: _ => some ['0']
  | cs => if (spanDigits cs).1.isEmpty then none else some (spanDigits cs).1

def fractionPart : List Char → List Char
  | '.' :: cs => (spanDigits cs).1
  | _ => []

/-- The exponent after its mark, with the length of its text; a mark without digits is not read. -/
def exponentPart? : List Char → Option (Int × Nat)
  | mark :: cs =>
    if mark = 'e' || mark = 'E' then
      let signed := match cs with
        | '-' :: ds => (true, 2, (spanDigits ds).1)
        | '+' :: ds => (false, 2, (spanDigits ds).1)
        | ds => (false, 1, (spanDigits ds).1)
      if signed.2.2.isEmpty then none
      else
        let magnitude : Int := digitsNumber signed.2.2
        some (if signed.1 then -magnitude else magnitude, signed.2.1 + signed.2.2.length)
    else none
  | [] => none

def unsignedNumber? (negative : Bool) (cs : List Char) : Option (Json × Nat) :=
  (wholePart? cs).map fun whole =>
    let afterWhole := cs.drop whole.length
    let fraction := fractionPart afterWhole
    let fractionLength := if fraction.isEmpty then 0 else fraction.length + 1
    let exponent := exponentPart? (afterWhole.drop fractionLength)
    let length := whole.length + fractionLength + (exponent.map Prod.snd).getD 0
    if fraction.isEmpty && exponent.isNone then
      let magnitude : Int := digitsNumber whole
      (.int (if negative then -magnitude else magnitude), length)
    else
      let scale : Int := (exponent.map Prod.fst).getD 0 - fraction.length
      (.float (.ofDecimal negative (digitsNumber (whole ++ fraction)) scale), length)

def number (c : Cursor) : Except ReadError (Json × Cursor) :=
  let signed := match c.rest with
    | '-' :: cs => (true, 1, cs)
    | cs => (false, 0, cs)
  match unsignedNumber? signed.1 signed.2.2 with
  | some (v, length) => .ok (v, c.advance (signed.2.1 + length))
  | none => fail .value c.position

def words : List (String × Json) :=
  [("null", .null), ("true", .bool true), ("false", .bool false), ("NaN", .float .nan),
    ("Infinity", .float (.infinite false)), ("-Infinity", .float (.infinite true))]

def word? (c : Cursor) : Option (Json × Cursor) :=
  (words.find? fun w => w.1.toList.isPrefixOf c.rest).map fun w => (w.2, c.advance w.1.length)

mutual
/-- A value that starts at the cursor. Each step uses up a character, so fuel beyond the length of
the text is never used up. -/
def valueAt : (fuel : Nat) → Cursor → Except ReadError (Json × Cursor)
  | 0, c => fail .value c.position
  | fuel + 1, c =>
    match c.rest with
    | '"' :: rest => do
      let (text, afterText) ← stringFrom c.position (c.position + 1) [] rest
      pure (.string text, afterText)
    | '{' :: _ =>
      let inside := (c.advance 1).skipSeparators
      match inside.rest with
      | '}' :: _ => .ok (.object [], inside.advance 1)
      | _ => entriesAt fuel [] inside
    | '[' :: _ =>
      let inside := (c.advance 1).skipSeparators
      match inside.rest with
      | ']' :: _ => .ok (.array [], inside.advance 1)
      | _ => itemsAt fuel [] inside
    | _ =>
      match word? c with
      | some r => .ok r
      | none => number c

/-- The items of an array from the cursor on, after those in `read`, the last one first. -/
def itemsAt : (fuel : Nat) → (read : List Json) → Cursor → Except ReadError (Json × Cursor)
  | 0, _, c => fail .value c.position
  | fuel + 1, read, c => do
    let (item, afterItem) ← valueAt fuel c
    let next := afterItem.skipSeparators
    match next.rest with
    | ']' :: _ => .ok (.array (item :: read).reverse, next.advance 1)
    | ',' :: _ => itemsAt fuel (item :: read) (next.advance 1).skipSeparators
    | _ => fail .comma next.position

/-- The entries of an object from the cursor on, after those in `read`. -/
def entriesAt : (fuel : Nat) → (read : Dictionary Json) → Cursor →
    Except ReadError (Json × Cursor)
  | 0, _, c => fail .value c.position
  | fuel + 1, read, c => do
    match c.rest with
    | '"' :: rest =>
      let (key, afterKey) ← stringFrom c.position (c.position + 1) [] rest
      let colon := afterKey.skipSeparators
      match colon.rest with
      | ':' :: _ =>
        let (item, afterItem) ← valueAt fuel (colon.advance 1).skipSeparators
        let next := afterItem.skipSeparators
        let entries := Dictionary.insert key item read
        match next.rest with
        | '}' :: _ => .ok (.object entries, next.advance 1)
        | ',' :: _ => entriesAt fuel entries (next.advance 1).skipSeparators
        | _ => fail .comma next.position
      | _ => fail .colon colon.position
    | _ => fail .propertyName c.position
end

def parse (text : String) : Except ReadError Json :=
  match text.toList with
  | '\uFEFF' :: _ => .error ⟨.byteOrderMark, 0⟩
  | cs => do
    let (v, afterValue) ← valueAt (2 * cs.length + 1) (Cursor.skipSeparators ⟨0, cs⟩)
    let ending := afterValue.skipSeparators
    if ending.rest.isEmpty then pure v else .error ⟨.extraData, ending.position⟩

end ScriptIR.Json
