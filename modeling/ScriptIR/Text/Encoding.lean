import ScriptIR.Text.Quoted

/-!
# Texts for outside

A text can be encoded unless it holds half of a surrogate pair. The error stream takes every text,
with the escapes of halves in place of them.
-/
namespace ScriptIR.Text

/-- The first halves in a text, all in a row: where they start, how many they are, and the first. -/
structure Unencodable where
  position : Nat
  count : Nat
  half : Nat
deriving Repr, DecidableEq

def Unencodable.message (e : Unencodable) : String :=
  let what :=
    if e.count = 1 then
      "character '" ++ String.ofList ('\\' :: 'u' :: hexDigits 4 e.half) ++ "' in position " ++
        toString e.position
    else
      "characters in position " ++ toString e.position ++ "-" ++
        toString (e.position + e.count - 1)
  "'utf-8' codec can't encode " ++ what ++ ": surrogates not allowed"

/-- The characters of a text without halves. -/
def characters (text : String) : String :=
  String.ofList ((points text.toList).map Char.ofNat)

def encode (text : String) : Except Unencodable String :=
  let all := points text.toList
  match all.dropWhile (!isHalf ·) with
  | [] => .ok (characters text)
  | half :: rest =>
    .error ⟨(all.takeWhile (!isHalf ·)).length, (rest.takeWhile isHalf).length + 1, half⟩

/-- The characters that stand for a text on the error stream. -/
def encodeEscaping (text : String) : String :=
  String.ofList ((points text.toList).flatMap fun point =>
    if isHalf point then '\\' :: 'u' :: hexDigits 4 point else [Char.ofNat point])

end ScriptIR.Text
