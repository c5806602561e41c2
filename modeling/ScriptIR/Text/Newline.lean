import ScriptIR.Text.Points

/-!
# Line ends

A file's lines may end with a line feed, a carriage return, or both; a text has line feeds only.
-/
namespace ScriptIR.Text

def unifyNewlines : List Char → List Char
  | [] => []
  | '\r' :: '\n' :: cs => '\n' :: unifyNewlines cs
  | '\r' :: cs => '\n' :: unifyNewlines cs
  | c :: cs => c :: unifyNewlines cs

/-- The text of a file, if its bytes are UTF-8. -/
def decodeFile? (bytes : List UInt8) : Option String :=
  (String.fromUTF8? ⟨bytes.toArray⟩).map fun s => spelled (String.ofList (unifyNewlines s.toList))

end ScriptIR.Text
