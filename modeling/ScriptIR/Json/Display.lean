import ScriptIR.Json.Basic
import ScriptIR.Number.Shortest
import ScriptIR.Text.Quoted

/-!
# Values in messages

How a document value is shown inside a text: a string stands for itself at the top and is quoted
inside an array or an object.
-/
namespace ScriptIR.Json

mutual
/-- The value as it is shown inside another one. -/
def literal : Json → String
  | .null => "None"
  | .bool b => if b then "True" else "False"
  | .int i => toString i
  | .float x => x.text
  | .string s => Text.quote s
  | .array items => "[" ++ ", ".intercalate (literals items) ++ "]"
  | .object entries => "\x7b" ++ ", ".intercalate (entryLiterals entries) ++ "\x7d"

def literals : List Json → List String
  | [] => []
  | x :: xs => x.literal :: literals xs

def entryLiterals : List (String × Json) → List String
  | [] => []
  | (k, v) :: rest => (Text.quote k ++ ": " ++ v.literal) :: entryLiterals rest
end

/-- The value as a text of its own. -/
def display : Json → String
  | .string s => s
  | v => v.literal

end ScriptIR.Json
