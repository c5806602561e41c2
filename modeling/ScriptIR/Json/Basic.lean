import ScriptIR.Dictionary
import ScriptIR.Number.Binary64

/-!
# Document values

The values of a JSON document. Whole numbers are kept apart from fractions, and an object keeps the
order in which its keys first came.
-/
namespace ScriptIR

inductive Json where
  | null
  | bool (value : Bool)
  | int (value : Int)
  | float (value : Binary64)
  | string (value : String)
  | array (items : List Json)
  | object (entries : List (String × Json))
deriving Repr, Inhabited

namespace Json

/-- What is empty, zero, null or false does not count as given. -/
def isTruthy : Json → Bool
  | .null => false
  | .bool b => b
  | .int i => i != 0
  | .float x => !x.isZero
  | .string s => s != ""
  | .array items => !items.isEmpty
  | .object entries => !entries.isEmpty

/-- The name of the value's type, as messages about documents spell it. -/
def typeName : Json → String
  | .null => "NoneType"
  | .bool _ => "bool"
  | .int _ => "int"
  | .float _ => "float"
  | .string _ => "str"
  | .array _ => "list"
  | .object _ => "dict"

/-- The value of a key; nothing for a value that is no object. -/
def field? (key : String) : Json → Option Json
  | .object entries => Dictionary.get? entries key
  | _ => none

/-- The value of a key that is there and not null. -/
def given? (key : String) (v : Json) : Option Json :=
  match v.field? key with
  | some .null => none
  | other => other

/-- The number that a truth value stands for among numbers. -/
def bit (b : Bool) : Int :=
  if b then 1 else 0

mutual
/-- Equality by value: numbers and truth values are compared as numbers, and the order of an
object's keys does not count. -/
def sameValue : Json → Json → Bool
  | .null, .null => true
  | .string s, .string t => s == t
  | .bool b, .bool c => b == c
  | .bool b, .int i => bit b == i
  | .int i, .bool b => i == bit b
  | .int i, .int j => i == j
  | .bool b, .float x => x.equalsInt (bit b)
  | .float x, .bool b => x.equalsInt (bit b)
  | .int i, .float x => x.equalsInt i
  | .float x, .int i => x.equalsInt i
  | .float x, .float y => x.sameValue y
  | .array xs, .array ys => sameItems xs ys
  | .object es, .object fs => es.length == fs.length && sameEntries es fs
  | _, _ => false

def sameItems : List Json → List Json → Bool
  | [], [] => true
  | x :: xs, y :: ys => x.sameValue y && sameItems xs ys
  | _, _ => false

/-- Whether each entry has one of the same key and value in the other object. -/
def sameEntries : List (String × Json) → List (String × Json) → Bool
  | [], _ => true
  | (k, v) :: rest, other =>
    (match Dictionary.get? other k with
      | some w => v.sameValue w
      | none => false) && sameEntries rest other
end

end Json

end ScriptIR
