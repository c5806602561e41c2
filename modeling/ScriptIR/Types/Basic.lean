/-!
# Types

The types that the lowered program carries, their written form, and the names that are shorthand
for another one.
-/
namespace ScriptIR

inductive TypeExpr where
  | unknown
  | named (name : String)
  | array (element : TypeExpr)
  | generic (name : String) (arguments : List TypeExpr)
deriving Repr

namespace TypeExpr

mutual
def decideEq : (s t : TypeExpr) → Decidable (s = t)
  | unknown, unknown => isTrue rfl
  | unknown, named _ | unknown, array _ | unknown, generic _ _ => isFalse nofun
  | named m, named n => decidable_of_iff (m = n) (by simp)
  | named _, unknown | named _, array _ | named _, generic _ _ => isFalse nofun
  | array s, array t =>
    match decideEq s t with
    | isTrue h => isTrue (congrArg array h)
    | isFalse h => isFalse fun e => h (array.inj e)
  | array _, unknown | array _, named _ | array _, generic _ _ => isFalse nofun
  | generic m ss, generic n ts =>
    if h : m = n then
      match decideEqList ss ts with
      | isTrue h' => isTrue (h ▸ h' ▸ rfl)
      | isFalse h' => isFalse fun e => h' (generic.inj e).2
    else isFalse fun e => h (generic.inj e).1
  | generic _ _, unknown | generic _ _, named _ | generic _ _, array _ => isFalse nofun

def decideEqList : (ss ts : List TypeExpr) → Decidable (ss = ts)
  | [], [] => isTrue rfl
  | [], _ :: _ | _ :: _, [] => isFalse nofun
  | s :: ss, t :: ts =>
    match decideEq s t, decideEqList ss ts with
    | isTrue h, isTrue h' => isTrue (h ▸ h' ▸ rfl)
    | isFalse h, _ => isFalse fun e => h (List.cons.inj e).1
    | _, isFalse h => isFalse fun e => h (List.cons.inj e).2
end

instance : DecidableEq TypeExpr := decideEq

def isUnknown : TypeExpr → Bool
  | unknown => true
  | _ => false

mutual
/-- The written form of a type, as it stands in type literals. -/
def text : TypeExpr → String
  | unknown => "unknown"
  | named name => name
  | array element => element.text ++ "[]"
  | generic name arguments => name ++ "[" ++ ",".intercalate (texts arguments) ++ "]"

def texts : List TypeExpr → List String
  | [] => []
  | t :: ts => t.text :: texts ts
end

def firstKnown (types : List TypeExpr) : TypeExpr :=
  (types.find? (!·.isUnknown)).getD unknown

/-- Shorthands and full names, in lower case, with the name that is used for them. -/
def accelerators : List (String × String) :=
  [("int", "integer"), ("int32", "integer"), ("system.int32", "integer"), ("integer", "integer"),
    ("long", "long"), ("int64", "long"), ("system.int64", "long"),
    ("string", "string"), ("str", "string"), ("system.string", "string"),
    ("bool", "boolean"), ("boolean", "boolean"), ("system.boolean", "boolean"),
    ("double", "double"), ("system.double", "double"),
    ("char", "char"), ("system.char", "char"),
    ("object", "object"), ("system.object", "object"),
    ("hashtable", "hashtable"), ("system.collections.hashtable", "hashtable"),
    ("scriptblock", "scriptblock"), ("system.management.automation.scriptblock", "scriptblock"),
    ("switch", "switch"), ("system.management.automation.switchparameter", "switch")]

/-- The lower case of a letter, as far as it can matter for a name in ASCII: outside ASCII only the
Kelvin sign has a lower case inside. -/
def lowerLetter (c : Char) : Char :=
  if c = '\u212A' then 'k' else c.toLower

def lowerName (name : String) : String :=
  String.ofList (name.toList.map lowerLetter)

/-- A plain type of the given name, or of the name that this one is shorthand for. -/
def ofName (name : String) : TypeExpr :=
  named ((accelerators.lookup (lowerName name)).getD name)

end TypeExpr

end ScriptIR
