import ScriptIR.Program.Basic

/-!
# Programs as documents

`toJson` writes a program as nested JSON objects. Types and locations appear as they are shown, a
call's declaration by its name only, and a location of which nothing is known is left out. Since a
location may have a file that cannot be shown, `document` first looks through the locations.
-/
namespace ScriptIR

def textOrNull (text : Option String) : Json :=
  match text with
  | some s => .string s
  | none => .null

/-- An object for a node of the given class: the class, the origin, then the node's own entries. -/
def Origin.object (o : Origin) (className : String) (entries : List (String × Json)) : Json :=
  let location := if o.location.isUnknown then [] else [("location", Json.string o.location.text)]
  .object (("node", .string className) :: location ++ ("code", textOrNull o.code) :: entries)

def TypeExpr.toJson (t : TypeExpr) : Json :=
  .string t.text

def Parameter.toJson (p : Parameter) : Json :=
  p.origin.object "ParameterDeclaration"
    [("name", .string p.name), ("type", p.type.toJson), ("argument_index", .int p.index)]

mutual
def Expression.toJson : Expression → Json
  | .literal o type rawText name => o.object "Literal"
      [("type", type.toJson), ("raw_text", .string rawText), ("name", .string name)]
  | .reference o name type => o.object "Reference" [("name", .string name), ("type", type.toJson)]
  | .binary o operator lhs rhs type => o.object "BinaryOp"
      [("operator", .string operator), ("lhs", lhs.toJson), ("rhs", rhs.toJson),
        ("type", type.toJson)]
  | .unary o operator isPostfix operand => o.object "UnaryOp"
      [("operator", .string operator), ("is_postfix", .bool isPostfix), ("operand", operand.toJson)]
  | .call o callee arguments declaration => o.object "Call"
      [("callee_name", .string callee), ("arguments", .array (Argument.toJsonList arguments)),
        ("declaration", textOrNull (declaration.map Function.name))]
  | .initializer o type elements => o.object "InitializerList"
      [("type", type.toJson), ("elements", .array (Expression.toJsonList elements))]
  | .cast o target inner => o.object "Cast"
      [("target_type", target.toJson), ("inner", inner.toJson)]
  | .compound o statement => o.object "CompoundExpr" [("statement", statement.toJson)]
  | .definition o declaration =>
    o.object "DeclarationExpr" [("declaration", declaration.toJson)]
  | .unknown o rawText => o.object "Unknown" [("raw_text", textOrNull rawText)]

def Expression.toJsonList : List Expression → List Json
  | [] => []
  | e :: es => e.toJson :: Expression.toJsonList es

def Argument.toJson : Argument → Json
  | .mk expression index position =>
    .object [("node", .string "CallArgument"), ("expression", expression.toJson),
      ("index", .int index), ("position", .int position)]

def Argument.toJsonList : List Argument → List Json
  | [] => []
  | a :: rest => a.toJson :: Argument.toJsonList rest

def Function.toJson : Function → Json
  | .mk o name parameters body => o.object "FunctionDeclaration"
      [("name", .string name), ("parameters", .array (parameters.map Parameter.toJson)),
        ("body", body.toJson)]

def Body.toJson : Body → Json
  | .none | .unfinished => .null
  | .statement s => s.toJson

def Declaration.toJson : Declaration → Json
  | .function f => f.toJson
  | .parameter p => p.toJson
  | .plain name o => o.object "Declaration" [("name", .string name)]

def Statement.toJson : Statement → Json
  | .expression o expression => o.object "ExpressionStatement" [("expression", expression.toJson)]
  | .definition o declaration =>
    o.object "DeclarationStatement" [("declaration", declaration.toJson)]
  | .block o statements => o.object "Block"
      [("statements", .array (Statement.toJsonList statements))]

def Statement.toJsonList : List Statement → List Json
  | [] => []
  | s :: ss => s.toJson :: Statement.toJsonList ss
end

mutual
/-- The locations that the document of an expression shows, in the order of the document. -/
def Expression.locations : Expression → List Location
  | .literal o _ _ _ | .reference o _ _ | .unknown o _ => [o.location]
  | .binary o _ lhs rhs _ => o.location :: lhs.locations ++ rhs.locations
  | .unary o _ _ operand => o.location :: operand.locations
  | .call o _ arguments _ => o.location :: Argument.locationsOf arguments
  | .initializer o _ elements => o.location :: Expression.locationsOf elements
  | .cast o _ inner => o.location :: inner.locations
  | .compound o statement => o.location :: statement.locations
  | .definition o declaration => o.location :: declaration.locations

def Expression.locationsOf : List Expression → List Location
  | [] => []
  | e :: es => e.locations ++ Expression.locationsOf es

def Argument.locations : Argument → List Location
  | .mk expression _ _ => expression.locations

def Argument.locationsOf : List Argument → List Location
  | [] => []
  | a :: rest => a.locations ++ Argument.locationsOf rest

def Function.locations : Function → List Location
  | .mk o _ parameters body =>
    o.location :: parameters.map (·.origin.location) ++ body.locations

def Body.locations : Body → List Location
  | .none | .unfinished => []
  | .statement s => s.locations

def Declaration.locations : Declaration → List Location
  | .function f => f.locations
  | .parameter p => [p.origin.location]
  | .plain _ o => [o.location]

def Statement.locations : Statement → List Location
  | .expression o expression => o.location :: expression.locations
  | .definition o declaration => o.location :: declaration.locations
  | .block o statements => o.location :: Statement.locationsOf statements

def Statement.locationsOf : List Statement → List Location
  | [] => []
  | s :: ss => s.locations ++ Statement.locationsOf ss
end

/-- A part of a lowered program, as it may be asked for by itself. -/
inductive Part where
  | expression (expression : Expression)
  | statement (statement : Statement)
  | declaration (declaration : Declaration)

namespace Part

@[match_pattern] abbrev function (f : Function) : Part :=
  declaration (.function f)

@[match_pattern] abbrev parameter (p : Parameter) : Part :=
  declaration (.parameter p)

def toJson : Part → Json
  | expression e => e.toJson
  | statement s => s.toJson
  | declaration d => d.toJson

def locations : Part → List Location
  | expression e => e.locations
  | statement s => s.locations
  | declaration d => d.locations

/-- The document of a part, if all its locations can be shown. -/
def document (part : Part) : Except NotAFileName Json :=
  match part.locations.find? fun l => !isFileName l.file with
  | some l => .error ⟨l.file⟩
  | none => .ok part.toJson

end Part

end ScriptIR
