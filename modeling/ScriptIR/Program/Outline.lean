import ScriptIR.Program.Document

/-!
# Programs as outlines

The outline of a program names the class of each node on a line of its own and lists the node's
fields below it, deeper by two blanks for each level. Origins are not shown. A call's declaration is
shown whole, so a call inside the body of its own function leads back into that body: an outline
with such a call has no end, and is not given.
-/
namespace ScriptIR

/-- The blanks in front of a line. Above the top there are none. -/
def margin (depth : Int) : String :=
  String.ofList (List.replicate (2 * depth).toNat ' ')

def classLine (depth : Int) (className : String) : String :=
  margin depth ++ className

/-- The line of a field that is a single text, below the node at `depth`. -/
def fieldLine (depth : Int) (name text : String) : String :=
  margin depth ++ "  " ++ name ++ ": " ++ text

def fieldHeading (depth : Int) (name : String) : String :=
  margin depth ++ "  " ++ name ++ ":"

def indexLine (depth index : Int) : String :=
  margin depth ++ "    [index=" ++ toString index ++ "]"

def Parameter.outline (depth : Int) (p : Parameter) : List String :=
  [classLine depth "ParameterDeclaration", fieldLine depth "name" p.name,
    fieldLine depth "type" p.type.text, fieldLine depth "argument_index" (toString p.index)]

mutual
def Expression.outline (depth : Int) : Expression → Option (List String)
  | .literal _ type rawText name =>
    some [classLine depth "Literal", fieldLine depth "type" type.text,
      fieldLine depth "raw_text" rawText, fieldLine depth "name" name]
  | .reference _ name type =>
    some [classLine depth "Reference", fieldLine depth "name" name,
      fieldLine depth "type" type.text]
  | .binary _ operator lhs rhs type => do
    let left ← lhs.outline (depth + 2)
    let right ← rhs.outline (depth + 2)
    return classLine depth "BinaryOp" :: fieldLine depth "operator" operator ::
      fieldHeading depth "lhs" :: left ++ fieldHeading depth "rhs" :: right ++
      [fieldLine depth "type" type.text]
  | .unary _ operator isPostfix operand => do
    let inner ← operand.outline (depth + 2)
    return classLine depth "UnaryOp" :: fieldLine depth "operator" operator ::
      fieldLine depth "is_postfix" (if isPostfix then "True" else "False") ::
      fieldHeading depth "operand" :: inner
  | .call _ callee arguments declaration => do
    let bound ← Argument.outlines depth arguments
    let declared ← Function.outlineOption depth declaration
    return classLine depth "Call" :: fieldLine depth "callee_name" callee ::
      fieldHeading depth "arguments" :: bound ++ declared
  | .initializer _ type elements => do
    let inner ← Expression.outlines (depth + 2) elements
    return classLine depth "InitializerList" :: fieldLine depth "type" type.text ::
      fieldHeading depth "elements" :: inner
  | .cast _ target inner => do
    let operand ← inner.outline (depth + 2)
    return classLine depth "Cast" :: fieldLine depth "target_type" target.text ::
      fieldHeading depth "inner" :: operand
  | .compound _ statement => do
    let inner ← statement.outline (depth + 2)
    return classLine depth "CompoundExpr" :: fieldHeading depth "statement" :: inner
  | .definition _ declaration => do
    let inner ← declaration.outline (depth + 2)
    return classLine depth "DeclarationExpr" :: fieldHeading depth "declaration" :: inner
  | .unknown _ rawText =>
    some [classLine depth "Unknown", fieldLine depth "raw_text" (rawText.getD "None")]

def Expression.outlines (depth : Int) : List Expression → Option (List String)
  | [] => some []
  | e :: es => do
    let first ← e.outline depth
    let others ← Expression.outlines depth es
    return first ++ others

/-- The arguments of the call at `depth`, each below a line with its index. -/
def Argument.outlines (depth : Int) : List Argument → Option (List String)
  | [] => some []
  | .mk expression index _ :: rest => do
    let first ← expression.outline (depth + 3)
    let others ← Argument.outlines depth rest
    return indexLine depth index :: first ++ others

def Function.outlineOption (depth : Int) : Option Function → Option (List String)
  | none => some [fieldLine depth "declaration" "None"]
  | some f => do
    let inner ← f.outline (depth + 2)
    return fieldHeading depth "declaration" :: inner

def Function.outline (depth : Int) : Function → Option (List String)
  | .mk _ name parameters body => do
    let inner ← body.outline depth
    return classLine depth "FunctionDeclaration" :: fieldLine depth "name" name ::
      fieldHeading depth "parameters" :: parameters.flatMap (Parameter.outline (depth + 2)) ++ inner

/-- The body of the function at `depth`. -/
def Body.outline (depth : Int) : Body → Option (List String)
  | .none => some [fieldLine depth "body" "None"]
  | .unfinished => none
  | .statement s => do
    let inner ← s.outline (depth + 2)
    return fieldHeading depth "body" :: inner

def Declaration.outline (depth : Int) : Declaration → Option (List String)
  | .function f => f.outline depth
  | .parameter p => some (p.outline depth)
  | .plain name _ => some [classLine depth "Declaration", fieldLine depth "name" name]

def Statement.outline (depth : Int) : Statement → Option (List String)
  | .expression _ expression => do
    let inner ← expression.outline (depth + 2)
    return classLine depth "ExpressionStatement" :: fieldHeading depth "expression" :: inner
  | .definition _ declaration => do
    let inner ← declaration.outline (depth + 2)
    return classLine depth "DeclarationStatement" :: fieldHeading depth "declaration" :: inner
  | .block _ statements => do
    let inner ← Statement.outlines (depth + 2) statements
    return classLine depth "Block" :: fieldHeading depth "statements" :: inner

def Statement.outlines (depth : Int) : List Statement → Option (List String)
  | [] => some []
  | s :: ss => do
    let first ← s.outline depth
    let others ← Statement.outlines depth ss
    return first ++ others
end

/-- The outline of a part as one text, its first line `depth` levels deep. -/
def Part.outline (depth : Int) (part : Part) : Option String :=
  ("\n".intercalate ·) <$> match part with
    | expression e => e.outline depth
    | statement s => s.outline depth
    | declaration d => d.outline depth

end ScriptIR
