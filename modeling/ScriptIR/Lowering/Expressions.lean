import ScriptIR.Lowering.Annotation
import ScriptIR.Lowering.Binding
import ScriptIR.Lowering.Definition

/-!
# Expressions and statements by kind

One function for each way in which a node becomes an expression, given the readings of its children,
and the choice between them by the node's kind. Lowering an expression recovers from malformed
nodes: they are reported and become unknown expressions.
-/
namespace ScriptIR.Lower

variable (cfg : Config) (site : Site) (children : List (Tree Reading))

/-- A wrapper is its only child. Further children are reported and dropped. -/
def wrapper : Lower Expression :=
  match children with
  | [] => malformed (.emptyWrapper site.attributes.tag) site
  | first :: rest => do
    unless rest.isEmpty do
      report (some site) (.malformed (.extraChildren site.attributes.tag children.length))
    first.label.expression

/-- The children as the statements of a block in a scope of its own. -/
def blockOf (statements : List (Tree Reading)) : Lower Statement := do
  let lowered ← inScope (.block site.attributes.code) (statements.mapM (·.label.statement))
  pure (.block site.origin lowered)

/-- A block; parameters belong to the function around it and are no statements. -/
def block : Lower Statement :=
  blockOf site (children.filter (·.label.kind ≠ .paramBlock))

/-- A pipeline of one stage is that stage; more stages form a block. -/
def pipeline : Lower Expression :=
  match children with
  | [] => malformed .emptyPipeline site
  | [stage] => stage.label.expression
  | _ => do
    let statement ← block site children
    pure (.compound site.origin statement)

/-- A script block of one statement is that statement, without a scope of its own. -/
def scriptBlock : Lower Expression :=
  match children with
  | [] => malformed .emptyScriptBlock site
  | [only] => do
    let statement ← only.label.statement
    pure (.compound site.origin statement)
  | _ => do
    let statement ← blockOf site children
    pure (.compound site.origin statement)

/-- A call; the first child names the callee, the others are its arguments. -/
def command : Lower Expression :=
  match children with
  | [] => malformed .noCallee site
  | callee :: items => do
    let named := callee.label.site
    unless named.attributes.kind = .stringConstantExpression do
      malformed (.calleeNotNamed named.attributes.tag) named
    let name := named.attributes.literalText
    let candidates ← resolve cfg site name
    match candidates with
    | [] => report (some site) (.unresolvedCallee name)
    | [_] => pure ()
    | _ => report (some site) (.ambiguousCallee candidates.length name)
    let arguments ← bindArguments cfg name candidates items
    pure (.call site.origin name arguments candidates.head?)

def reference : Lower Expression := do
  let type ← typeOfText site.attributes.typeText (some site)
  pure (.reference site.origin site.attributes.identifier type)

/-- A binary operator or an assignment. Its type is the first one known of its operands. -/
def binary : Lower Expression := do
  let some operator := nonEmpty? site.attributes.operator
    | malformed (.noOperator site.attributes.tag) site
  match children with
  | [left, right] =>
    let lhs ← left.label.expression
    let rhs ← right.label.expression
    pure (.binary site.origin operator lhs rhs (.firstKnown [lhs.type, rhs.type]))
  | _ => malformed (.operandCount site.attributes.tag children.length) site

/-- The operators that a unary token can mean, and whether they stand behind their operand. -/
def unaryOperators : List (String × String × Bool) :=
  [("PostfixIncrement", "++", true), ("PostfixDecrement", "--", true),
    ("PrefixIncrement", "++", false), ("PrefixDecrement", "--", false),
    ("PostfixPlusPlus", "++", true), ("PostfixMinusMinus", "--", true),
    ("PlusPlus", "++", false), ("MinusMinus", "--", false),
    ("PrefixPlusPlus", "++", false), ("PrefixMinusMinus", "--", false)]

def unary : Lower Expression := do
  let token := site.attributes.unaryToken
  let some (operator, isPostfix) := unaryOperators.lookup (token.getD "")
    | malformed (.unaryToken token) site
  match children with
  | [] => malformed .noOperand site
  | operandNode :: _ =>
    let operand ← operandNode.label.expression
    pure (.unary site.origin operator isPostfix operand)

def literalType? : Kind → Option TypeExpr
  | .constantExpression => some (.named cfg.integerType)
  | .stringConstantExpression => some (.named cfg.stringType)
  | _ => none

def literal : Lower Expression := do
  let text := site.attributes.literalText
  match literalType? cfg site.attributes.kind with
  | some type => pure (.literal site.origin type text text)
  | none =>
    report (some site) (.unidentifiedLiteral site.attributes.tag)
    pure (.literal site.origin .unknown text text)

/-- An array of the leaves below it, empty groups left out. -/
def array : Lower Expression := do
  let type ← typeOfText site.attributes.typeText (some site)
  let elements ← (children.flatMap valueLeaves).mapM id
  pure (.initializer site.origin type elements)

/-- A conversion; the type stands on the node itself or in its first child. -/
def cast : Lower Expression :=
  match children with
  | [typeNode, operand] => do
    let target ← match nonEmpty? site.attributes.typeText with
      | some text => typeOfText (some text) (some site)
      | none => typeOfNode typeNode.label.site
    let inner ← operand.label.expression
    pure (.cast site.origin target inner)
  | _ => malformed (.conversionParts children.length) site

/-- Access to members is not modelled. -/
def memberAccess : Lower Expression := do
  report (some site) (.memberAccess site.attributes.code)
  pure site.unknown

def definition : Lower Expression := do
  let f ← function cfg site children
  pure (.definition site.origin (.function f))

/-- A statement where an expression stands. -/
def compound (statement : Lower Statement) : Lower Expression := do
  let lowered ← statement
  pure (.compound site.origin lowered)

/-- How a node of the given kind becomes an expression, if its kind is supported. -/
def expressionOf? : Kind → Option (Lower Expression)
  | .commandExpression | .parenExpression | .statementBlock | .scriptBlockExpression =>
    some (wrapper site children)
  | .pipeline => some (pipeline site children)
  | .scriptBlock => some (scriptBlock site children)
  | .command => some (command cfg site children)
  | .commandParameter | .variableExpression => some (reference site)
  | .switchStatement => some (compound site (block site children))
  | .assignmentStatement | .binaryExpression => some (binary site children)
  | .unaryExpression => some (unary site children)
  | .constantExpression | .stringConstantExpression => some (literal cfg site)
  | .functionDefinition => some (definition cfg site children)
  | .arrayExpression | .arrayLiteral => some (array site children)
  | .convertExpression => some (cast site children)
  | .memberExpression | .invokeMemberExpression => some (memberAccess site)
  | _ => none

def expression : Lower Expression := do
  record (.dispatched site.path site.attributes.tag)
  match expressionOf? cfg site children site.attributes.kind with
  | none =>
    report (some site) (.unsupportedKind site.attributes.tag)
    pure site.unknown
  | some lowered =>
    recovering lowered fun m culprit => do
      report (some culprit) (.malformed m)
      pure site.unknown

def statement : Lower Statement :=
  if site.attributes.kind.isBlock then block site children
  else if site.attributes.kind = .functionDefinition then do
    let f ← function cfg site children
    pure (.definition site.origin (.function f))
  else do
    let e ← expression cfg site children
    pure (.expression site.origin e)

end ScriptIR.Lower
