/-!
# Kinds of syntax nodes

The closed list of node kinds that lowering tells apart. The parser names a node by a tag: the name
of its kind, with or without `Ast` at the end. Every other tag belongs to the kind `unknown`.
-/
namespace ScriptIR

inductive Kind where
  | commandExpression
  | parenExpression
  | statementBlock
  | scriptBlockExpression
  | pipeline
  | scriptBlock
  | namedBlock
  | command
  | commandParameter
  | switchStatement
  | assignmentStatement
  | variableExpression
  | binaryExpression
  | unaryExpression
  | constantExpression
  | stringConstantExpression
  | expandableStringExpression
  | arrayExpression
  | arrayLiteral
  | convertExpression
  | memberExpression
  | invokeMemberExpression
  | functionDefinition
  | paramBlock
  | parameter
  | typeConstraint
  | typeExpression
  | typeReference
  | identifier
  | unknown
deriving Repr, DecidableEq

namespace Kind

def name : Kind → String
  | commandExpression => "CommandExpression"
  | parenExpression => "ParenExpression"
  | statementBlock => "StatementBlock"
  | scriptBlockExpression => "ScriptBlockExpression"
  | pipeline => "Pipeline"
  | scriptBlock => "ScriptBlock"
  | namedBlock => "NamedBlock"
  | command => "Command"
  | commandParameter => "CommandParameter"
  | switchStatement => "SwitchStatement"
  | assignmentStatement => "AssignmentStatement"
  | variableExpression => "VariableExpression"
  | binaryExpression => "BinaryExpression"
  | unaryExpression => "UnaryExpression"
  | constantExpression => "ConstantExpression"
  | stringConstantExpression => "StringConstantExpression"
  | expandableStringExpression => "ExpandableStringExpression"
  | arrayExpression => "ArrayExpression"
  | arrayLiteral => "ArrayLiteral"
  | convertExpression => "ConvertExpression"
  | memberExpression => "MemberExpression"
  | invokeMemberExpression => "InvokeMemberExpression"
  | functionDefinition => "FunctionDefinition"
  | paramBlock => "ParamBlock"
  | parameter => "Parameter"
  | typeConstraint => "TypeConstraint"
  | typeExpression => "TypeExpression"
  | typeReference => "TypeReference"
  | identifier => "Identifier"
  | unknown => "Unknown"

/-- Every kind but `unknown`. -/
def named : List Kind :=
  [commandExpression, parenExpression, statementBlock, scriptBlockExpression, pipeline, scriptBlock,
    namedBlock, command, commandParameter, switchStatement, assignmentStatement, variableExpression,
    binaryExpression, unaryExpression, constantExpression, stringConstantExpression,
    expandableStringExpression, arrayExpression, arrayLiteral, convertExpression, memberExpression,
    invokeMemberExpression, functionDefinition, paramBlock, parameter, typeConstraint,
    typeExpression, typeReference, identifier]

/-- A tag without one `Ast` at its end. -/
def stem (tag : String) : String :=
  if "Ast".toList.isSuffixOf tag.toList then String.ofList (tag.toList.take (tag.length - 3))
  else tag

/-- The kind that a tag names. -/
def ofTag (tag : String) : Kind :=
  (named.find? fun k => k.name == stem tag).getD unknown

/-- Kinds that stand around a single expression. -/
def isWrapper : Kind → Bool
  | commandExpression | parenExpression | statementBlock | scriptBlockExpression => true
  | _ => false

/-- Kinds whose childless nodes are empty groups, and no elements or arguments. -/
def isGrouping : Kind → Bool
  | pipeline | arrayExpression | arrayLiteral | namedBlock => true
  | k => k.isWrapper

/-- Kinds that are a list of statements where a statement stands. -/
def isBlock : Kind → Bool
  | scriptBlock | namedBlock | statementBlock | switchStatement => true
  | _ => false

end Kind

end ScriptIR
