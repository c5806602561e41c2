import ScriptIR.Diagnostics.Collector
import ScriptIR.Types.Literal

/-!
# Issues of lowering

Everything that lowering can have to say about a node. A malformed node breaks a rule of the tree's
structure; the other issues degrade a node or only inform.
-/
namespace ScriptIR

/-- How a node breaks the structure that its kind asks for. -/
inductive Malformation where
  | emptyWrapper (tag : String)
  | extraChildren (tag : String) (count : Nat)
  | emptyPipeline
  | emptyScriptBlock
  | noCallee
  | calleeNotNamed (tag : String)
  | noOperator (tag : String)
  | operandCount (tag : String) (count : Nat)
  | unaryToken (token : Option String)
  | noOperand
  | conversionParts (count : Nat)
  | notADefinition (tag : String)
  | unnamedFunction
deriving Repr, DecidableEq

def Malformation.message : Malformation → String
  | emptyWrapper tag => tag ++ " wraps no expression"
  | extraChildren tag count => tag ++ " has " ++ toString count ++ " children, lowering the first"
  | emptyPipeline => "Pipeline has no stages"
  | emptyScriptBlock => "Script block has no statements"
  | noCallee => "Command has no callee"
  | calleeNotNamed tag => "First child of a command must name the callee, got " ++ tag
  | noOperator tag => tag ++ " has no operator"
  | operandCount tag count => tag ++ " needs 2 operands, got " ++ toString count
  | unaryToken token =>
    "Unsupported unary operator token: " ++ (token.map Text.quote).getD "None"
  | noOperand => "Unary expression has no operand"
  | conversionParts count =>
    "Conversion needs a type and an operand, got " ++ toString count ++ " children"
  | notADefinition tag => "Cannot lower " ++ tag ++ " as a declaration"
  | unnamedFunction => "Function definition has no name"

inductive Category where
  | malformedNode
  | unsupportedKind
  | ambiguousDeclaration
  | unresolvedSymbol
deriving Repr, DecidableEq

def Category.name : Category → String
  | malformedNode => "MalformedNodeError"
  | unsupportedKind => "UnsupportedNodeKind"
  | ambiguousDeclaration => "AmbiguousDeclarationWarning"
  | unresolvedSymbol => "UnresolvedSymbolWarning"

inductive Issue where
  | malformed (malformation : Malformation)
  | unsupportedKind (tag : String)
  | unidentifiedLiteral (tag : String)
  | memberAccess (code : Option String)
  | ambiguousCallee (count : Nat) (callee : String)
  | unresolvedCallee (callee : String)
  | undeclaredParameter (callee name : String)
  | noTypeIdentifier
  | invalidType (error : TypeLiteral.Invalid)
deriving Repr, DecidableEq

namespace Issue

def message : Issue → String
  | malformed m => m.message
  | unsupportedKind tag => "Unsupported expression kind: " ++ tag
  | unidentifiedLiteral tag => "Unidentified literal type for " ++ tag
  | memberAccess code => "Member access is not lowered: " ++ code.getD "None"
  | ambiguousCallee count callee =>
    toString count ++ " declarations found for '" ++ callee ++ "', using the innermost one"
  | unresolvedCallee callee =>
    "No declaration found for '" ++ callee ++ "', arguments keep their syntactic index"
  | undeclaredParameter callee name => "'" ++ callee ++ "' declares no parameter " ++ name
  | noTypeIdentifier => "Type reference has no identifier"
  | invalidType e => e.message

def severity : Issue → Severity
  | malformed _ => .error
  | memberAccess _ | unresolvedCallee _ => .info
  | _ => .warning

def category : Issue → Category
  | malformed _ => .malformedNode
  | unsupportedKind _ | unidentifiedLiteral _ | memberAccess _ => .unsupportedKind
  | ambiguousCallee _ _ => .ambiguousDeclaration
  | unresolvedCallee _ | undeclaredParameter _ _ | noTypeIdentifier | invalidType _ =>
    .unresolvedSymbol

/-- The report of an issue about a node. -/
def report (issue : Issue) (subject : Option Attributes) : Report where
  severity := issue.severity
  message := issue.message
  stage := some "lowering"
  subject := subject
  category := some issue.category.name

end Issue

end ScriptIR
