import ScriptIR.Dictionary
import ScriptIR.Syntax.Location
import ScriptIR.Types.Basic

/-!
# Lowered programs

Expressions, statements and function declarations with types. Each keeps the location and the code
of the syntax node that it came from. A call holds the declaration that it was bound to; a call
inside the body of its own function holds the function with an unfinished body, which stands for the
body that the call is in.
-/
namespace ScriptIR

/-- Where a part of a program came from. -/
structure Origin where
  location : Location := {}
  code : Option String := none
deriving Repr

structure Parameter where
  origin : Origin := {}
  name : String
  type : TypeExpr := .unknown
  index : Int := 0
deriving Repr

mutual
inductive Expression where
  | literal (origin : Origin) (type : TypeExpr) (rawText name : String)
  | reference (origin : Origin) (name : String) (type : TypeExpr)
  | binary (origin : Origin) (operator : String) (lhs rhs : Expression) (type : TypeExpr)
  | unary (origin : Origin) (operator : String) (isPostfix : Bool) (operand : Expression)
  | call (origin : Origin) (callee : String) (arguments : List Argument)
      (declaration : Option Function)
  | initializer (origin : Origin) (type : TypeExpr) (elements : List Expression)
  | cast (origin : Origin) (target : TypeExpr) (inner : Expression)
  | compound (origin : Origin) (statement : Statement)
  | definition (origin : Origin) (declaration : Declaration)
  | unknown (origin : Origin) (rawText : Option String)

/-- An argument with the index of its parameter and its position among the arguments. -/
inductive Argument where
  | mk (expression : Expression) (index : Int) (position : Nat)

inductive Function where
  | mk (origin : Origin) (name : String) (parameters : List Parameter) (body : Body)

/-- The body of a function, if it has one. -/
inductive Body where
  | none
  /-- As it is seen from inside. -/
  | unfinished
  | statement (statement : Statement)

/-- Whatever can be declared; of a plain declaration no more is known than its name. -/
inductive Declaration where
  | function (function : Function)
  | parameter (parameter : Parameter)
  | plain (name : String) (origin : Origin)

inductive Statement where
  | expression (origin : Origin) (expression : Expression)
  | definition (origin : Origin) (declaration : Declaration)
  | block (origin : Origin) (statements : List Statement)
end

namespace Argument

def expression : Argument → Expression
  | mk e _ _ => e

def index : Argument → Int
  | mk _ i _ => i

def position : Argument → Nat
  | mk _ _ p => p

end Argument

namespace Body

/-- The statement of a whole body. -/
@[simp] def statement? : Body → Option Statement
  | statement s => some s
  | none | unfinished => Option.none

end Body

namespace Function

def origin : Function → Origin
  | mk o _ _ _ => o

def name : Function → String
  | mk _ n _ _ => n

def parameters : Function → List Parameter
  | mk _ _ ps _ => ps

def body : Function → Body
  | mk _ _ _ b => b

def withBody (f : Function) (body : Statement) : Function :=
  mk f.origin f.name f.parameters (.statement body)

/-- The function as it is seen from inside its body. -/
def opened (f : Function) : Function :=
  mk f.origin f.name f.parameters .unfinished

/-- The parameters' names with their indices: of two parameters of one name the later index counts,
in the place of the earlier. -/
def positions (f : Function) : Dictionary Int :=
  .ofEntries (f.parameters.map fun p => (p.name, p.index))

end Function

namespace Declaration

def name : Declaration → String
  | function f => f.name
  | parameter p => p.name
  | plain name _ => name

def origin : Declaration → Origin
  | function f => f.origin
  | parameter p => p.origin
  | plain _ origin => origin

def className : Declaration → String
  | function _ => "FunctionDeclaration"
  | parameter _ => "ParameterDeclaration"
  | plain _ _ => "Declaration"

def function? : Declaration → Option Function
  | function f => some f
  | _ => none

end Declaration

namespace Statement

def origin : Statement → Origin
  | expression o _ | definition o _ | block o _ => o

end Statement

namespace Expression

def origin : Expression → Origin
  | literal o _ _ _ | reference o _ _ | binary o _ _ _ _ | unary o _ _ _ | call o _ _ _
  | initializer o _ _ | cast o _ _ | compound o _ | definition o _ | unknown o _ => o

def type : Expression → TypeExpr
  | literal _ t _ _ | reference _ _ t | binary _ _ _ _ t | initializer _ t _ | cast _ t _ => t
  | unary _ _ _ operand => operand.type
  | call .. | compound .. | definition .. | unknown .. => .unknown

/-- The arguments of a call in the order of their indices, those of one index as they came. -/
def argumentsByIndex : Expression → List Argument
  | call _ _ arguments _ =>
    arguments.mergeSort fun a b =>
      a.index < b.index || (a.index == b.index && a.position ≤ b.position)
  | _ => []

end Expression

end ScriptIR
