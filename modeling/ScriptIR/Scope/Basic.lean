import ScriptIR.Config
import ScriptIR.Program.Basic

/-!
# Scopes

Declarations live in scopes, which nest as the blocks and functions of a program do. `ScopeStack`
holds the scopes that are open, each with the scopes inside it that were closed before. A function
is looked up from the innermost open scope outwards, the newest declaration of a scope first.
-/
namespace ScriptIR

/-- The block or function that a scope belongs to. -/
inductive Owner where
  | block (code : Option String)
  | function (name : String) (code : Option String)
deriving Repr, DecidableEq

def Owner.className : Owner → String
  | block _ => "Block"
  | function _ _ => "FunctionDeclaration"

/-- A scope with its declarations in order, and the closed scopes inside it in order. Only the
global scope belongs to nothing. -/
structure Scope where
  owner : Option Owner := none
  /-- Tells the owner from others that look alike. -/
  serial : Nat := 0
  declarations : List Declaration := []
  children : List Scope := []

namespace Scope

def declare (s : Scope) (d : Declaration) : Scope :=
  { s with declarations := s.declarations ++ [d] }

def addChild (s child : Scope) : Scope :=
  { s with children := s.children ++ [child] }

def lookup (cfg : Config) (s : Scope) (name : String) : List Declaration :=
  s.declarations.filter fun d => cfg.key d.name == cfg.key name

def functions (cfg : Config) (s : Scope) (name : String) : List Function :=
  (s.lookup cfg name).reverse.filterMap Declaration.function?

end Scope

inductive ScopeError where
  | leavingGlobal
  | mismatch (leaving innermost : Owner)
deriving Repr, DecidableEq

def ScopeError.message : ScopeError → String
  | leavingGlobal => "Cannot leave the global scope"
  | mismatch leaving innermost =>
    "Scope mismatch: leaving " ++ leaving.className ++ " but the innermost scope belongs to " ++
      innermost.className

/-- The open scopes: the innermost one, and those around it from the inside out. -/
structure ScopeStack where
  current : Scope := {}
  enclosing : List Scope := []

namespace ScopeStack

def depth (s : ScopeStack) : Nat :=
  s.enclosing.length

def enter (s : ScopeStack) (owner : Owner) (serial : Nat := 0) : ScopeStack :=
  ⟨{ owner := some owner, serial := serial }, s.current :: s.enclosing⟩

/-- Closes the innermost scope, which has to belong to the very owner that is named. -/
def leave (s : ScopeStack) (owner : Owner) (serial : Nat := 0) : Except ScopeError ScopeStack :=
  match s.enclosing with
  | [] => .error .leavingGlobal
  | parent :: rest =>
    match s.current.owner with
    | none => .error .leavingGlobal
    | some innermost =>
      if innermost = owner ∧ s.current.serial = serial then .ok ⟨parent.addChild s.current, rest⟩
      else .error (.mismatch owner innermost)

def declare (s : ScopeStack) (d : Declaration) : ScopeStack :=
  { s with current := s.current.declare d }

/-- The innermost scope with its newest declaration replaced. -/
def redeclare (s : ScopeStack) (d : Declaration) : ScopeStack :=
  { s with current :=
    { s.current with declarations := s.current.declarations.dropLast ++ [d] } }

/-- The functions of a name in the open scopes: inner scopes first, newer functions first. -/
def resolve (cfg : Config) (s : ScopeStack) (name : String) : List Function :=
  (s.current :: s.enclosing).flatMap fun scope => scope.functions cfg name

/-- The global scope with all scopes inside it, the open ones last. -/
def tree (s : ScopeStack) : Scope :=
  s.enclosing.foldl (fun inner outer => outer.addChild inner) s.current

@[simp] theorem depth_enter (s : ScopeStack) (owner : Owner) (serial : Nat) :
    (s.enter owner serial).depth = s.depth + 1 := rfl

@[simp] theorem depth_declare (s : ScopeStack) (d : Declaration) :
    (s.declare d).depth = s.depth := rfl

/-- A scope that is left at once stays behind as an empty child. -/
theorem leave_enter (s : ScopeStack) (owner : Owner) (serial : Nat) :
    (s.enter owner serial).leave owner serial =
      .ok { s with current := s.current.addChild { owner := some owner, serial := serial } } := by
  simp [enter, leave]

end ScopeStack

end ScriptIR
