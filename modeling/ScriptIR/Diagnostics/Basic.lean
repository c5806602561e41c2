import ScriptIR.Syntax.Node

/-!
# Diagnostics

One finding about a program: how severe it is, what it says, the stage that made it, a place, the
syntax node it is about, and a category.
-/
namespace ScriptIR

inductive Severity where
  | debug
  | info
  | warning
  | error
deriving Repr, DecidableEq

namespace Severity

def rank : Severity → Nat
  | debug => 0
  | info => 1
  | warning => 2
  | error => 3

/-- Severities are ordered from `debug` up to `error`. -/
def atLeast (s least : Severity) : Bool :=
  least.rank ≤ s.rank

def name : Severity → String
  | debug => "debug"
  | info => "info"
  | warning => "warning"
  | error => "error"

def label : Severity → String
  | debug => "DEBUG"
  | info => "INFO"
  | warning => "WARNING"
  | error => "ERROR"

end Severity

structure LogLine where
  level : Severity
  text : String
deriving Repr, DecidableEq

def LogLine.render (l : LogLine) : String :=
  l.level.label ++ ": " ++ l.text

structure Diagnostic where
  severity : Severity
  message : String
  stage : String
  line : Int := 0
  column : Int := 0
  file : Json := .null
  subject : Option Attributes := none
  category : Option String := none
deriving Repr

namespace Diagnostic

/-- The diagnostic as one line: severity, stage and place, category, message. -/
def text (d : Diagnostic) : String :=
  let place := d.stage :: fileParts d.file ++ Location.positionParts d.line d.column
  let category := match nonEmpty? d.category with
    | some c => "(" ++ c ++ ") "
    | none => ""
  d.severity.label ++ " [" ++ ":".intercalate place ++ "]: " ++ category ++ d.message

/-- The diagnostic as one line, if the file of its place can be shown. -/
def text? (d : Diagnostic) : Except NotAFileName String :=
  if isFileName d.file then .ok d.text else .error ⟨d.file⟩

end Diagnostic

end ScriptIR
