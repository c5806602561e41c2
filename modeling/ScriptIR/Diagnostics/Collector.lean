import ScriptIR.Diagnostics.Basic

/-!
# Collecting diagnostics

A collector keeps the diagnostics of a run in order and counts its errors and warnings. What it
takes up is also written to the log. Information is kept only by a verbose collector, and a strict
one stops the run at the first error, after keeping it.
-/
namespace ScriptIR

structure Collector where
  entries : Array Diagnostic := #[]
  verbose : Bool := false
  debug : Bool := false
  strict : Bool := false
  errorCount : Nat := 0
  warningCount : Nat := 0
  defaultStage : String := "unknown"
deriving Repr

/-- What is to be reported. The stage is the collector's own if none is named. -/
structure Report where
  severity : Severity
  message : String
  stage : Option String := none
  subject : Option Attributes := none
  category : Option String := none
deriving Repr

/-- Why a report stops the run: the collector is strict, or the subject's file cannot be shown. -/
inductive Stop where
  | strict (entry : Diagnostic)
  | notAFileName (error : NotAFileName)
deriving Repr

/-- The collector after a report, the line for the log, and whether the run stops. -/
structure Reported where
  collector : Collector
  line : Option LogLine
  stop : Option Stop
deriving Repr

namespace Collector

/-- A collector for a log level: `debug` and `info` make it verbose. -/
def forLevel (level : Option String) (verbose debug strict : Bool) : Collector where
  verbose := verbose || level == some "debug" || level == some "info"
  debug := debug || level == some "debug"
  strict := strict

/-- The entry for a report. Its place is that of the subject; without one it has none. -/
def entry (c : Collector) (r : Report) : Diagnostic :=
  let place : Location := (r.subject.map Attributes.location).getD {}
  { severity := r.severity
    message := r.message
    stage := (nonEmpty? r.stage).getD c.defaultStage
    line := place.line
    column := place.column
    file := place.file
    subject := r.subject
    category := r.category }

/-- The collector with one more entry, not counted yet. -/
def push (c : Collector) (d : Diagnostic) : Collector :=
  { c with entries := c.entries.push d }

def count (c : Collector) : Severity → Collector
  | .error => { c with errorCount := c.errorCount + 1 }
  | .warning => { c with warningCount := c.warningCount + 1 }
  | _ => c

/-- Keeps the report as an entry and logs it. An entry that cannot be shown is kept, but not counted
and not logged. -/
def keep (c : Collector) (r : Report) : Reported :=
  let d := c.entry r
  match d.text? with
  | .error e => ⟨c.push d, none, some (.notAFileName e)⟩
  | .ok text =>
    ⟨(c.push d).count r.severity, some ⟨r.severity, text⟩,
      if r.severity = .error && c.strict then some (.strict d) else none⟩

/-- Takes up a report. Information that is not kept is only logged, by its message. -/
def report (c : Collector) (r : Report) : Reported :=
  if r.severity = .info && !c.verbose then ⟨c, some ⟨.info, r.message⟩, none⟩ else c.keep r

def hasErrors (c : Collector) : Bool :=
  0 < c.errorCount

def inCategory (c : Collector) (category : Option String) : List Diagnostic :=
  c.entries.toList.filter (·.category == category)

def messages (c : Collector) (least : Severity) : Except NotAFileName (List String) :=
  (c.entries.toList.filter (·.severity.atLeast least)).mapM Diagnostic.text?

/-- The lines that a user should see, and the number of errors and warnings. -/
def summary (c : Collector) : Except NotAFileName String := do
  if c.entries.isEmpty then return "No diagnostics."
  let least : Severity := if c.debug then .debug else if c.verbose then .info else .warning
  let lines ← c.messages least
  return "\n".intercalate lines ++ "\nLowering summary: " ++ toString c.errorCount ++
    " error(s), " ++ toString c.warningCount ++ " warning(s)"

end Collector

end ScriptIR
