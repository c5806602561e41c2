import ScriptIR.Lowering.Issue
import ScriptIR.Scope.Basic

/-!
# Lowering sessions

A session is what lowering reads and changes: the scopes, the collected diagnostics, and a trace of
what happened. A run of lowering either gives a value or ends with a fault; the session is kept in
both cases.
-/
namespace ScriptIR

/-- What happened, in order: a node was lowered as an expression, a scope was entered or left, a
callee was looked up with the functions that it could mean, an issue was reported about the node at
a place. -/
inductive Event where
  | dispatched (path : Path) (tag : String)
  | entered (owner : Owner) (serial : Nat)
  | left (owner : Owner) (serial : Nat)
  | resolved (path : Path) (callee : String) (candidates : List Function)
  | reported (path : Option Path) (issue : Issue) (line : Option LogLine)

/-- The line that an event writes to the log. -/
def Event.line? : Event → Option LogLine
  | dispatched _ tag => some ⟨.debug, "Lowering expression " ++ tag⟩
  | reported _ _ line => line
  | entered .. | left .. | resolved .. => none

structure Session where
  scopes : ScopeStack := {}
  collector : Collector := {}
  trace : Array Event := #[]

/-- A session that has not lowered anything yet. Its collector takes `lowering` for its stage. -/
def Session.start (collector : Collector) : Session where
  collector := { collector with defaultStage := "lowering" }

namespace Session

def record (s : Session) (e : Event) : Session :=
  { s with trace := s.trace.push e }

def enter (s : Session) (owner : Owner) (serial : Nat) : Session :=
  { s with scopes := s.scopes.enter owner serial }.record (.entered owner serial)

def leave (s : Session) (owner : Owner) (serial : Nat) : Except ScopeError Session :=
  (s.scopes.leave owner serial).map fun scopes =>
    { s with scopes := scopes }.record (.left owner serial)

def declare (s : Session) (d : Declaration) : Session :=
  { s with scopes := s.scopes.declare d }

/-- The session with a declaration in the place of the newest one of the innermost scope. -/
def redeclare (s : Session) (d : Declaration) : Session :=
  { s with scopes := s.scopes.redeclare d }

end Session

/-- What ends a run: a malformed node outside any expression, a report that stopped it, or scopes
that were left out of order. -/
inductive Fault where
  | malformed (malformation : Malformation) (site : Site)
  | stopped (stop : Stop)
  | scope (error : ScopeError)

/-- The message of a malformed node says where the node is, if its line is known. -/
def malformedMessage (m : Malformation) (l : Location) : String :=
  m.message ++ if l.line ≤ 0 then "" else " at " ++ toString l.line ++ ":" ++ toString l.column

/-- An action of lowering. -/
abbrev Lower := EStateM Fault Session

/-- A run of an action: its outcome, and the session after it. -/
def Session.run {α : Type} (s : Session) (action : Lower α) : Except Fault α × Session :=
  match action s with
  | .ok a t => (.ok a, t)
  | .error f t => (.error f, t)

namespace Lower
variable {α : Type}

def record (e : Event) : Lower Unit :=
  fun s => .ok () (s.record e)

def declare (d : Declaration) : Lower Unit :=
  fun s => .ok () (s.declare d)

def redeclare (d : Declaration) : Lower Unit :=
  fun s => .ok () (s.redeclare d)

def malformed (m : Malformation) (site : Site) : Lower α :=
  throw (.malformed m site)

def report (subject : Option Site) (issue : Issue) : Lower Unit := fun s =>
  let reported := s.collector.report (issue.report (subject.map Site.attributes))
  let t := { s with collector := reported.collector }.record
    (.reported (subject.map Site.path) issue reported.line)
  match reported.stop with
  | some stop => .error (.stopped stop) t
  | none => .ok () t

/-- Runs `body`; a malformed node that it gives up on is taken care of by `recover`. -/
def recovering (body : Lower α) (recover : Malformation → Site → Lower α) : Lower α := fun s =>
  match body s with
  | .error (.malformed m site) t => recover m site t
  | ended => ended

/-- Runs `body`; where it gives up, the newest declaration of the innermost scope becomes `d`. -/
def orRedeclaring (d : Declaration) (body : Lower α) : Lower α := fun s =>
  match body s with
  | .ok a t => .ok a t
  | .error f t => .error f (t.redeclare d)

/-- Runs `body` in a new scope, which is left however `body` ends. Owners are numbered by the moment
at which their scopes are entered. -/
def inScope (owner : Owner) (body : Lower α) : Lower α := fun s =>
  let serial := s.trace.size
  match body (s.enter owner serial) with
  | .ok a t =>
    match t.leave owner serial with
    | .ok u => .ok a u
    | .error e => .error (.scope e) t
  | .error f t =>
    match t.leave owner serial with
    | .ok u => .error f u
    | .error e => .error (.scope e) t

/-- The functions that the callee of a command can mean, the innermost and newest first. -/
def resolve (cfg : Config) (site : Site) (callee : String) : Lower (List Function) := fun s =>
  let candidates := s.scopes.resolve cfg callee
  .ok candidates (s.record (.resolved site.path callee candidates))

end Lower

end ScriptIR
