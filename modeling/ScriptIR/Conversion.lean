import ScriptIR.Json.Writer
import ScriptIR.Lowering.Script
import ScriptIR.Program.Outline
import ScriptIR.Syntax.Document

/-!
# From document to program text

`convert` takes a syntax tree document as text to the text of the lowered program. A document that
is refused, or an error in strict mode, gives a failed conversion with its messages; what remains is
a breakdown, which gives none.
-/
namespace ScriptIR

inductive Format where
  | json
  | outline
deriving Repr, DecidableEq

structure Options where
  /-- The file that the document came from, if it did. -/
  source : Option String := none
  /-- Whether the root stands as an expression instead of a script. -/
  asExpression : Bool := false
  logLevel : String := "error"
  strict : Bool := false
  format : Format := .json
  config : Config := {}
deriving Repr

structure Conversion where
  success : Bool
  /-- The program, or a word on why there is none. -/
  result : String
  messages : List String
deriving Repr, DecidableEq

/-- Why a conversion has no result at all. -/
inductive Breakdown where
  | infiniteNumber
  | malformed (malformation : Malformation) (location : Location)
  | notAFileName (error : NotAFileName)
  | scope (error : ScopeError)
  /-- A call inside the body of its own function is to be shown with its declaration. -/
  | endlessOutline

/-- A conversion or a breakdown, and the lines logged until then. -/
structure Converted where
  outcome : Except Breakdown Conversion
  log : List LogLine

namespace Options

def collector (o : Options) : Collector :=
  .forLevel (some o.logLevel) false false o.strict

def lower (o : Options) (n : Node) : Lower Part :=
  if o.asExpression then do return .expression (← lowerExpression o.config n)
  else do return .statement (← lowerScript o.config n)

def write (o : Options) (part : Part) : Except Breakdown String :=
  match o.format with
  | .outline =>
    match part.outline 0 with
    | some text => .ok text
    | none => .error .endlessOutline
  | .json =>
    match part.document with
    | .ok document => .ok document.pretty
    | .error e => .error (.notAFileName e)

end Options

/-- A failed or finished conversion with the messages of a collector. -/
def conversionWith (c : Collector) (success : Bool) (result : String) :
    Except Breakdown Conversion :=
  match c.messages .warning with
  | .ok messages => .ok ⟨success, result, messages⟩
  | .error e => .error (.notAFileName e)

/-- The conversion of a document that was refused: the refusal is reported even in strict mode. -/
def refusedConversion (o : Options) (e : DocumentError) : Converted :=
  let loading := { o.collector with defaultStage := "loading", strict := false }
  let reported := loading.report { severity := .error, message := e.message }
  ⟨conversionWith reported.collector false "Loading failed", reported.line.toList⟩

/-- The conversion of a tree, from the session after lowering it and the outcome of that. -/
def conversionOf (o : Options) (outcome : Except Fault Part) (s : Session) :
    Except Breakdown Conversion :=
  match outcome with
  | .ok part =>
    match o.write part with
    | .ok text => conversionWith s.collector true text
    | .error b => .error b
  | .error (.stopped (.strict _)) => conversionWith s.collector false "Lowering aborted"
  | .error (.stopped (.notAFileName e)) => .error (.notAFileName e)
  | .error (.malformed m site) => .error (.malformed m site.attributes.location)
  | .error (.scope e) => .error (.scope e)

def noticeLines (notices : List Notice) : List LogLine :=
  notices.map fun n => ⟨.debug, n.text⟩

def convertLoaded (o : Options) : Except LoadFault Node × List Notice → Converted
  | (.ok n, notices) =>
    let (outcome, s) := (Session.start o.collector).run (o.lower n)
    ⟨conversionOf o outcome s, noticeLines notices ++ s.trace.toList.filterMap Event.line?⟩
  | (.error (.document e), notices) =>
    let refused := refusedConversion o e
    ⟨refused.outcome, noticeLines notices ++ refused.log⟩
  | (.error .infiniteNumber, notices) => ⟨.error .infiniteNumber, noticeLines notices⟩

def convert (o : Options) (text : String) : Converted :=
  convertLoaded o (Node.loadText o.source text)

end ScriptIR
