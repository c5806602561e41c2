import ScriptIR.CommandLine.Arguments
import ScriptIR.Syntax.File
import ScriptIR.Text.ControlSequence
import ScriptIR.Text.Encoding

/-!
# The command

`run` carries out a command line on a storage: it reads the document, converts it, and writes the
program to the output file or shows it. Log lines come first on the error stream, then the messages
of the conversion. The exit code is 2 for a wrong command line, and 1 if anything failed or any
message reports an error. A stream that is no terminal gets what is shown on it, though not the log,
without control sequences. A program with half of a surrogate pair in it can be neither shown nor
saved; messages can be shown nevertheless.
-/
namespace ScriptIR.CommandLine

/-- What ends the command without a result. -/
inductive Crash where
  | notAPath
  | undecodable
  | breakdown (cause : Breakdown)
  /-- A text for the standard stream that cannot be encoded. -/
  | notShown (text : String)
  | notSaved (error : Text.Unencodable)

/-- How the command ended: the characters that it shows, and the lines of the error stream, the log
before the messages. -/
structure Ended where
  exitCode : Nat
  shown : String := ""
  log : List String := []
  messages : List String := []
  crash : Option Crash := none

def Ended.plainShown (e : Ended) : String :=
  Text.plain e.shown

def Ended.plainMessages (e : Ended) : List String :=
  e.messages.map Text.plain

/-- The crash of a command whose standard stream is no terminal. -/
def Crash.plain : Crash → Crash
  | notShown text => notShown (Text.plain text)
  | crash => crash

def Request.options (r : Request) (source : String) : Options where
  source := some source
  asExpression := r.asExpression
  logLevel := r.logLevel.name
  strict := r.strict
  format := r.format
  config := { ignoreCase := !r.caseSensitive }

def visibleLines (least : Severity) (log : List LogLine) : List String :=
  (log.filter (·.level.atLeast least)).map LogLine.render

def reportsError (message : String) : Bool :=
  "ERROR".toList.isPrefixOf message.toList

def exitCode (messages : List String) : Nat :=
  if messages.any reportsError then 1 else 0

/-- Why a finished program is not saved. -/
inductive SaveFailure where
  | storage (error : StorageError)
  | unencodable (error : Text.Unencodable)

/-- Writes a file. It is opened before the text is encoded, so a text that cannot be encoded leaves
the file empty. -/
def writeFile {m : Type → Type} [Monad m] (storage : Storage m) (path text : String) :
    m (Except SaveFailure Unit) := do
  match Text.encode text with
  | .ok characters => return (← storage.write path characters).mapError .storage
  | .error e =>
    match ← storage.write path "" with
    | .ok () => return .error (.unencodable e)
    | .error fault => return .error (.storage fault)

/-- Writes a finished program where it is wanted, in a directory that is made for it. -/
def save {m : Type → Type} [Monad m] (storage : Storage m) (output text : String) :
    m (Except SaveFailure Unit) := do
  let path := Text.normalPath output
  match ← storage.makeParent path with
  | .ok () => writeFile storage path text
  | .error e => return .error (.storage e)

/-- Shows a text on the standard stream, if that can take it. -/
def Ended.showing (ended : Ended) (text : String) : Ended :=
  match Text.encode text with
  | .ok characters => { ended with shown := characters }
  | .error _ => { ended with exitCode := 1, crash := some (.notShown text) }

/-- Shows a finished program, or saves it. -/
def deliver {m : Type → Type} [Monad m] (storage : Storage m) (r : Request) (c : Conversion)
    (log : List String) : m Ended := do
  let ended : Ended := { exitCode := exitCode c.messages, log := log, messages := c.messages }
  match r.output with
  | none => return ended.showing (c.result ++ "\n")
  | some output =>
    match ← save storage output c.result with
    | .ok () => return ended
    | .error (.storage e) =>
      return { ended with
        exitCode := 1, messages := c.messages ++ ["Failed to write output file: " ++ e.message] }
    | .error (.unencodable e) => return { ended with exitCode := 1, crash := some (.notSaved e) }

def convertText {m : Type → Type} [Monad m] (storage : Storage m) (r : Request) (text : String) :
    m Ended := do
  let source ← storage.fullPath (Text.normalPath r.input)
  let converted := ScriptIR.convert (r.options source) text
  let log := visibleLines r.logLevel converted.log
  match converted.outcome with
  | .error b => return { exitCode := 1, log := log, crash := some (.breakdown b) }
  | .ok c =>
    if c.success then deliver storage r c log
    else
      return {
        exitCode := 1, log := log, messages := c.messages ++ ["Lowering failed: " ++ c.result] }

def execute {m : Type → Type} [Monad m] (storage : Storage m) (r : Request) : m Ended := do
  match ← storage.read (Text.normalPath r.input) with
  | .error e => return { exitCode := 1, messages := ["Failed to read input file: " ++ e.message] }
  | .ok bytes =>
    match Text.decodeFile? bytes with
    | none => return { exitCode := 1, crash := some .undecodable }
    | some text => convertText storage r text

def refuse (e : UsageError) : Ended where
  exitCode := 2
  messages := ["Error: " ++ e.message]

def run {m : Type → Type} [Monad m] (storage : Storage m) (words : List String) : m Ended := do
  match parse words with
  | .error (.usage e) => return refuse e
  | .error .notAPath => return { exitCode := 1, crash := some .notAPath }
  | .ok .help => return { exitCode := 0, shown := helpText }
  | .ok (.convert r) =>
    if ← storage.isThere r.input then execute storage r
    else return refuse (.noSuchFile r.input)

end ScriptIR.CommandLine
