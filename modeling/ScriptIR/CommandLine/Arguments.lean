import ScriptIR.Conversion
import ScriptIR.Storage.Basic

/-!
# Command line arguments

What the words after the command's name ask for. Options may stand before and behind the input file;
a value follows its option as the next word, or behind an equals sign, or directly behind `-o`. Of
an option given twice only the last value is looked at.
-/
namespace ScriptIR.CommandLine

structure Request where
  input : String
  output : Option String := none
  format : Format := .json
  logLevel : Severity := .warning
  strict : Bool := false
  asExpression : Bool := false
  caseSensitive : Bool := false
deriving Repr, DecidableEq

inductive UsageError where
  | unknownOption (word : String)
  | missingValue (option : String)
  | unexpectedValue (option : String)
  | invalidChoice (option value : String)
  | missingInput
  | extraArgument (word : String)
  | noSuchFile (path : String)
deriving Repr, DecidableEq

def UsageError.message : UsageError → String
  | unknownOption word => "No such option: " ++ word
  | missingValue option => "Option '" ++ option ++ "' requires an argument."
  | unexpectedValue option => "Option '" ++ option ++ "' does not take a value."
  | invalidChoice option value => "Invalid value for '" ++ option ++ "': '" ++ value ++ "'."
  | missingInput => "Missing argument 'INPUT_FILE'."
  | extraArgument word => "Got unexpected extra argument (" ++ word ++ ")"
  | noSuchFile path => "Path '" ++ path ++ "' does not exist."

inductive Switch where
  | strict
  | asExpression
  | caseSensitive
  | help
deriving Repr, DecidableEq

inductive Setting where
  | output
  | format
  | logLevel
deriving Repr, DecidableEq

def switches : List (String × Switch) :=
  [("--strict", .strict), ("--expression", .asExpression), ("--case-sensitive", .caseSensitive),
    ("--help", .help)]

def settings : List (String × Setting) :=
  [("--output", .output), ("-o", .output), ("--format", .format), ("--log-level", .logLevel)]

inductive Item where
  | argument (word : String)
  | switched (switch : Switch)
  | assigned (setting : Setting) (value : String)
deriving Repr, DecidableEq

/-- A word in front of its first equals sign, and what stands behind the sign. -/
def splitValue (word : String) : String × Option String :=
  match word.toList.dropWhile (· ≠ '=') with
  | [] => (word, none)
  | _ :: value => (String.ofList (word.toList.takeWhile (· ≠ '=')), some (String.ofList value))

/-- The value of an `-o` that is written without a blank. -/
def attachedValue? (word : String) : Option String :=
  match word.toList with
  | '-' :: 'o' :: c :: cs => some (String.ofList (c :: cs))
  | _ => none

def isOption (word : String) : Bool :=
  word.toList.head? == some '-' && word ≠ "-"

/-- The meaning of a single word; `none` if its value is the next word. -/
def readOption (word : String) : Except UsageError (Setting ⊕ Item) :=
  let (name, value) := splitValue word
  match switches.lookup name, settings.lookup name, value with
  | some s, _, none => .ok (.inr (.switched s))
  | some _, _, some _ => .error (.unexpectedValue name)
  | none, some s, none => .ok (.inl s)
  | none, some s, some v =>
    if name = "-o" then .ok (.inr (.assigned s ("=" ++ v))) else .ok (.inr (.assigned s v))
  | none, none, _ =>
    match attachedValue? word with
    | some v => .ok (.inr (.assigned .output v))
    | none => .error (.unknownOption word)

/-- The words one after the other. Behind `--` no word is an option. -/
def readItems : List String → Except UsageError (List Item)
  | [] => .ok []
  | "--" :: rest => .ok (rest.map .argument)
  | [word] =>
    if isOption word then do
      match ← readOption word with
      | .inr item => pure [item]
      | .inl _ => throw (.missingValue word)
    else .ok [.argument word]
  | word :: next :: rest =>
    if isOption word then do
      match ← readOption word with
      | .inr item => return item :: (← readItems (next :: rest))
      | .inl setting => return .assigned setting next :: (← readItems rest)
    else do return .argument word :: (← readItems (next :: rest))

def choose {α : Type} (option : String) (choices : List (String × α)) (value : String) :
    Except UsageError α :=
  match choices.find? fun c => Text.caseFold c.1 == Text.caseFold value with
  | some c => .ok c.2
  | none => .error (.invalidChoice option value)

def formats : List (String × Format) :=
  [("json", .json), ("tree", .outline)]

def logLevels : List (String × Severity) :=
  [("debug", .debug), ("info", .info), ("warning", .warning), ("error", .error)]

/-- Why the words ask for nothing: they are used wrongly, or what should name a file does not. -/
inductive Rejection where
  | usage (error : UsageError)
  | notAPath
deriving Repr, DecidableEq

/-- The values that count: of each setting the last one, in the order in which the settings first
came. -/
def assignments (items : List Item) : List (Setting × String) :=
  let given := items.filterMap fun
    | .assigned s v => some (s, v)
    | _ => none
  (given.map Prod.fst).eraseDups.filterMap fun s => (given.reverse.lookup s).map (s, ·)

def assign (r : Request) : Setting × String → Except Rejection Request
  | (.output, v) => if isPath v then .ok { r with output := some v } else .error .notAPath
  | (.format, v) => do
    let format ← (choose "--format" formats v).mapError .usage
    return { r with format := format }
  | (.logLevel, v) => do
    let logLevel ← (choose "--log-level" logLevels v).mapError .usage
    return { r with logLevel := logLevel }

def inputs (items : List Item) : List String :=
  items.filterMap fun
    | .argument word => some word
    | _ => none

/-- The request that the items make, without its input yet. -/
def settled (items : List Item) : Except Rejection Request :=
  (assignments items).foldlM assign
    { input := "", strict := items.contains (.switched .strict),
      asExpression := items.contains (.switched .asExpression),
      caseSensitive := items.contains (.switched .caseSensitive) }

/-- What the words ask for: help, or a conversion. -/
inductive Wish where
  | help
  | convert (request : Request)
deriving Repr, DecidableEq

/-- Help is given as soon as all words can be read. Otherwise the settings are looked at before the
input, and the input before any word too many. -/
def parse (words : List String) : Except Rejection Wish := do
  let items ← (readItems words).mapError .usage
  if items.contains (.switched .help) then return .help
  let request ← settled items
  match inputs items with
  | [] => throw (.usage .missingInput)
  | input :: extra =>
    if !isPath input then throw .notAPath
    match extra with
    | [] => return .convert { request with input := input }
    | word :: _ => throw (.usage (.extraArgument word))

def helpText : String :=
  "Usage: main [OPTIONS] INPUT_FILE\n\n" ++
  "  Lower a PowerShell syntax tree dump to IR.\n\n" ++
  "Options:\n" ++
  "  -o, --output PATH               Output file for the IR (default: stdout)\n" ++
  "  --format [json|tree]            Print the IR as JSON or as an indented tree\n" ++
  "  --log-level [debug|info|warning|error]\n" ++
  "                                  Set the logging level\n" ++
  "  --strict                        Abort at the first lowering error\n" ++
  "  --expression                    Lower the root node as a single expression\n" ++
  "                                  instead of a script\n" ++
  "  --case-sensitive                Match function and parameter names case-\n" ++
  "                                  sensitively\n" ++
  "  --help                          Show this message and exit.\n"

end ScriptIR.CommandLine
