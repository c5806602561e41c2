import ScriptIR.Json.Display
import ScriptIR.Json.Reader
import ScriptIR.Syntax.Node
import ScriptIR.Text.Integer

/-!
# Syntax tree documents

The parser dumps a tree as nested JSON objects. `Node.load` builds the tree and notes every tag that
names no kind, in the order of the nodes. A document is refused at the first node that is no object,
has no tag, has children that are no array, or has a location with a number that is none; the last
is found only after the children of the node.
-/
namespace ScriptIR

def Path.text (p : Path) : String :=
  "$" ++ String.join (p.map fun i => ".children[" ++ toString i ++ "]")

inductive DocumentError where
  | unreadable (error : Json.ReadError) (text : String)
  | notAnObject (path : Path) (found : String)
  | noTag (path : Path)
  | childrenNotAList (path : Path)
  | invalidLocation (location : Json)
deriving Repr

def DocumentError.message : DocumentError → String
  | unreadable error text => "Invalid syntax tree JSON: " ++ error.message text
  | notAnObject path found => path.text ++ ": expected an object, got " ++ found
  | noTag path => path.text ++ ": node has no 'type' tag"
  | childrenNotAList path => path.text ++ ": 'children' must be a list"
  | invalidLocation location => "Invalid location: " ++ location.literal

/-- Why no tree was loaded: the document is refused, or a location number is beyond all bounds. -/
inductive LoadFault where
  | document (error : DocumentError)
  | infiniteNumber
deriving Repr

/-- A tag that names no kind. -/
structure Notice where
  tag : String
  path : Path
deriving Repr, DecidableEq

def Notice.text (n : Notice) : String :=
  "Unrecognised syntax tag " ++ n.tag ++ " at " ++ n.path.text

/-- An action of loading, which keeps the notices taken so far. -/
abbrev Loading := EStateM LoadFault (List Notice)

namespace Document

/-- The tag stands under `type`, or under `kind` if there is no such key. -/
def tag? (entries : Dictionary Json) : Option String :=
  match (entries.get? "type").or (entries.get? "kind") with
  | some (.string tag) => nonEmpty? (some tag)
  | _ => none

/-- The first value that is not null among the spellings of a field. -/
def scalar? (entries : Dictionary Json) (spellings : List String) : Option String :=
  (spellings.findSome? fun key => Json.given? key (.object entries)).map Json.display

/-- The first value, null or not, among the spellings of a location number. -/
def numberValue? (entries : Dictionary Json) (spellings : List String) : Option Json :=
  spellings.findSome? fun key => entries.get? key

/-- A value as a whole number: fractions lose what is behind the point, texts are read. -/
def wholeNumber (location : Json) : Json → Except LoadFault Int
  | .int i => .ok i
  | .bool b => .ok (Json.bit b)
  | .float (.infinite _) => .error .infiniteNumber
  | .float x => match x.truncate? with
    | some i => .ok i
    | none => .error (.document (.invalidLocation location))
  | .string s => match Text.integer? s with
    | some i => .ok i
    | none => .error (.document (.invalidLocation location))
  | _ => .error (.document (.invalidLocation location))

def locationNumber (entries : Dictionary Json) (spellings : List String) : Except LoadFault Int :=
  match numberValue? entries spellings with
  | none => .ok 0
  | some v => wholeNumber (.object entries) v

/-- The file that a location has if it names none itself. -/
def sourceFile (source : Option String) : Json :=
  match source with
  | some s => .string s
  | none => .null

def location (source : Option String) : Option Json → Except LoadFault Location
  | some (.object entries) => do
    let named := (Dictionary.get? entries "file").getD .null
    let file := if named.isTruthy then named else sourceFile source
    let line ← locationNumber entries ["startLine", "line"]
    let column ← locationNumber entries ["startColumn", "column"]
    let endLine ← locationNumber entries ["endLine", "end_line"]
    let endColumn ← locationNumber entries ["endColumn", "end_column"]
    pure ⟨file, line, column, endLine, endColumn⟩
  | _ => pure { file := sourceFile (nonEmpty? source) }

def attributes (tag : String) (entries : Dictionary Json) : Attributes where
  kind := Kind.ofTag tag
  tag := tag
  code := scalar? entries ["code"]
  name := scalar? entries ["name"]
  operator := scalar? entries ["operator"]
  unaryToken := scalar? entries ["unaryType", "unary_token"]
  typeText := scalar? entries ["codeType", "type_annotation"]

/-- Whether the value under `children` counts as a list of children; a value that counts as absent
is no children at all. -/
def childrenAllowed : Option Json → Bool
  | some (.array _) => true
  | some v => !v.isTruthy
  | none => true

def notice (n : Notice) : Loading Unit :=
  fun notices => .ok () (notices ++ [n])

def refuse {α : Type} (e : DocumentError) : Loading α :=
  throw (.document e)

/-- A value, or the fault that was found instead. -/
def settle {α : Type} : Except LoadFault α → Loading α
  | .ok a => pure a
  | .error f => throw f

mutual
def node (source : Option String) (path : Path) : Json → Loading Node
  | .object entries => do
    let some tag := tag? entries | refuse (.noTag path)
    let attrs := attributes tag entries
    if attrs.kind = .unknown then notice ⟨tag, path⟩
    unless childrenAllowed (Dictionary.get? entries "children") do refuse (.childrenNotAList path)
    let children ← children source path entries
    let place ← settle (location source (Dictionary.get? entries "location"))
    pure ⟨{ attrs with location := place }, children⟩
  | v => refuse (.notAnObject path v.typeName)

/-- The nodes of the array under `children`. -/
def children (source : Option String) (path : Path) : List (String × Json) → Loading (List Node)
  | [] => pure []
  | (key, v) :: rest =>
    if key = "children" then
      match v with
      | .array items => nodes source path 0 items
      | _ => pure []
    else children source path rest

/-- The children of the node at `path` from number `i` on. -/
def nodes (source : Option String) (path : Path) : (i : Nat) → List Json → Loading (List Node)
  | _, [] => pure []
  | i, item :: rest => do
    let first ← node source (path ++ [i]) item
    let others ← nodes source path (i + 1) rest
    pure (first :: others)
end

end Document

namespace Node

/-- The tree of a document, with the notices taken up to the end or the first fault. Locations that
name no file are in the source file. -/
def load (source : Option String) (document : Json) : Except LoadFault Node × List Notice :=
  match Document.node source [] document [] with
  | .ok n notices => (.ok n, notices)
  | .error f notices => (.error f, notices)

def loadText (source : Option String) (text : String) : Except LoadFault Node × List Notice :=
  match Json.parse text with
  | .ok document => load source document
  | .error e => (.error (.document (.unreadable e text)), [])

end Node

end ScriptIR
