import ScriptIR.Json.Basic
import ScriptIR.Text.FileName

/-!
# Source locations

A region of a source file. The file is whatever value the document gave for it; a location can be
shown only if that value is a text or counts as absent.
-/
namespace ScriptIR

structure Location where
  file : Json := .null
  line : Int := 0
  column : Int := 0
  endLine : Int := 0
  endColumn : Int := 0
deriving Repr

/-- The value stands where a file name should, and cannot be shown as one. -/
structure NotAFileName where
  value : Json
deriving Repr

def NotAFileName.message (e : NotAFileName) : String :=
  "expected str, bytes or os.PathLike object, not " ++ e.value.typeName

/-- Whether a value can stand for a file where one is shown. -/
def isFileName : Json → Bool
  | .string _ => true
  | v => !v.isTruthy

/-- The last component of a file name, if one was given. -/
def fileParts : Json → List String
  | .string s => if s = "" then [] else [Text.fileName s]
  | _ => []

namespace Location

/-- Line and column, as far as they are positive; there is no column without a line. -/
def positionParts (line column : Int) : List String :=
  if line ≤ 0 then []
  else if column ≤ 0 then [toString line]
  else [toString line, toString column]

/-- The location as it is shown, if its file is a file name. -/
def text (l : Location) : String :=
  match fileParts l.file ++ positionParts l.line l.column with
  | [] => "unknown"
  | parts => ":".intercalate parts

def text? (l : Location) : Except NotAFileName String :=
  if isFileName l.file then .ok l.text else .error ⟨l.file⟩

def isUnknown : Location → Bool
  | ⟨.null, 0, 0, 0, 0⟩ => true
  | _ => false

def sameValue (l m : Location) : Bool :=
  l.file.sameValue m.file && l.line == m.line && l.column == m.column && l.endLine == m.endLine &&
    l.endColumn == m.endColumn

end Location

end ScriptIR
