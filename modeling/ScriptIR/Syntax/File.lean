import ScriptIR.Storage.Basic
import ScriptIR.Syntax.Document
import ScriptIR.Text.Newline

/-!
# Syntax tree files

A document may be kept in a file, whose bytes are UTF-8. Locations that name no file are then in
that file. All that is said of a missing file is its path.
-/
namespace ScriptIR

inductive FileFault where
  | notAPath
  | missing (path : String)
  | storage (error : StorageError)
  | undecodable
  | load (fault : LoadFault)

/-- The message about a file that is not there. -/
def missingFileMessage (path : String) : String :=
  "Syntax tree file not found: " ++ path

/-- The tree of the document in a file, with the notices of loading it. -/
def Node.loadFile {m : Type → Type} [Monad m] (storage : Storage m) (path : String) :
    m (Except FileFault Node × List Notice) := do
  let normal := Text.normalPath path
  if !isPath path then return (.error .notAPath, [])
  match ← storage.read normal with
  | .error e => return (.error (if e.fault = .notFound then .missing normal else .storage e), [])
  | .ok bytes =>
    match Text.decodeFile? bytes with
    | none => return (.error .undecodable, [])
    | some text =>
      let (loaded, notices) := Node.loadText (some normal) text
      return (loaded.mapError .load, notices)

end ScriptIR
