import ScriptIR.Storage.Basic

/-!
# Directories

A storage that is a value: files and directories by their full paths, with one working directory
among them. Paths are followed component by component, each from a directory that is there.
-/
namespace ScriptIR

/-- A file's bytes, or a directory. -/
inductive DirectoryEntry where
  | file (bytes : List UInt8)
  | directory
deriving Repr, DecidableEq

/-- Entries by the components of their full paths. Whatever has an entry or the working directory
below it is a directory. -/
structure Directory where
  entries : List (List String × DirectoryEntry) := []
  working : List String := []
deriving Repr, DecidableEq

namespace Directory

def find? (d : Directory) (components : List String) : Option DirectoryEntry :=
  if components.isPrefixOf d.working then some .directory
  else match d.entries.lookup components with
    | some e => some e
    | none => if d.entries.any fun e => components.isPrefixOf e.1 then some .directory else none

/-- The longest name, in bytes. -/
def longestName : Nat := 255

/-- The longest path, in bytes. -/
def longestPath : Nat := 4095

/-- The components after one more, which has to be followed from a directory. Two dots lead back,
and the root is above itself. -/
def step (d : Directory) (here : List String) (component : String) :
    Except StorageFault (List String) :=
  match d.find? here with
  | none => .error .notFound
  | some (.file _) => .error .notADirectory
  | some .directory =>
    if component = ".." then .ok here.dropLast
    else if longestName < Text.byteSize component then .error .nameTooLong
    else .ok (here ++ [component])

/-- The components from the root on that a path leads to. Only the last may be missing. -/
def locate (d : Directory) (path : String) : Except StorageFault (List String) :=
  if longestPath < Text.byteSize path then .error .nameTooLong
  else (Text.pathComponents path).foldlM d.step (if Text.pathRoot path = "" then d.working else [])

def look (d : Directory) (path : String) : Except StorageFault DirectoryEntry := do
  match d.find? (← d.locate path) with
  | some e => pure e
  | none => throw .notFound

/-- Whether a path can only be that of a directory. -/
def asksForDirectory (path : String) : Bool :=
  "/".toList.isSuffixOf path.toList || "/.".toList.isSuffixOf path.toList

def has (d : Directory) (path : String) : Bool :=
  path ≠ "" && match d.look path with
    | .ok (.file _) => !asksForDirectory path
    | .ok .directory => true
    | .error _ => false

def hasDirectory (d : Directory) (path : String) : Bool :=
  match d.look path with
  | .ok .directory => true
  | _ => false

def readAt (d : Directory) (path : String) : Except StorageFault (List UInt8) := do
  match ← d.look path with
  | .file bytes => pure bytes
  | .directory => throw .isADirectory

def put (d : Directory) (components : List String) (e : DirectoryEntry) : Directory :=
  { d with entries := (components, e) :: d.entries.filter (·.1 != components) }

/-- With one more directory, where nothing has been. -/
def makeAt (d : Directory) (path : String) : Except StorageFault Directory := do
  let components ← d.locate path
  if (d.find? components).isSome then throw .alreadyExists
  return d.put components .directory

/-- With some characters as the content of a file, which need not have been there. -/
def writeAt (d : Directory) (characters path : String) : Except StorageFault Directory := do
  let components ← d.locate path
  if d.find? components = some .directory then throw .isADirectory
  return d.put components (.file characters.toUTF8.toList)

/-- Keeps the changed directory if there is one. -/
def change (path : String) (f : Directory → String → Except StorageFault Directory) :
    StateM Directory (Except StorageError Unit) := do
  match f (← get) path with
  | .ok d => do
    set d
    return .ok ()
  | .error fault => return .error ⟨fault, path⟩

def storage : Storage (StateM Directory) where
  isThere path := do return (← get).has path
  isDirectory path := do return (← get).hasDirectory path
  fullPath path := do return "/" ++ "/".intercalate (((← get).locate path).toOption.getD [])
  read path := do return ((← get).readAt path).mapError (⟨·, path⟩)
  makeDirectory path := change path makeAt
  write path characters := change path fun d => d.writeAt characters

end Directory

end ScriptIR
