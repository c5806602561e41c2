import ScriptIR.Text.FileName
import ScriptIR.Text.Quoted

/-!
# Storage

What a command asks of the place where its files are, in any monad, and how an access to it can
fail. `Storage.makeAll` makes a directory together with those above it.
-/
namespace ScriptIR

/-- A text names a path unless it holds the character that ends names. -/
def isPath (text : String) : Bool :=
  !text.toList.contains '\x00'

def notAPathMessage : String :=
  "embedded null byte"

inductive StorageFault where
  | notFound
  | alreadyExists
  | notADirectory
  | isADirectory
  | nameTooLong
  | other (code : Nat) (text : String)
deriving Repr, DecidableEq

namespace StorageFault

def code : StorageFault → Nat
  | notFound => 2
  | alreadyExists => 17
  | notADirectory => 20
  | isADirectory => 21
  | nameTooLong => 36
  | other code _ => code

def text : StorageFault → String
  | notFound => "No such file or directory"
  | alreadyExists => "File exists"
  | notADirectory => "Not a directory"
  | isADirectory => "Is a directory"
  | nameTooLong => "File name too long"
  | other _ text => text

end StorageFault

structure StorageError where
  fault : StorageFault
  path : String
deriving Repr, DecidableEq

def StorageError.message (e : StorageError) : String :=
  "[Errno " ++ toString e.fault.code ++ "] " ++ e.fault.text ++ ": " ++ Text.quote e.path

/-- The operations on files, by path. -/
structure Storage (m : Type → Type) where
  /-- Whether there is a file or directory. -/
  isThere : String → m Bool
  isDirectory : String → m Bool
  /-- The full path, with nothing in it that leads elsewhere. -/
  fullPath : String → m String
  read : String → m (Except StorageError (List UInt8))
  /-- Makes a single directory in one that is there. -/
  makeDirectory : String → m (Except StorageError Unit)
  /-- Writes characters as the whole content of a file. -/
  write : String → String → m (Except StorageError Unit)

namespace Storage
variable {m : Type → Type} [Monad m]

/-- Makes a directory unless it is there. -/
def ensure (storage : Storage m) (path : String) : m (Except StorageError Unit) := do
  match ← storage.makeDirectory path with
  | .ok () => return .ok ()
  | .error e =>
    if ← storage.isDirectory path then return .ok () else return .error e

/-- Makes the directory of the given components, the last one first, unless it is there. If what it
should be in is missing, that is made before. -/
def makeAll (storage : Storage m) (root : String) : List String → m (Except StorageError Unit)
  | [] => storage.ensure (Text.joinPath root [])
  | component :: above => do
    let path := Text.joinPath root (component :: above).reverse
    match ← storage.ensure path with
    | .ok () => return .ok ()
    | .error e =>
      if e.fault ≠ .notFound then return .error e
      match ← storage.makeAll root above with
      | .ok () => storage.ensure path
      | .error e => return .error e

/-- Makes the directory that a path is in. -/
def makeParent (storage : Storage m) (path : String) : m (Except StorageError Unit) :=
  storage.makeAll (Text.pathRoot path) (Text.pathComponents path).reverse.tail

end Storage

end ScriptIR
