import ScriptIR.CommandLine.Run

/-!
# The program

The command on the files of the machine, whose names and contents are texts from outside.
-/
namespace ScriptIR.CommandLine

/-- A failed access to a file, as far as its kind is known. -/
def storageFault : IO.Error → StorageFault
  | .noFileOrDirectory .. => .notFound
  | .alreadyExists .. => .alreadyExists
  | .inappropriateType _ code _ => if code = 21 then .isADirectory else .notADirectory
  | .permissionDenied .. => .other 13 "Permission denied"
  | e => .other 5 (toString e)

/-- An action on the file of the path, by its name outside. -/
def attempt {α : Type} (path : String) (action : String → IO α) :
    IO (Except StorageError α) := do
  try
    return .ok (← action (Text.characters path))
  catch e =>
    return .error ⟨storageFault e, path⟩

def machine : Storage IO where
  isThere path := do return (← attempt path fun name => IO.FS.Handle.mk name .read).isOk
  isDirectory path := do
    return (← attempt path fun name => do (← IO.FS.realPath name).isDir).toOption.getD false
  fullPath path := do
    let found ← attempt path fun name => do return toString (← IO.FS.realPath name)
    return (found.toOption.map Text.spelled).getD path
  read path := attempt path fun name => do return (← IO.FS.readBinFile name).toList
  makeDirectory path := attempt path fun name => IO.FS.createDir name
  write path characters := attempt path fun name => IO.FS.writeFile name characters

/-- What a crash is reported as. -/
def Crash.message : Crash → String
  | notAPath => notAPathMessage
  | undecodable => "The input file is not UTF-8."
  | breakdown .infiniteNumber => "cannot convert float infinity to integer"
  | breakdown (.malformed m l) => malformedMessage m l
  | breakdown (.notAFileName e) => e.message
  | breakdown (.scope e) => e.message
  | breakdown .endlessOutline => "maximum recursion depth exceeded"
  | notShown text =>
    match Text.encode text with
    | .ok _ => ""
    | .error e => e.message
  | notSaved e => e.message

end ScriptIR.CommandLine

open ScriptIR.CommandLine in
def main (words : List String) : IO UInt32 := do
  let ended ← run machine (words.map ScriptIR.Text.spelled)
  let showsAll ← (← IO.getStdout).isTty
  for line in ended.log do
    IO.eprintln (ScriptIR.Text.encodeEscaping line)
  for line in if ← (← IO.getStderr).isTty then ended.messages else ended.plainMessages do
    IO.eprintln (ScriptIR.Text.encodeEscaping line)
  if let some crash := ended.crash then
    IO.eprintln (if showsAll then crash else crash.plain).message
  IO.print (if showsAll then ended.shown else ended.plainShown)
  return UInt32.ofNat ended.exitCode
