import Classwright.CommandLine.Run
import Classwright.Shell.Script

namespace Classwright

def faultOf (isDirectory : Bool) (e : IO.Error) : FileFault :=
  match e with
  | .noFileOrDirectory .. => .notFound
  | .alreadyExists .. => .exists
  | .inappropriateType .. => if isDirectory then .isDirectory else .notDirectory
  | e => .other (toString e)

def tryOn {α : Type} (path : String) (action : IO α) : IO (Except FileFault α) := do
  try return .ok (← action)
  catch e => return .error (faultOf (← ((← IO.currentDir) / path).isDir) e)

def byteText (bytes : ByteArray) : String := .ofList (bytes.toList.map fun b => .ofNat b.toNat)

-- The files of the machine; links are followed but not made.
def machine : Host IO where
  currentDirectory := return (← IO.currentDir).toString
  kind? path := do
    if path == "" then return none
    let place := (← IO.currentDir) / path
    if ← place.isDir then return some .directory
    else if ← place.pathExists then return some .file
    else return none
  linkTarget? _ := return none
  readBytes path := tryOn path do return byteText (← IO.FS.readBinFile path)
  writeBytes path content := tryOn path do
    IO.FS.writeBinFile path ⟨(content.toList.map (·.toNat.toUInt8)).toArray⟩
  isExecutable _ := return true
  setExecutable path executable := tryOn path do
    IO.setAccessRights path
      ⟨⟨true, true, executable⟩, ⟨true, false, executable⟩, ⟨true, false, executable⟩⟩
  makeDirectory path := tryOn path (IO.FS.createDir path)
  makeLink _ _ := return .error (.other "Operation not permitted")
  list path := tryOn path do
    let entries ← ((← IO.currentDir) / path).readDir
    return entries.toList.map (·.fileName)
  remove path := tryOn path do
    if ← ((← IO.currentDir) / path).isDir then IO.FS.removeDir path else IO.FS.removeFile path
  rename path target := tryOn path (IO.FS.rename path target)
  say := IO.println
  note := IO.eprintln

end Classwright

open Classwright CommandLine in
def main (arguments : List String) : IO UInt32 := do
  let outcome ← CommandLine.run machine (Shell.runIn machine) arguments
  match outcome with
  | .success => pure ()
  | .usage error => IO.eprintln ("error: " ++ error.message)
  | .failure failure => IO.eprintln failure.report
  return outcome.exitCode.toUInt32
