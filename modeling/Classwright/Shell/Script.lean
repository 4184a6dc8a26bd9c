import Classwright.Shell.Evaluate
import Classwright.Tool.All

namespace Classwright.Shell

def searchPath : String := ":".intercalate toolDirectories

def Session.start (directory : String) : Session where
  frame := {
    directory := directory
    bindings :=
      [("HOME", "/root"), ("PATH", searchPath), ("PWD", directory)].map (fun (name, value) =>
        (name, ⟨some value, true, false⟩)) ++ ownVariables
    functions := []
    hidden := []
    scriptName := "sh"
    arguments := []
    line := 1
    status := 0
    options := []
    descriptors := [(0, 0), (1, 1), (2, 2)]
    loops := 0
    calls := 0
    traps := []
    builtin := none
    cluster := 0
    mask := 18
    outputStatus := 0 }
  streams := #[.nowhere, .nowhere, .sink []]
  documents := []
  nextDocument := 0

-- No other program can be started from here, so scripts are interpreted.
def runIn {m : Type → Type} [Monad m] (host : Host m) (script : String) : m Execution := do
  let e := engine Tool.named? maxNesting
  let action : ShellM m Execution := do
    let status ← ending e (e.script false script)
    return ⟨status, ← collected 2⟩
  match ← ((action.run host).run.run (.start (← host.currentDirectory))) with
  | (.ok outcome, _) => return outcome
  | (.error _, _) => return ⟨2, ""⟩

end Classwright.Shell
