import Classwright.File.Host
import Classwright.Settings.Config

namespace Classwright.Settings

inductive ConfigFault where
  | notFound (path : String)
  | unreadable (path : String) (fault : FileFault)
  | invalid (path : String)
  deriving Repr, DecidableEq

namespace ConfigFault

def message : ConfigFault → String
  | .notFound path => "Config file not found: " ++ Path.quote path
  | .unreadable path _ => "Failed to read config file: " ++ Path.quote path
  | .invalid path => "Failed to parse config file: " ++ Path.quote path

def causes : ConfigFault → List String
  | .notFound _ => []
  | .unreadable _ fault => [fault.message]
  | .invalid _ => ["the text is no configuration"]

end ConfigFault

namespace Config

variable {m : Type → Type} [Monad m]

def read (host : Host m) (path : String) : m (Except ConfigFault Config) := do
  match ← host.read path with
  | .error fault => return .error (.unreadable path fault)
  | .ok text =>
    match ofText? text with
    | some c => return .ok c
    | none => return .error (.invalid path)

-- The configuration in the file of a path, or in the usual file, which need not be there.
def load (host : Host m) (path : Option String) : m (Except ConfigFault Config) := do
  match path with
  | some path =>
    if (← host.kind? path).isSome then read host path else return .error (.notFound path)
  | none => if (← host.kind? defaultPath).isSome then read host defaultPath else return .ok standard

end Config

end Classwright.Settings
