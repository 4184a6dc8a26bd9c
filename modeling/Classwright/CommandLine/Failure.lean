import Classwright.File.Host
import Classwright.Output
import Classwright.Settings.Load

namespace Classwright.CommandLine

inductive Failure where
  | config (fault : Settings.ConfigFault)
  | noInput
  | input (path : String) (error : Error)
  | dump (error : Error)
  | outputDirectory (fault : FileFault)
  | hook (script errors : String)
  | hookText
  | generation (error : Error)
  | directory (path : String) (fault : FileFault)
  | file (path : String) (fault : FileFault)
  deriving Repr, DecidableEq

namespace Failure

def message : Failure → String
  | .config fault => fault.message
  | .noInput => "No input source specified. Use --spec or configure input in config file"
  | .input path _ => "Failed to read input: " ++ Path.quote path
  | .dump error => error.message
  | .outputDirectory fault => fault.message
  | .hook script errors => "Hook failed: " ++ script ++ "\nStderr: " ++ errors
  | .hookText => "nul byte found in provided data"
  | .generation _ => "Failed to generate classes"
  | .directory path _ => "Failed to create output directory: " ++ Path.quote path
  | .file path _ => "Failed to write output file: " ++ Path.quote path

def causes : Failure → List String
  | .config fault => fault.causes
  | .input _ error => error.message :: error.cause?.toList
  | .dump error => error.cause?.toList
  | .generation error => error.message :: error.cause?.toList
  | .directory _ fault => [fault.message]
  | .file _ fault => [fault.message]
  | _ => []

-- A text behind a label; further lines of the text stand below its first one.
def indent (label text : String) : String :=
  let margin := String.ofList (List.replicate label.length ' ')
  label ++ ("\n" ++ margin).intercalate (Text.splitOn '\n' text)

def numbered (index : Nat) : List String → List String
  | [] => []
  | cause :: rest => indent ("    " ++ toString index ++ ": ") cause :: numbered (index + 1) rest

def causeLines : List String → List String
  | [] => []
  | [cause] => ["", "Caused by:", indent "    " cause]
  | causes => ["", "Caused by:"] ++ numbered 0 causes

def report (f : Failure) : String :=
  "\n".intercalate (("Error: " ++ f.message) :: causeLines f.causes)

end Failure

end Classwright.CommandLine
