import Classwright.File.Fault
import Classwright.Json

namespace Classwright

inductive DocumentFault where
  | fileNotFound
  | version
  | info
  | basePath
  | tags
  | paths
  | definitions
  deriving Repr, DecidableEq

namespace DocumentFault

def reason : DocumentFault → String
  | .fileNotFound => "file not found"
  | .version => "swagger version must be \"2.0\""
  | .info => "missing info section"
  | .basePath => "missing basePath"
  | .tags => "tags must be a non-empty list"
  | .paths => "paths must be a non-empty map"
  | .definitions => "definitions must be a non-empty map"

end DocumentFault

namespace Yaml.Value.KeyError

def message : KeyError → String
  | .notScalar => "key must be a string"
  | .notFinite => "float key must be finite (got NaN or +/-inf)"

end Yaml.Value.KeyError

inductive Error where
  | invalidDocument (file : String) (fault : DocumentFault)
  | danglingReference (definition property target : String)
  | unknownDefinition (name : String)
  -- New definitions still call for further ones after all passes that were allowed.
  | unsettled
  -- A definition without a table contains itself, so it has no finite row of columns.
  | endlessColumns (definition : String)
  | unreadable
  | unwritable (fault : Yaml.Value.KeyError)
  | fileAccess (fault : FileFault)
  deriving Repr, DecidableEq

namespace Error

def unreadableDetail : String := "the text is no document"

def message : Error → String
  | .invalidDocument file fault => "invalid swagger document " ++ file ++ ": " ++ fault.reason
  | .danglingReference definition property target =>
    "definition " ++ definition ++ " property " ++ property ++ " references unknown definition " ++
      target
  | .unknownDefinition name => "unknown definition: " ++ name
  | .unsettled => "definitions keep calling for further definitions"
  | .endlessColumns definition => "definition " ++ definition ++ " contains itself without a table"
  | .unreadable => "yaml error: " ++ unreadableDetail
  | .unwritable fault => "json error: " ++ fault.message
  | .fileAccess fault => "io error: " ++ fault.message

def cause? : Error → Option String
  | .unreadable => some unreadableDetail
  | .unwritable fault => some fault.message
  | .fileAccess fault => some fault.message
  | _ => none

end Error

inductive Warning where
  | duplicateName (url name : String)
  | noColumnType (definition property : String)
  | notStored (definition property reason : String)
  deriving Repr, DecidableEq

namespace Warning

def message : Warning → String
  | .duplicateName .. => "duplicate path name, adding a counter"
  | .noColumnType .. => "no column type, skipping"
  | .notStored .. => "property not stored"

def details : Warning → List (String × String)
  | .duplicateName url name => [("url", url), ("name", name)]
  | .noColumnType definition property => [("definition", definition), ("property", property)]
  | .notStored definition property reason =>
    [("definition", definition), ("property", property), ("reason", reason)]

end Warning

end Classwright
