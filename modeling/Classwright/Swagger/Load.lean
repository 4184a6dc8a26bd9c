import Classwright.File.Host
import Classwright.Swagger.Document

namespace Classwright.Swagger.Document

def load {m : Type → Type} [Monad m] (host : Host m) (path : String) :
    m (Except Error Document) := do
  if (← host.kind? path).isNone then return .error (.invalidDocument path .fileNotFound)
  match ← host.read path with
  | .ok text => return ofText path text
  | .error fault => return .error (.fileAccess fault)

end Classwright.Swagger.Document
