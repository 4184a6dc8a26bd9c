import Classwright.Graph.Closure
import Classwright.Graph.Endpoint
import Classwright.Graph.Link
import Classwright.Swagger.Document

namespace Classwright

open Swagger

structure Blueprint where
  graph : DefinitionGraph
  endpoints : List Endpoint

namespace Blueprint

def initialGraph (d : Document) : DefinitionGraph := .ofSchemas d.schemas

-- The passes that are allowed by default; documents that settle need far fewer.
def passLimit : Nat := 10000

def assemble (passes : Nat) (d : Document) : GraphM (List Endpoint) := do
  let g ← get
  let _ ← GraphM.settle passes g.names
  Endpoint.ofOperations passes d.operations

def ofDocument (passes : Nat) (d : Document) : Except Error Blueprint :=
  match assemble passes d (initialGraph d) with
  | .error e _ => .error e
  | .ok endpoints g => do
    g.verifyClosed
    return ⟨← g.relink, endpoints⟩

def warnings (passes : Nat) (d : Document) : List Warning :=
  let g := initialGraph d
  match GraphM.settle passes g.names g with
  | .error .. => []
  | .ok _ g => Endpoint.warningsOf (Endpoint.nameAll [] d.operations) g

end Blueprint

end Classwright
