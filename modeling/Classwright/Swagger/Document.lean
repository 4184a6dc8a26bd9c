import Classwright.Error
import Classwright.Swagger.Operation
import Classwright.Yaml.Reader

namespace Classwright.Swagger

open Yaml Schema

structure Document where
  file : String
  title : String
  version : String
  basePath : String
  tags : List String
  paths : List (Value × Value)
  definitions : List (Value × Value)
  deriving Repr

namespace Document

def versionText? (v : Value) : Option String :=
  match v with
  | .str s => some s
  | v => v.numberText?

def filledMap? (v : Value) : Option (List (Value × Value)) :=
  v.map?.filter (!·.isEmpty)

def tagName? (tag : Value) : Option String :=
  ((tag.get? "name").bind Value.str?).or tag.str?

-- The requirements are checked in a fixed order, and the first one that fails is reported.
def ofValue (file : String) (value : Value) : Except Error Document := do
  let check {α : Type} (fault : DocumentFault) (part : Option α) : Except Error α :=
    match part with
    | some a => .ok a
    | none => .error (.invalidDocument file fault)
  let _ ← check .version (((value.get? "swagger").bind versionText?).filter (· == "2.0"))
  let info ← check .info (((value.get? "info").bind filledMap?).map Value.map)
  let basePath ← check .basePath ((value.get? "basePath").bind Value.str?)
  let tags := (((value.get? "tags").bind Value.seq?).getD []).filterMap tagName?
  let tags ← check .tags (some tags |>.filter (!·.isEmpty))
  let paths ← check .paths ((value.get? "paths").bind filledMap?)
  let definitions ← check .definitions ((value.get? "definitions").bind filledMap?)
  return {
    file := file
    title := ((info.get? "title").bind Value.str?).getD ""
    version := ((info.get? "version").bind Value.scalarText?).getD ""
    basePath := basePath
    tags := tags
    paths := paths
    definitions := definitions }

def ofText (file text : String) : Except Error Document :=
  match Value.ofText? text with
  | some value => ofValue file value
  | none => .error .unreadable

def schemas (d : Document) : List ObjectSchema := ObjectSchema.ofDefinitions d.definitions

def operations (d : Document) : List Operation := Operation.ofPaths d.paths

end Document

end Classwright.Swagger
