import Classwright.Graph.Blueprint

namespace Classwright

open Schema Yaml

namespace Schema

def TypeRef.toJson : TypeRef → Json
  | .named name isEnum => .obj [("name", .str name), ("sub_type", .null), ("is_enum", .bool isEnum)]
  | .holding name items isEnum =>
    .obj [("name", .str name), ("sub_type", items.toJson), ("is_enum", .bool isEnum)]

def EdgeKey.toJson (key : EdgeKey) : Json :=
  .obj [("definition", .str key.definition), ("index", .nat key.index)]

def defaultToJson : Option Value → Except Value.KeyError Json
  | none => .ok .null
  | some value => value.toJson

namespace Property

mutual

def toJson : Property → Except Value.KeyError Json
  | ⟨name, type, required, enumValues, default, fields, refersTo⟩ => do
    let default ← defaultToJson default
    let fields ← allToJson fields
    return .obj [
      ("name", .str name),
      ("property_type", type.toJson),
      ("required", .bool required),
      ("enum_values", .ofOption (.ofList .str) enumValues),
      ("default", default),
      ("sub_properties", .arr fields),
      ("refers_to", .ofOption EdgeKey.toJson refersTo)]

def allToJson : List Property → Except Value.KeyError (List Json)
  | [] => .ok []
  | p :: ps => do
    let p ← toJson p
    return p :: (← allToJson ps)

end

end Property

end Schema

def Edge.toJson (edge : Edge) : Json :=
  .obj [
    ("definition", .str edge.definition),
    ("property", .str edge.property),
    ("relationship", .str edge.relationship.name)]

def Definition.toJson (d : Definition) : Except Value.KeyError Json := do
  let properties ← Property.allToJson d.properties
  return .obj [
    ("name", .str d.name),
    ("properties", .arr properties),
    ("needs_table", .bool d.needsTable),
    ("references", .ofList Edge.toJson d.edges),
    ("use_fields_as_part_of_the_same_table", .bool d.sharesTable),
    ("tag", .ofOption .str d.tag)]

namespace Endpoint

def propertyToJson : Option Property → Except Value.KeyError Json
  | none => .ok .null
  | some p => p.toJson

def toJson (e : Endpoint) : Except Value.KeyError Json := do
  let urlProperty ← propertyToJson e.urlProperty
  let body ← propertyToJson e.body
  let parameter (p : UrlParameter) : Json :=
    .obj [
      ("name", .str p.name),
      ("location", .str p.location.name),
      ("required", .bool p.required)]
  return .obj [
    ("name", .str e.name),
    ("url", .str e.url),
    ("method", .str e.method.verb),
    ("tag", .ofOption .str e.tag),
    ("url_parameters", .ofList parameter e.urlParameters),
    ("url_parameters_property", urlProperty),
    ("body", body),
    ("success_response", .ofOption TypeRef.toJson e.success),
    ("failure_response", .ofOption TypeRef.toJson e.failure)]

end Endpoint

namespace Blueprint

def toJson (d : Swagger.Document) (b : Blueprint) : Except Value.KeyError Json := do
  let definitions ← b.graph.definitions.mapM fun definition =>
    definition.toJson.map fun json => (definition.name, json)
  let endpoints ← b.endpoints.mapM Endpoint.toJson
  return .obj [
    ("title", .str d.title),
    ("version", .str d.version),
    ("definitions", .obj definitions),
    ("paths", .arr endpoints)]

def dump (passes : Nat) (d : Swagger.Document) : Except Error String := do
  let blueprint ← ofDocument passes d
  match toJson d blueprint with
  | .ok json => return json.pretty 0
  | .error fault => throw (.unwritable fault)

end Blueprint

end Classwright
