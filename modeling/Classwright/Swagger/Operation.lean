import Classwright.Number.Digits
import Classwright.Schema.Property

namespace Classwright.Swagger

open Yaml Schema

inductive HttpMethod where
  | get
  | post
  | put
  | delete
  | patch
  | head
  | options
  deriving Repr, DecidableEq

namespace HttpMethod

-- The verb of a key in a path item, in either letter case; other keys name no operation.
def ofKey? (key : String) : Option HttpMethod :=
  match key.toLower with
  | "get" => some .get
  | "post" => some .post
  | "put" => some .put
  | "delete" => some .delete
  | "patch" => some .patch
  | "head" => some .head
  | "options" => some .options
  | _ => none

def verb : HttpMethod → String
  | .get => "GET"
  | .post => "POST"
  | .put => "PUT"
  | .delete => "DELETE"
  | .patch => "PATCH"
  | .head => "HEAD"
  | .options => "OPTIONS"

def word : HttpMethod → String
  | .get => "Get"
  | .post => "Post"
  | .put => "Put"
  | .delete => "Delete"
  | .patch => "Patch"
  | .head => "Head"
  | .options => "Options"

end HttpMethod

inductive Location where
  | query
  | path
  | header
  | body
  | formData
  deriving Repr, DecidableEq

namespace Location

def name : Location → String
  | .query => "query"
  | .path => "path"
  | .header => "header"
  | .body => "body"
  | .formData => "formData"

def ofName? (name : String) : Option Location :=
  match name with
  | "query" => some .query
  | "path" => some .path
  | "header" => some .header
  | "body" => some .body
  | "formData" => some .formData
  | _ => none

def isUrl : Location → Bool
  | .query => true
  | .path => true
  | _ => false

end Location

structure Parameter where
  name : String
  location : Location
  required : Bool
  type : TypeRef
  fields : List Property
  deriving Repr

namespace Parameter

def ofValue? (value : Value) : Option Parameter := do
  let name ← (value.get? "name").bind Value.str?
  let location ← ((value.get? "in").bind Value.str?).bind Location.ofName?
  let schema := if location = .body then (value.get? "schema").getD value else value
  return {
    name := name
    location := location
    required := ((value.get? "required").bind Value.bool?).getD false
    type := TypeRef.ofSchema schema
    fields := fieldsOf (elementSchema schema) }

def sameSlot (p q : Parameter) : Bool := p.name == q.name && p.location == q.location

-- Parameters of a path apply to all its operations unless an operation has one of the same name and
-- place.
def override (parameters : List Parameter) (parameter : Parameter) : List Parameter :=
  parameters.filter (fun p => !p.sameSlot parameter) ++ [parameter]

def listed (value : Value) : List Parameter :=
  (((value.get? "parameters").bind Value.seq?).getD []).filterMap ofValue?

end Parameter

structure Response where
  status : Nat
  type : Option TypeRef
  fields : List Property
  deriving Repr

namespace Response

-- A status code is a number of 16 bits; as text it may start with a plus sign.
def statusOf? (key : Value) : Option Nat :=
  let status :=
    match key with
    | .int n => if 0 ≤ n then some n.toNat else none
    | .str s =>
      match s.toList with
      | '+' :: digits => digitsValue? 10 digits
      | digits => digitsValue? 10 digits
    | _ => none
  status.filter (· < 65536)

def ofEntry? (key value : Value) : Option Response := do
  let status ← statusOf? key
  match value.get? "schema" with
  | some schema =>
    return ⟨status, some (TypeRef.ofSchema schema), fieldsOf (elementSchema schema)⟩
  | none => return ⟨status, none, []⟩

def listed (operation : Value) : List Response :=
  (((operation.get? "responses").bind Value.map?).getD []).filterMap fun (key, value) =>
    ofEntry? key value

end Response

structure Operation where
  url : String
  method : HttpMethod
  tag : Option String
  parameters : List Parameter
  responses : List Response
  deriving Repr

namespace Operation

def ofValue (url : String) (method : HttpMethod) (shared : List Parameter) (value : Value) :
    Operation where
  url := url
  method := method
  tag := (((value.get? "tags").bind Value.seq?).bind List.head?).bind Value.str?
  parameters := (Parameter.listed value).foldl Parameter.override shared
  responses := Response.listed value

def ofItem (url : String) (item : Value) : List Operation :=
  (item.map?.getD []).filterMap fun (key, value) =>
    (key.str?.bind HttpMethod.ofKey?).map fun method =>
      ofValue url method (Parameter.listed item) value

-- The operations of a `paths` section, in document order; only text keys name paths.
def ofPaths (paths : List (Value × Value)) : List Operation :=
  paths.flatMap fun (key, item) =>
    match key.str? with
    | some url => ofItem url item
    | none => []

end Operation

end Classwright.Swagger
