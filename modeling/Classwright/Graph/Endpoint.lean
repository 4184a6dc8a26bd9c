import Classwright.Graph.Synthesis
import Classwright.Swagger.Operation
import Classwright.Text.Lines

namespace Classwright

open Schema Swagger

structure UrlParameter where
  name : String
  location : Location
  required : Bool
  deriving Repr, DecidableEq

structure Endpoint where
  name : String
  url : String
  method : HttpMethod
  tag : Option String
  urlParameters : List UrlParameter
  -- The only url parameter, or the group of several.
  urlProperty : Option Property
  body : Option Property
  success : Option TypeRef
  failure : Option TypeRef
  deriving Repr

namespace Endpoint

def groupName : String := "parameters"

def bodyName : String := "body"

def access (e : Endpoint) (parameter : String) : List String :=
  match e.urlProperty with
  | some p =>
    if p.name == groupName && 1 < e.urlParameters.length then [groupName, parameter]
    else [parameter]
  | none => [parameter]

def slotName? : List Char → Option (List Char)
  | [] => none
  | c :: rest => if c == '{' && rest.getLast? == some '}' then some rest.dropLast else none

def slotNext : List (List Char) → Bool
  | (c :: _) :: _ => c == '{'
  | _ => false

-- The words of a url, from segment `index` on. The first slot is introduced by `By`, unless it
-- comes first of all, and later ones by `And`. A word between two slots is left out, since the slot
-- behind it names it; `seen` tells whether there was a slot.
def urlWords (index : Nat) (seen : Bool) : List (List Char) → List Char
  | [] => []
  | segment :: rest =>
    if segment.isEmpty then urlWords (index + 1) seen rest
    else match slotName? segment with
      | some slot =>
        (if seen then "And".toList else if 1 < index then "By".toList else []) ++
          Naming.capitalizeChars slot ++ urlWords (index + 1) true rest
      | none =>
        if seen && slotNext rest then urlWords (index + 1) seen rest
        else Naming.pascalChars true segment ++ urlWords (index + 1) seen rest

def nameOf (url : String) (method : HttpMethod) (ending : String) : String :=
  method.word ++ .ofList (urlWords 0 false (Text.splitOnChar '/' url.toList)) ++ ending

-- The name itself if it is free, and otherwise the name with the least free counter from two.
def freshName (used : List String) (name : String) : String :=
  if used.contains name then
    (((List.range (used.length + 1)).map fun n => name ++ toString (n + 2)).find?
      (!used.contains ·)).getD name
  else name

structure Named where
  operation : Operation
  name : String
  warning : Option Warning

def nameAll (used : List String) : List Operation → List Named
  | [] => []
  | operation :: rest =>
    let own := nameOf operation.url operation.method ""
    let name := freshName used own
    let warning := if used.contains own then some (.duplicateName operation.url own) else none
    ⟨operation, name, warning⟩ :: nameAll (name :: used) rest

-- Below, a list of names beside a result tells which definitions were added for it.

-- Adds a definition unless its name is taken.
def addDefinition (name : String) (properties : List Property) (tag : Option String) :
    GraphM (List String) := do
  let g ← get
  if g.contains name then return []
  set (g.insert { Definition.make name properties with tag := tag })
  return [name]

-- Gives a definition a tag unless it has one.
def tagDefinition (name : String) (tag : Option String) : GraphM Unit :=
  modify (·.modify name fun d => { d with tag := d.tag.or tag })

-- The type of a body or response. An object without a definition gets one under `synthesized`; a
-- definition that is referred to gets the operation's tag. `slot` is the part of the operation that
-- is at fault if the definition does not exist.
def resolveType (operation : Named) (slot synthesized : String) (type : TypeRef)
    (fields : List Property) : GraphM (TypeRef × List String) := do
  let element := type.element
  if element.name == objectName then
    let created ← addDefinition synthesized fields operation.operation.tag
    return (type.withElement (.ofName synthesized), created)
  else if element.isNative || element.isEnum then return (type, [])
  else
    let g ← get
    if !g.contains element.name then
      throw (.danglingReference operation.name slot element.name)
    tagDefinition element.name operation.operation.tag
    return (type, [])

def stringProperty (p : UrlParameter) : Property :=
  .ofType p.name (.ofName Primitive.string.name) p.required

def urlParametersOf (operation : Operation) : List UrlParameter :=
  (operation.parameters.filter (·.location.isUrl)).map fun p => ⟨p.name, p.location, p.required⟩

-- The property that holds the url parameters: the only one as it is, several ones as a group.
def urlPropertyOf (operation : Named) : GraphM (Option Property × List String) := do
  match urlParametersOf operation.operation with
  | [] => return (none, [])
  | [single] => return (some (stringProperty single), [])
  | several =>
    let group := operation.name ++ "RequestParameters"
    let created ← addDefinition group (several.map stringProperty) operation.operation.tag
    return (some (.ofType groupName (.ofName group) true), created)

def bodyOf (operation : Named) : GraphM (Option Property × List String) := do
  match operation.operation.parameters.find? (·.location == .body) with
  | none => return (none, [])
  | some p =>
    let (type, created) ←
      resolveType operation bodyName (operation.name ++ "RequestBody") p.type p.fields
    return (some (.ofType bodyName type p.required), created)

def successOf? (operation : Operation) : Option Response :=
  operation.responses.find? fun r => 200 ≤ r.status && r.status < 300

def failureOf? (operation : Operation) : Option Response :=
  operation.responses.find? fun r => 300 < r.status

-- The type of a response; `ending` names the kind of the response.
def responseOf (operation : Named) (response : Option Response) (ending : String) :
    GraphM (Option TypeRef × List String) := do
  match response.bind fun r => r.type.map fun type => (type, r.fields) with
  | none => return (none, [])
  | some (type, fields) =>
    let (type, created) ← resolveType operation ending (operation.name ++ ending) type fields
    return (some type, created)

def ofOperation (operation : Named) : GraphM (Endpoint × List String) := do
  let (urlProperty, group) ← urlPropertyOf operation
  let (body, bodies) ← bodyOf operation
  let (success, successes) ←
    responseOf operation (successOf? operation.operation) "SuccessResponse"
  let (failure, failures) ← responseOf operation (failureOf? operation.operation) "ErrorResponse"
  let endpoint : Endpoint := {
    name := operation.name
    url := operation.operation.url
    method := operation.operation.method
    tag := operation.operation.tag
    urlParameters := urlParametersOf operation.operation
    urlProperty := urlProperty
    body := body
    success := success
    failure := failure }
  return (endpoint, group ++ bodies ++ successes ++ failures)

def ofNamed : List Named → GraphM (List Endpoint × List String)
  | [] => pure ([], [])
  | operation :: rest => do
    let (endpoint, created) ← ofOperation operation
    let (endpoints, more) ← ofNamed rest
    return (endpoint :: endpoints, created ++ more)

-- The endpoints of all operations; afterwards the definitions that were added are settled.
def ofOperations (passes : Nat) (operations : List Operation) : GraphM (List Endpoint) := do
  let (endpoints, created) ← ofNamed (nameAll [] operations)
  let _ ← GraphM.settle passes created
  return endpoints

def warningsOf : List Named → DefinitionGraph → List Warning
  | [], _ => []
  | operation :: rest, g =>
    operation.warning.toList ++
      match ofOperation operation g with
      | .ok _ g => warningsOf rest g
      | .error .. => []

end Endpoint

end Classwright
