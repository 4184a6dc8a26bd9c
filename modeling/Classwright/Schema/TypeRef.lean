import Classwright.Yaml.Value

namespace Classwright.Schema

inductive Primitive where
  | string
  | number
  | integer
  | boolean
  deriving Repr, DecidableEq

namespace Primitive

def name : Primitive → String
  | .string => "string"
  | .number => "number"
  | .integer => "integer"
  | .boolean => "boolean"

def ofName? (name : String) : Option Primitive :=
  if name == "string" then some .string
  else if name == "number" then some .number
  else if name == "integer" then some .integer
  else if name == "boolean" then some .boolean
  else none

theorem ofName?_name (p : Primitive) : ofName? p.name = some p := by
  cases p <;> decide

end Primitive

def lastSegment (cs : List Char) : List Char :=
  (cs.reverse.takeWhile (· != '/')).reverse

-- The bare name that a reference path leads to; a name without a slash is its own.
def resolveReference (name : String) : String := .ofList (lastSegment name.toList)

def objectName : String := "object"

def arrayName : String := "array"

-- A type by its name, perhaps with the type of its items. Reference paths are resolved to bare
-- names when a type is made.
inductive TypeRef where
  | named (name : String) (isEnum : Bool)
  | holding (name : String) (items : TypeRef) (isEnum : Bool)
  deriving Repr, DecidableEq, Inhabited

namespace TypeRef

def make (name : String) (items : Option TypeRef) (isEnum : Bool) : TypeRef :=
  match items with
  | none => .named (resolveReference name) isEnum
  | some items => .holding (resolveReference name) items isEnum

-- A type that is only a name.
def ofName (name : String) : TypeRef := make name none false

def name : TypeRef → String
  | .named name _ => name
  | .holding name _ _ => name

def items? : TypeRef → Option TypeRef
  | .named .. => none
  | .holding _ items _ => some items

def isEnum : TypeRef → Bool
  | .named _ isEnum => isEnum
  | .holding _ _ isEnum => isEnum

def primitive? (t : TypeRef) : Option Primitive := Primitive.ofName? t.name

def isNative (t : TypeRef) : Bool := t.primitive?.isSome

def isArray (t : TypeRef) : Bool := t.name == arrayName

def element : TypeRef → TypeRef
  | .named name isEnum => .named name isEnum
  | .holding name items isEnum => if name == arrayName then items else .holding name items isEnum

def withElement (t replacement : TypeRef) : TypeRef :=
  match t with
  | .named .. => replacement
  | .holding name _ isEnum =>
    if name == arrayName then .holding name replacement isEnum else replacement

def isScalarElement (t : TypeRef) : Bool := t.element.isNative || t.element.isEnum

end TypeRef

end Classwright.Schema

namespace Classwright.Yaml.Value

theorem sizeOf_lt_of_mem {entries : List (Value × Value)} {entry : Value × Value}
    (h : entry ∈ entries) : sizeOf entry.2 < sizeOf (Value.map entries) := by
  have := List.sizeOf_lt_of_mem h
  obtain ⟨key, value⟩ := entry
  simp only [Prod.mk.sizeOf_spec] at this
  simp only [Value.map.sizeOf_spec]
  omega

theorem sizeOf_lt_of_get? {v w : Value} {key : String} (h : v.get? key = some w) :
    sizeOf w < sizeOf v := by
  cases v with
  | map entries =>
    simp only [get?, Option.map_eq_some_iff] at h
    obtain ⟨entry, found, rfl⟩ := h
    exact sizeOf_lt_of_mem (List.mem_of_find?_eq_some found)
  | _ => simp [get?] at h

end Classwright.Yaml.Value

namespace Classwright.Schema.TypeRef

open Yaml

-- The type that a schema describes: what its `$ref` leads to, or else its `type`, with the type of
-- its `items` if that is an array. Items that are not described are objects.
def ofSchema (schema : Value) : TypeRef :=
  match (schema.get? "$ref").bind Value.str? with
  | some reference => ofName reference
  | none =>
    let name := ((schema.get? "type").bind Value.str?).getD objectName
    let isEnum := ((schema.get? "enum").bind Value.seq?).isSome
    if name == arrayName then
      match h : schema.get? "items" with
      | some items =>
        have := Value.sizeOf_lt_of_get? h
        make name (some (ofSchema items)) isEnum
      | none => make name (some (ofName objectName)) isEnum
    else make name none isEnum
termination_by sizeOf schema

end Classwright.Schema.TypeRef
