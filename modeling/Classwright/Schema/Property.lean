import Classwright.Schema.TypeRef

namespace Classwright.Schema

open Yaml

structure EdgeKey where
  definition : String
  index : Nat
  deriving Repr, DecidableEq

-- An array carries the choices and inline fields of its items.
structure Property where
  name : String
  type : TypeRef
  required : Bool
  -- The values of an enumeration, as written in the schema.
  enumValues : Option (List String)
  default : Option Value
  -- The fields of an object without a name of its own.
  fields : List Property
  -- The edge that this property stands for, once relationships are linked.
  refersTo : Option EdgeKey
  deriving Repr, Inhabited

def idName : String := "id"

namespace Property

-- A property of which only name, type and presence are known.
def ofType (name : String) (type : TypeRef) (required : Bool) : Property where
  name := name
  type := type
  required := required
  enumValues := none
  default := none
  fields := []
  refersTo := none

def choices (p : Property) : Option (List String) :=
  if p.type.element.isEnum then p.enumValues else none

mutual

-- Equality of properties; defaults are compared as YAML values.
def same : Property → Property → Bool
  | ⟨name₁, type₁, required₁, enumValues₁, default₁, fields₁, refersTo₁⟩,
    ⟨name₂, type₂, required₂, enumValues₂, default₂, fields₂, refersTo₂⟩ =>
    name₁ == name₂ && type₁ == type₂ && required₁ == required₂ && enumValues₁ == enumValues₂ &&
      default₁ == default₂ && sameAll fields₁ fields₂ && refersTo₁ == refersTo₂

def sameAll : List Property → List Property → Bool
  | [], [] => true
  | p :: ps, q :: qs => same p q && sameAll ps qs
  | _, _ => false

end

end Property

def elementSchema (schema : Value) : Value :=
  if (TypeRef.ofSchema schema).isArray then (schema.get? "items").getD schema else schema

theorem sizeOf_elementSchema_le (schema : Value) :
    sizeOf (elementSchema schema) ≤ sizeOf schema := by
  unfold elementSchema
  split
  · cases h : schema.get? "items" with
    | none => simp
    | some items => simpa using Nat.le_of_lt (Value.sizeOf_lt_of_get? h)
  · exact Nat.le_refl _

def enumValuesOf (schema : Value) : Option (List String) :=
  ((schema.get? "enum").bind Value.seq?).map (·.filterMap Value.scalarText?)

def requiredNames (schema : Value) : List String :=
  (((schema.get? "required").bind Value.seq?).getD []).filterMap Value.str?

-- The fields of an object schema, in document order; only text keys name fields.
def fieldsOf (schema : Value) : List Property :=
  match h : schema.get? "properties" with
  | some (.map entries) =>
    entries.attach.filterMap fun ⟨entry, mem⟩ =>
      have : sizeOf (elementSchema entry.2) < sizeOf schema :=
        Nat.lt_of_le_of_lt (sizeOf_elementSchema_le entry.2)
          (Nat.lt_trans (Value.sizeOf_lt_of_mem mem) (Value.sizeOf_lt_of_get? h))
      entry.1.str?.map fun name =>
        { name := name
          type := TypeRef.ofSchema entry.2
          required := (requiredNames schema).contains name
          enumValues := enumValuesOf (elementSchema entry.2)
          default := entry.2.get? "default"
          fields := fieldsOf (elementSchema entry.2)
          refersTo := none }
  | _ => []
termination_by sizeOf schema

structure ObjectSchema where
  name : String
  properties : List Property
  deriving Repr

namespace ObjectSchema

-- The entries of a `definitions` section, in document order; only text keys name definitions.
def ofDefinitions (definitions : List (Value × Value)) : List ObjectSchema :=
  definitions.filterMap fun (key, schema) => key.str?.map fun name => ⟨name, fieldsOf schema⟩

end ObjectSchema

end Classwright.Schema
