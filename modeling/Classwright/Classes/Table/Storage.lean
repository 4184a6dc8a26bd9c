import Classwright.Classes.Naming

namespace Classwright.Classes.Table

open Schema

inductive Unstored where
  | enumArray
  | primitiveArray
  | objectArray
  | targetId
  deriving Repr, DecidableEq

namespace Unstored

def reason : Unstored → String
  | .enumArray => "array of enums"
  | .primitiveArray => "array of non-string primitives"
  | .objectArray => "array of objects without a table"
  | .targetId => "referenced id is not a primitive"

end Unstored

-- Everything that is written about a table is read off the storage of its properties, without
-- another look at the graph.
inductive Storage where
  | scalar (primitive : Primitive) (isEnum : Bool)
  | stringList
  -- The fields of a definition, as columns of the owner.
  | flattened (definition : String) (parts : List (Property × Storage))
  -- The id of a definition with a table.
  | foreignKey (target : String) (id : Primitive)
  -- The ids of definitions with a table, joined into one text.
  | idList (target : String)
  -- Nothing; the rows of `target` carry the id of `owner`.
  | navigation (target owner : String)
  | unsupported (why : Unstored)
  -- The property has no type in the graph, or no finite row.
  | unresolved (error : Error)
  deriving Repr, Inhabited

def idType? (d : Definition) : Option Primitive :=
  (d.property? idName).bind fun id => if id.type.isEnum then some .string else id.type.primitive?

-- Does an edge of `target` say that its rows carry the id of `owner`?
def carriesKeyOf (target : Definition) (owner : String) : Bool :=
  target.edges.any fun edge => edge.relationship == .nToOne && edge.definition == owner

def tableStorage (owner : String) (p : Property) (target : Definition) : Storage :=
  if p.type.isArray then
    if carriesKeyOf target owner then .navigation target.name owner else .idList target.name
  else match idType? target with
    | some id => .foreignKey target.name id
    | none => .unsupported .targetId

-- How a property of `owner` is stored. Objects are flattened to at most `depth` levels; a chain of
-- distinct definitions is not longer than the graph.
def storageOf (g : DefinitionGraph) (depth : Nat) (owner : String) (p : Property) : Storage :=
  let element := p.type.element
  if element.isEnum then
    if p.type.isArray then .unsupported .enumArray else .scalar .string p.choices.isSome
  else match element.primitive? with
    | some primitive =>
      if !p.type.isArray then .scalar primitive false
      else if primitive = .string then .stringList
      else .unsupported .primitiveArray
    | none =>
      match g.get? element.name with
      | none => .unresolved (.unknownDefinition element.name)
      | some target =>
        if target.needsTable then tableStorage owner p target
        else if p.type.isArray then .unsupported .objectArray
        else match depth with
          | 0 => .unresolved (.endlessColumns target.name)
          | depth + 1 =>
            .flattened target.name
              (target.properties.map fun field => (field, storageOf g depth target.name field))

def storedParts (g : DefinitionGraph) (d : Definition) : List (Property × Storage) :=
  d.properties.map fun p => (p, storageOf g g.size d.name p)

end Classwright.Classes.Table
