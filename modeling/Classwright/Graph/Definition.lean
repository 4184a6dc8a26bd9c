import Classwright.Schema.Property

namespace Classwright

open Schema

inductive Relationship where
  | oneToOne
  | oneToN
  | nToOne
  deriving Repr, DecidableEq

namespace Relationship

def name : Relationship → String
  | .oneToOne => "ONE_TO_ONE"
  | .oneToN => "ONE_TO_N"
  | .nToOne => "N_TO_ONE"

end Relationship

structure Edge where
  definition : String
  -- That property, or the foreign key on this side if the relationship is `nToOne`.
  property : String
  relationship : Relationship
  deriving Repr, DecidableEq

-- Definitions never hold each other: a property that leads to another definition names it, and a
-- relationship between two definitions is an edge that the definition at its far end holds.
structure Definition where
  name : String
  properties : List Property
  -- Told when the definition is made, by whether it has an `id`.
  needsTable : Bool
  edges : List Edge
  -- The fields are stored in columns of the owner's table.
  sharesTable : Bool
  tag : Option String
  deriving Repr, Inhabited

namespace Definition

-- A definition without relationships and tag. It has a table of its own if it has an `id`.
def make (name : String) (properties : List Property) : Definition where
  name := name
  properties := properties
  needsTable := properties.any (·.name == idName)
  edges := []
  sharesTable := false
  tag := none

def property? (d : Definition) (name : String) : Option Property :=
  d.properties.find? (·.name == name)

-- Marks a definition as part of its owner's table, unless it has its own.
def share (d : Definition) : Definition := { d with sharesTable := !d.needsTable }

def setProperty (d : Definition) (index : Nat) (f : Property → Property) : Definition :=
  { d with properties := d.properties.modify index f }

end Definition

end Classwright
