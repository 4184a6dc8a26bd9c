import Classwright.Graph.Basic
import Classwright.Text.Naming

namespace Classwright

open Schema

abbrev GraphM := EStateM Error DefinitionGraph

namespace DefinitionGraph

def sharedProperties? (g : DefinitionGraph) (name : String) : Option (List Property) :=
  ((g.get? name).filter (!·.needsTable)).map (·.properties)

-- The properties that the new type of `p` has: its inline fields, or else those of a definition
-- that already has the property's name and no table, or else those of the definition it leads to.
def shape? (g : DefinitionGraph) (p : Property) : Option (List Property) :=
  let target := p.type.element.name
  if target == objectName || !p.fields.isEmpty then some p.fields
  else (g.sharedProperties? (Naming.capitalize p.name)).or ((g.get? target).map (·.properties))

def candidate (owner base : String) : Nat → String
  | 0 => base
  | 1 => owner ++ base
  | n => owner ++ base ++ toString n

-- A name can be used for a shape if it is free or its definition has just this shape.
def accepts (g : DefinitionGraph) (shape : List Property) (name : String) : Bool :=
  match g.get? name with
  | none => true
  | some d => Property.sameAll d.properties shape

-- The first candidate that can be used. From the second on the candidates are distinct, so among
-- `size + 2` of them one is free.
def nameFor (g : DefinitionGraph) (owner base : String) (shape : List Property) : String :=
  (((List.range (g.size + 2)).map (candidate owner base)).find? (g.accepts shape)).getD base

-- Makes sure that a definition of this name and shape exists and shares its owner's table.
def provide (g : DefinitionGraph) (name : String) (shape : List Property) : DefinitionGraph :=
  if g.contains name then g.modify name (·.share) else g.insert (Definition.make name shape).share

def retarget (name : String) (p : Property) : Property :=
  { p with type := p.type.withElement (.ofName name), fields := [] }

-- Does the property need a definition of its own: neither a scalar nor a reference to a table?
def needsSynthesis (g : DefinitionGraph) (p : Property) : Bool :=
  !p.type.isScalarElement && !g.needsTable p.type.element.name

-- One step: settles the property `index` of `owner`, and tells the name that was created.
def synthesizeProperty (g : DefinitionGraph) (owner : String) (index : Nat) :
    Except Error (DefinitionGraph × Option String) := do
  let d ← g.require owner
  match d.properties[index]? with
  | none => return (g, none)
  | some p =>
    if !g.needsSynthesis p then return (g, none)
    match g.shape? p with
    | none => throw (.danglingReference owner p.name p.type.element.name)
    | some shape =>
      let name := g.nameFor owner (Naming.capitalize p.name) shape
      let created := if g.contains name then none else some name
      let settled := (g.provide name shape).modify owner (·.setProperty index (retarget name))
      return (settled, created)

end DefinitionGraph

namespace GraphM

open DefinitionGraph

def require (name : String) : GraphM Definition := fun g =>
  match g.require name with
  | .ok d => .ok d g
  | .error e => .error e g

def synthesizeProperty (owner : String) (index : Nat) : GraphM (Option String) := fun g =>
  match g.synthesizeProperty owner index with
  | .ok (g, created) => .ok created g
  | .error e => .error e g

-- The steps of some properties of a definition; the result lists the names that were created.
def scanProperties (owner : String) : List Nat → GraphM (List String)
  | [] => pure []
  | index :: rest => do
    let created ← synthesizeProperty owner index
    return created.toList ++ (← scanProperties owner rest)

def pass : List String → GraphM (List String)
  | [] => pure []
  | owner :: rest => do
    let d ← require owner
    let created ← scanProperties owner (List.range d.properties.length)
    return created ++ (← pass rest)

-- Passes until nothing is pending, at most `passes` of them. Passes need not end: a definition
-- without a table that contains itself can call for longer names without end.
def settle (passes : Nat) (pending : List String) : GraphM (List String) :=
  if pending.isEmpty then pure []
  else match passes with
    | 0 => throw .unsettled
    | passes + 1 => do
      let created ← pass pending
      return created ++ (← settle passes created)

end GraphM

end Classwright
