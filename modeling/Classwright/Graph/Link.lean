import Classwright.Graph.Basic
import Classwright.Text.Naming

namespace Classwright

open Schema

def foreignKeyName (owner : String) : String := Naming.lowerFirst owner ++ "Id"

namespace DefinitionGraph

structure Link where
  target : String
  -- The definition that has the property on which the edge is anchored.
  anchor : String
  edge : Edge
  deriving Repr, DecidableEq

-- The link of a property of `owner`, if the property leads to a definition with a table. The edge
-- is anchored on the property that makes it, or, if the items of an array carry a foreign key to
-- the owner, on that key; the anchor refers back to the edge.
def link? (g : DefinitionGraph) (owner : String) (p : Property) : Option Link :=
  let target := p.type.element.name
  let ownLink (relationship : Relationship) : Link := ⟨target, owner, owner, p.name, relationship⟩
  let key := foreignKeyName owner
  if !g.needsTable target then none
  else if !p.type.isArray then some (ownLink .oneToOne)
  else if ((g.get? target).bind (·.property? key)).isSome then
    some ⟨target, target, owner, key, .nToOne⟩
  else some (ownLink .oneToN)

def unlinkProperty (p : Property) : Property := { p with refersTo := none }

def unlinked (g : DefinitionGraph) : DefinitionGraph :=
  g.mapDefinitions fun d => { d with edges := [], properties := d.properties.map unlinkProperty }

def referTo (key : EdgeKey) (name : String) : List Property → List Property
  | [] => []
  | p :: rest =>
    if p.name == name then { p with refersTo := some key } :: rest
    else p :: referTo key name rest

-- Adds the edge of one property, if it makes one, and lets the anchor of the edge refer to it.
def linkProperty (g : DefinitionGraph) (owner : String) (index : Nat) :
    Except Error DefinitionGraph := do
  let d ← g.require owner
  match d.properties[index]?.bind (g.link? owner) with
  | none => return g
  | some link =>
    let (g, key) ← g.attach link.target link.edge
    let _ ← g.require link.anchor
    return g.modify link.anchor fun d =>
      { d with properties := referTo key link.edge.property d.properties }

def linkDefinition (g : DefinitionGraph) (owner : String) : Except Error DefinitionGraph := do
  let d ← g.require owner
  (List.range d.properties.length).foldlM (fun g index => g.linkProperty owner index) g

-- Replaces all edges by those that the properties make, by definitions and then by properties.
def relink (g : DefinitionGraph) : Except Error DefinitionGraph :=
  g.names.foldlM linkDefinition g.unlinked

def links (g : DefinitionGraph) : List Link :=
  g.definitions.flatMap fun d => d.properties.filterMap (g.link? d.name)

def addLink (g : DefinitionGraph) (link : Link) : DefinitionGraph :=
  match g.attach link.target link.edge with
  | .error _ => g
  | .ok (g, key) =>
    g.modify link.anchor fun d =>
      { d with properties := referTo key link.edge.property d.properties }

-- What relinking comes to: the edges of the links that the graph has from the start.
def linked (g : DefinitionGraph) : DefinitionGraph := g.links.foldl addLink g.unlinked

end DefinitionGraph

end Classwright
