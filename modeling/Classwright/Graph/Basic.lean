import Classwright.Error
import Classwright.Graph.Definition

namespace Classwright

-- Definitions in the order of their insertion, each under a name of its own. No operation reorders
-- the graph or loses a name.
structure DefinitionGraph where
  definitions : List Definition
  nodup : (definitions.map (·.name)).Nodup
  deriving Repr

namespace DefinitionGraph

def names (g : DefinitionGraph) : List String := g.definitions.map (·.name)

def size (g : DefinitionGraph) : Nat := g.definitions.length

def empty : DefinitionGraph := ⟨[], List.nodup_nil⟩

def get? (g : DefinitionGraph) (name : String) : Option Definition :=
  g.definitions.find? (·.name == name)

def contains (g : DefinitionGraph) (name : String) : Bool := (g.get? name).isSome

def require (g : DefinitionGraph) (name : String) : Except Error Definition :=
  match g.get? name with
  | some d => .ok d
  | none => .error (.unknownDefinition name)

def needsTable (g : DefinitionGraph) (name : String) : Bool := (g.get? name).any (·.needsTable)

theorem contains_iff {g : DefinitionGraph} {name : String} : g.contains name ↔ name ∈ g.names := by
  simp [contains, get?, names]

def replaceIn (d : Definition) (definitions : List Definition) : List Definition :=
  definitions.map fun e => if e.name == d.name then d else e

theorem map_name_replaceIn (d : Definition) (definitions : List Definition) :
    (replaceIn d definitions).map (·.name) = definitions.map (·.name) := by
  simp only [replaceIn, List.map_map]
  apply List.map_congr_left
  intro e _
  by_cases h : e.name == d.name <;> simp_all

def insert (g : DefinitionGraph) (d : Definition) : DefinitionGraph :=
  if h : g.contains d.name then
    ⟨replaceIn d g.definitions, by rw [map_name_replaceIn]; exact g.nodup⟩
  else
    ⟨g.definitions ++ [d], by
      have fresh : d.name ∉ g.definitions.map (·.name) := fun mem => h (contains_iff.2 mem)
      rw [List.map_append, List.nodup_append]
      refine ⟨g.nodup, by simp, ?_⟩
      intro a ha b hb
      simp only [List.map_cons, List.map_nil, List.mem_singleton] at hb
      subst hb
      exact fun same => fresh (same ▸ ha)⟩

-- Changes a definition except for its name.
def keepName (f : Definition → Definition) (d : Definition) : Definition :=
  { f d with name := d.name }

@[simp] theorem keepName_name (f : Definition → Definition) (d : Definition) :
    (keepName f d).name = d.name := rfl

-- Changes every definition; each keeps its name.
def mapDefinitions (g : DefinitionGraph) (f : Definition → Definition) : DefinitionGraph where
  definitions := g.definitions.map (keepName f)
  nodup := by simpa [List.map_map, Function.comp_def] using g.nodup

def modify (g : DefinitionGraph) (name : String) (f : Definition → Definition) : DefinitionGraph :=
  g.mapDefinitions fun d => if d.name == name then f d else d

@[simp] theorem names_mapDefinitions (g : DefinitionGraph) (f : Definition → Definition) :
    (g.mapDefinitions f).names = g.names := by
  simp [mapDefinitions, names, List.map_map, Function.comp_def]

@[simp] theorem names_modify (g : DefinitionGraph) (name : String) (f : Definition → Definition) :
    (g.modify name f).names = g.names := by
  simp [modify]

-- The graph of a list of definitions; a later definition replaces an earlier one of its name.
def ofList (definitions : List Definition) : DefinitionGraph := definitions.foldl insert empty

def ofSchemas (schemas : List Schema.ObjectSchema) : DefinitionGraph :=
  ofList (schemas.map fun schema => .make schema.name schema.properties)

def attach (g : DefinitionGraph) (target : String) (edge : Edge) :
    Except Error (DefinitionGraph × Schema.EdgeKey) := do
  let d ← g.require target
  return (g.modify target fun d => { d with edges := d.edges ++ [edge] }, ⟨target, d.edges.length⟩)

def edge? (g : DefinitionGraph) (key : Schema.EdgeKey) : Option Edge :=
  (g.get? key.definition).bind (·.edges[key.index]?)

end DefinitionGraph

end Classwright
