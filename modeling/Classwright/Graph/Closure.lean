import Classwright.Graph.Basic

namespace Classwright.DefinitionGraph

open Schema

def resolves (g : DefinitionGraph) (type : TypeRef) : Bool :=
  type.isScalarElement || g.contains type.element.name

-- The first property whose type does not resolve, with its definition.
def unresolved? (g : DefinitionGraph) : Option (Definition × Property) :=
  g.definitions.findSome? fun d => (d.properties.find? (!g.resolves ·.type)).map fun p => (d, p)

def verifyClosed (g : DefinitionGraph) : Except Error Unit :=
  match g.unresolved? with
  | none => .ok ()
  | some (d, p) => .error (.danglingReference d.name p.name p.type.element.name)

end Classwright.DefinitionGraph
