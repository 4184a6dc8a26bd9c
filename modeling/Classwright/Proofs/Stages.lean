import Classwright.Proofs.Blueprint
import Classwright.Proofs.Closure
import Classwright.Proofs.Graph.Conversion

namespace Classwright.Blueprint

open Swagger Endpoint

variable {passes : Nat} {d : Document} {b : Blueprint} {g : DefinitionGraph}

-- The graph that synthesis over the definitions of a document ends in, before its operations add to
-- it.
def Synthesizes (passes : Nat) (d : Document) (g : DefinitionGraph) : Prop :=
  ∃ created, GraphM.settle passes (initialGraph d).names (initialGraph d) = .ok created g

theorem exists_synthesizes (h : ofDocument passes d = .ok b) : ∃ g, Synthesizes passes d g := by
  obtain ⟨_, _, ha, _⟩ := assemble_of_ofDocument_eq_ok h
  obtain ⟨created, g, hs, _⟩ := assemble_eq_ok ha
  exact ⟨g, created, hs⟩

theorem Synthesizes.stages (hs : Synthesizes passes d g) (h : ofDocument passes d = .ok b) :
    ∃ created g₁ more g₂,
      ofNamed (nameAll [] d.operations) g = .ok (b.endpoints, created) g₁ ∧
      GraphM.settle passes created g₁ = .ok more g₂ ∧ b.graph = g₂.linked := by
  obtain ⟨endpoints, g₂, ha, rfl⟩ := assemble_of_ofDocument_eq_ok h
  obtain ⟨_, _, hs', ho⟩ := assemble_eq_ok ha
  obtain ⟨_, hs⟩ := hs
  cases hs.symm.trans hs'
  obtain ⟨created, g₁, more, hn, hm⟩ := ofOperations_eq_ok ho
  exact ⟨created, g₁, more, g₂, hn, hm, rfl⟩

theorem endpoints_eq (h : ofDocument passes d = .ok b) :
    b.endpoints = (nameAll [] d.operations).map endpointOf := by
  obtain ⟨g, hs⟩ := exists_synthesizes h
  obtain ⟨_, _, _, _, hn, _⟩ := hs.stages h
  exact eq_map_endpointOf_of_ofNamed hn

end Classwright.Blueprint
