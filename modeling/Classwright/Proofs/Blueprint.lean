import Classwright.Graph.Blueprint
import Classwright.Proofs.Graph.Link
import Classwright.Proofs.Graph.Run

namespace Classwright.Blueprint

open Swagger Endpoint Yaml

variable {passes : Nat} {d : Document} {g g' : DefinitionGraph} {endpoints : List Endpoint}
  {e : Error}

theorem assemble_eq_ok (h : assemble passes d g = .ok endpoints g') :
    ∃ created g₁, GraphM.settle passes g.names g = .ok created g₁ ∧
      ofOperations passes d.operations g₁ = .ok endpoints g' := by
  obtain ⟨_, _, h₀, h⟩ := GraphM.bind_eq_ok_iff.mp h
  cases h₀
  obtain ⟨created, g₁, h₁, h⟩ := GraphM.bind_eq_ok_iff.mp h
  exact ⟨created, g₁, h₁, h⟩

theorem assemble_eq_error (h : assemble passes d g = .error e g') :
    GraphM.settle passes g.names g = .error e g' ∨
      ∃ created g₁, GraphM.settle passes g.names g = .ok created g₁ ∧
        ofOperations passes d.operations g₁ = .error e g' := by
  rcases GraphM.bind_eq_error_iff.mp h with h | ⟨_, _, h₀, h⟩
  · cases h
  cases h₀
  rcases GraphM.bind_eq_error_iff.mp h with h | ⟨created, g₁, h₁, h⟩
  · exact .inl h
  · exact .inr ⟨created, g₁, h₁, h⟩

theorem exists_of_ofDocument_eq_ok {b : Blueprint} (h : ofDocument passes d = .ok b) :
    ∃ endpoints g', assemble passes d (initialGraph d) = .ok endpoints g' ∧
      g'.verifyClosed = .ok () ∧ b = ⟨g'.linked, endpoints⟩ := by
  rw [ofDocument] at h
  split at h
  case h_1 => cases h
  case h_2 endpoints g' ha =>
    cases hv : g'.verifyClosed <;>
      simp [hv, DefinitionGraph.relink_eq_ok_linked, bind, Except.bind, pure, Except.pure] at h
    exact ⟨endpoints, g', ha, hv, h.symm⟩

theorem assemble_of_ofDocument_eq_ok {b : Blueprint} (h : ofDocument passes d = .ok b) :
    ∃ endpoints g', assemble passes d (initialGraph d) = .ok endpoints g' ∧
      b = ⟨g'.linked, endpoints⟩ :=
  have ⟨endpoints, g', ha, _, hb⟩ := exists_of_ofDocument_eq_ok h
  ⟨endpoints, g', ha, hb⟩

-- The schemas of an object and of an array, and a schema of one entry.
def objectOf (fields : List (String × Value)) : Value :=
  .map [(.str "properties", .map <| fields.map fun (name, schema) => (.str name, schema))]

def arrayOf (items : Value) : Value :=
  .map [(.str "type", .str "array"), (.str "items", items)]

def entryOf (key value : String) : Value :=
  .map [(.str key, .str value)]

-- A document without paths.
def documentOf (definitions : List (String × Value)) : Document where
  file := "spec.yaml"
  title := ""
  version := ""
  basePath := "/"
  tags := ["pets"]
  paths := []
  definitions := definitions.map fun (name, schema) => (.str name, schema)

end Classwright.Blueprint
