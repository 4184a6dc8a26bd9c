import Classwright.Proofs.Closure
import Classwright.Proofs.Graph.Conversion

namespace Classwright.Endpoint

open Schema Swagger

variable {passes : Nat} {operations : List Operation} {g g' : DefinitionGraph}
  {endpoints : List Endpoint}

theorem eq_map_endpointOf_of_ofOperations
    (h : ofOperations passes operations g = .ok endpoints g') :
    endpoints = (nameAll [] operations).map endpointOf := by
  obtain ⟨_, _, _, hn, _⟩ := ofOperations_eq_ok h
  exact eq_map_endpointOf_of_ofNamed hn

theorem isNamedAfter_of_eq_append {before after : List Endpoint} {e : Endpoint}
    (h : (nameAll [] operations).map endpointOf = before ++ e :: after) :
    IsNamedAfter (before.map (·.name)) (nameOf e.url e.method "") e.name := by
  obtain ⟨os, os', ho, rfl, hs⟩ := List.map_eq_append_iff.mp h
  obtain ⟨o, os'', rfl, rfl, rfl⟩ := List.map_eq_cons_iff.mp hs
  refine IsNamedAfter.of_mem_iff (fun n => ?_) <| isNamedAfter_of_nameAll os o os'' ho
  simp [endpointOf]

-- There is one endpoint for each operation, in order. It has its operation's own name, or that name
-- with the first counter that no endpoint before it has; there is such a counter whatever is used.
theorem named_of_ofOperations (h : ofOperations passes operations g = .ok endpoints g') :
    endpoints.map (fun e => (e.url, e.method, e.tag)) =
        operations.map (fun o => (o.url, o.method, o.tag)) ∧
      (endpoints.map (·.name)).Nodup ∧
      (∀ before e after, endpoints = before ++ e :: after →
        IsNamedAfter (before.map (·.name)) (nameOf e.url e.method "") e.name) ∧
      ∀ used own, ∃ n ≤ used.length + 2, IsFirstFree used own n := by
  have he := eq_map_endpointOf_of_ofOperations h
  refine ⟨?_, ?_, fun before e after hs => ?_, fun used own => ?_⟩
  · conv_rhs => rw [← @map_operation_nameAll [] operations]
    rw [he, List.map_map, List.map_map]
    rfl
  · rw [he, List.map_map]
    exact nodup_nameAll.left
  · exact isNamedAfter_of_eq_append <| he ▸ hs
  · obtain ⟨n, hl, hn, _⟩ := exists_isFirstFree used own
    exact ⟨n, hl, hn⟩

-- The second url has the name that a counter would give to the third one.
def countedOperations : List Operation :=
  [⟨"/pets", .get, some "pet", [], []⟩, ⟨"/pets2", .get, none, [], []⟩, ⟨"/pets/", .get, none, [], []⟩]

theorem named_countedOperations : ∃ endpoints g',
    ofOperations 3 countedOperations (.ofSchemas petSchemas) = .ok endpoints g' ∧
      endpoints.map (·.name) = ["GetPets", "GetPets2", "GetPets3"] ∧
      (endpoints.map (·.name)).Nodup := by
  obtain ⟨endpoints, g', h, hn⟩ : ∃ endpoints g',
      ofOperations 3 countedOperations (.ofSchemas petSchemas) = .ok endpoints g' ∧
        endpoints.map (·.name) = ["GetPets", "GetPets2", "GetPets3"] :=
    ⟨_, _, rfl, rfl⟩
  exact ⟨endpoints, g', h, hn, (named_of_ofOperations h).right.left⟩

end Classwright.Endpoint
