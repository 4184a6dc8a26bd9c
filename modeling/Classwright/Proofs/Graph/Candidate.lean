import Classwright.Proofs.Graph.Lookup
import Classwright.Proofs.Schema.Name

namespace Classwright.DefinitionGraph

open Schema

variable {g : DefinitionGraph} {owner base : String} {shape : List Property}

theorem candidate_succ_injective (owner base : String) :
    (fun k => candidate owner base (k + 1)).Injective := by
  have hd : ∀ k : Nat, (toString k).toList ≠ [] := by
    intro k
    rw [Nat.toString_eq_repr, Nat.toList_repr]
    exact Nat.toDigits_ne_nil
  intro j k h
  match j, k with
  | 0, 0         => rfl
  | 0, k + 1     => simpa [candidate, String.toList_append, hd] using congrArg String.toList h
  | j + 1, 0     => simpa [candidate, String.toList_append, hd] using congrArg String.toList h
  | j + 1, k + 1 => have := append_toString_injective (owner ++ base) h; omega

theorem contains_of_not_accepts {n : String} (h : ¬g.accepts shape n) : g.contains n := by
  cases hn : g.get? n <;> simp_all [accepts, contains]

-- There are more candidates than definitions, so they cannot all be taken.
theorem exists_accepted (g : DefinitionGraph) (owner base : String) (shape : List Property) :
    ∃ k < g.size + 2, g.accepts shape (candidate owner base k) := by
  obtain ⟨k, hk, hn⟩ := exists_lt_not_mem (candidate_succ_injective owner base) g.names
  refine ⟨k + 1, by rw [size_eq_length_names]; omega, ?_⟩
  by_contra ha
  exact hn <| contains_iff.mp <| contains_of_not_accepts ha

-- The name for a shape is the first candidate that can be used.
theorem nameFor_eq_candidate (g : DefinitionGraph) (owner base : String) (shape : List Property) :
    ∃ k, g.nameFor owner base shape = candidate owner base k ∧
      g.accepts shape (candidate owner base k) ∧
      ∀ j < k, ¬g.accepts shape (candidate owner base j) := by
  obtain ⟨k, hk, ha⟩ := exists_accepted g owner base shape
  obtain ⟨n, hf⟩ : ∃ n, ((List.range (g.size + 2)).map (candidate owner base)).find?
      (g.accepts shape) = some n := by
    apply Option.isSome_iff_exists.mp
    exact List.find?_isSome.mpr ⟨_, List.mem_map.mpr ⟨k, List.mem_range.mpr hk, rfl⟩, ha⟩
  obtain ⟨ha, i, hi, he, hj⟩ := List.find?_eq_some_iff_getElem.mp hf
  simp only [List.getElem_map, List.getElem_range, List.length_map, List.length_range] at hi he hj
  refine ⟨i, by simp [nameFor, hf, he], he ▸ ha, fun j hji => ?_⟩
  simpa using hj j hji

theorem accepts_nameFor (g : DefinitionGraph) (owner base : String) (shape : List Property) :
    g.accepts shape (g.nameFor owner base shape) := by
  obtain ⟨k, hk, ha, _⟩ := nameFor_eq_candidate g owner base shape
  exact hk ▸ ha

end Classwright.DefinitionGraph
