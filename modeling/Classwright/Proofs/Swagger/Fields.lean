import Classwright.Proofs.Swagger.Override

namespace Classwright.Swagger

open Yaml Schema

-- A predicate that passes from a value to its parts.
structure Hereditary (V : Value → Prop) : Prop where
  get?  : ∀ {v w : Value} {key : String}, V v → v.get? key = some w → V w
  item  : ∀ {items : List Value}, V (.seq items) → ∀ i ∈ items, V i
  entry : ∀ {entries : List (Value × Value)}, V (.map entries) → ∀ e ∈ entries, V e.snd

-- A predicate holds of the fields of each parameter and of each response.
def BringsFields (Q : List Property → Prop) (o : Operation) : Prop :=
  (∀ p ∈ o.parameters, Q p.fields) ∧ ∀ r ∈ o.responses, Q r.fields

variable {V : Value → Prop} {Q : List Property → Prop} {v key : Value} {p : Parameter}
  {r : Response}

theorem mem_foldl_override {ps qs : List Parameter} {q : Parameter}
    (h : q ∈ ps.foldl Parameter.override qs) : q ∈ ps ∨ q ∈ qs := by
  rw [Parameter.foldl_override, List.mem_append] at h
  rcases h with h | h
  · exact .inr (List.mem_filter.mp h).left
  · exact .inl <| Parameter.lastOfEach_sublist.subset h

section

variable (hV : Hereditary V) (hQ : ∀ schema, V schema → Q (fieldsOf schema)) (hn : Q [])

include hV

theorem Hereditary.elementSchema (hv : V v) : V (elementSchema v) := by
  rw [Schema.elementSchema]
  split
  case isFalse => exact hv
  case isTrue =>
    cases hi : v.get? "items"
    case none   => exact hv
    case some w => exact hV.get? hv hi

include hQ

theorem fields_of_ofValue? (hv : V v) (h : Parameter.ofValue? v = some p) : Q p.fields := by
  simp only [Parameter.ofValue?, bind, Option.bind_eq_some_iff] at h
  obtain ⟨_, _, location, _, h⟩ := h
  cases h
  refine hQ _ <| hV.elementSchema ?_
  split
  case isFalse => exact hv
  case isTrue =>
    cases hs : v.get? "schema"
    case none   => exact hv
    case some w => exact hV.get? hv hs

theorem fields_of_mem_listed (hv : V v) (h : p ∈ Parameter.listed v) : Q p.fields := by
  obtain ⟨w, hw, hp⟩ := List.mem_filterMap.mp h
  refine fields_of_ofValue? hV hQ ?_ hp
  cases hs : v.get? "parameters"
  case none => simp [hs] at hw
  case some list =>
    have hl := hV.get? hv hs
    cases list
    case seq items => exact hV.item hl w <| by simpa [hs, Value.seq?] using hw
    all_goals simp [hs, Value.seq?] at hw

include hn

theorem fields_of_ofEntry? (hv : V v) (h : Response.ofEntry? key v = some r) : Q r.fields := by
  simp only [Response.ofEntry?, bind, Option.bind_eq_some_iff] at h
  obtain ⟨_, _, h⟩ := h
  split at h <;> cases h
  case h_1 hs => exact hQ _ <| hV.elementSchema <| hV.get? hv hs
  case h_2    => exact hn

theorem fields_of_mem_responses (hv : V v) (h : r ∈ Response.listed v) : Q r.fields := by
  obtain ⟨⟨key, w⟩, hw, hr⟩ := List.mem_filterMap.mp h
  refine fields_of_ofEntry? hV hQ hn ?_ hr
  cases hs : v.get? "responses"
  case none => simp [hs] at hw
  case some list =>
    have hl := hV.get? hv hs
    cases list
    case map entries => exact hV.entry hl (key, w) <| by simpa [hs, Value.map?] using hw
    all_goals simp [hs, Value.map?] at hw

theorem bringsFields_of_mem_ofPaths {paths : List (Value × Value)} {o : Operation}
    (hp : V (.map paths)) (h : o ∈ Operation.ofPaths paths) : BringsFields Q o := by
  obtain ⟨⟨key, item⟩, hm, h⟩ := List.mem_flatMap.mp h
  have hi : V item := hV.entry hp _ hm
  dsimp only at h
  split at h
  case h_2 => contradiction
  case h_1 url _ =>
    cases item
    case map entries =>
      obtain ⟨⟨key, value⟩, hm, h⟩ := List.mem_filterMap.mp h
      obtain ⟨method, _, rfl⟩ := Option.map_eq_some_iff.mp h
      have hv : V value := hV.entry hi _ hm
      refine ⟨fun p hp => ?_, fun r hr => fields_of_mem_responses hV hQ hn hv hr⟩
      rcases mem_foldl_override hp with hp | hp
      · exact fields_of_mem_listed hV hQ hv hp
      · exact fields_of_mem_listed hV hQ hi hp
    all_goals contradiction

end

end Classwright.Swagger
