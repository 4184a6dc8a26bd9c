import Classwright.Graph.Synthesis
import Mathlib.Data.List.Nodup

namespace Classwright.DefinitionGraph

variable {g g' : DefinitionGraph} {d e : Definition} {n m : String} {f : Definition → Definition}

theorem name_of_get? (h : g.get? n = some d) : d.name = n := by
  simpa using List.find?_some h

theorem mem_of_get? (h : g.get? n = some d) : d ∈ g.definitions :=
  List.mem_of_find?_eq_some h

-- Names are unique, so looking up the name of a definition finds that definition.
theorem get?_of_mem (h : d ∈ g.definitions) : g.get? d.name = some d := by
  obtain ⟨e, he⟩ : ∃ e, g.get? d.name = some e := by
    apply Option.isSome_iff_exists.mp
    exact List.find?_isSome.mpr ⟨d, h, by simp⟩
  have hn := List.inj_on_of_nodup_map g.nodup (mem_of_get? he) h (name_of_get? he)
  exact hn ▸ he

theorem get?_eq_none_iff : g.get? n = none ↔ n ∉ g.names := by
  simp [get?, names]

theorem contains_of_get? (h : g.get? n = some d) : g.contains n := by
  simp [contains, h]

theorem exists_of_contains (h : g.contains n) : ∃ d, g.get? n = some d :=
  Option.isSome_iff_exists.mp h

theorem mem_names_of_get? (h : g.get? n = some d) : n ∈ g.names :=
  contains_iff.mp <| contains_of_get? h

theorem exists_of_mem_names (h : n ∈ g.names) : ∃ d, g.get? n = some d :=
  exists_of_contains <| contains_iff.mpr h

theorem needsTable_of_get? (h : g.get? n = some d) : g.needsTable n = d.needsTable := by
  simp [needsTable, h]

theorem contains_of_needsTable (h : g.needsTable n) : g.contains n := by
  cases hd : g.get? n <;> simp_all [needsTable, contains]

theorem require_eq_ok_iff : g.require n = .ok d ↔ g.get? n = some d := by
  cases h : g.get? n <;> simp [require, h]

theorem require_eq_error_iff {x : Error} :
    g.require n = .error x ↔ g.get? n = none ∧ x = .unknownDefinition n := by
  cases h : g.get? n <;> simp [require, h, eq_comm]

theorem get?_mapDefinitions : (g.mapDefinitions f).get? n = (g.get? n).map (keepName f) := by
  simp only [get?, mapDefinitions, List.find?_map]
  congr 1

-- Only the definition of the name changes.
theorem get?_modify (hf : ∀ d, (f d).name = d.name) :
    (g.modify n f).get? m = if m = n then (g.get? m).map f else g.get? m := by
  simp only [modify, get?_mapDefinitions]
  cases hd : g.get? m
  case none => simp
  case some d =>
    have hm := name_of_get? hd
    by_cases h : m = n
    case pos => simp [keepName, hm, h, show { f d with name := n } = f d by rw [← h, ← hm, ← hf]]
    case neg => simp [keepName, hm, h, show { d with name := m } = d by rw [← hm]]

-- A definition that is replaced and one that is added are both found under their name.
theorem get?_insert : (g.insert d).get? m = if m = d.name then some d else g.get? m := by
  rw [insert]
  split
  case isTrue hc =>
    obtain ⟨e, he⟩ := exists_of_contains hc
    have hn := name_of_get? he
    simp only [get?, replaceIn, List.find?_map] at he ⊢
    have hf : ((·.name == m) ∘ fun e : Definition => if e.name == d.name then d else e) =
        (·.name == m) := by
      funext e
      by_cases h : e.name = d.name <;> simp [h]
    rw [hf]
    split
    case isTrue hm => simp [hm, he, hn]
    case isFalse hm =>
      cases hx : g.definitions.find? (·.name == m)
      case none => rfl
      case some x =>
        have : x.name = m := by simpa using List.find?_some hx
        simp [this, hm]
  case isFalse hc =>
    have hd := get?_eq_none_iff.mpr <| mt contains_iff.mpr hc
    simp only [get?, List.find?_append] at hd ⊢
    split
    case isTrue hm => simp [hm, hd]
    case isFalse hm => simp [Ne.symm hm]

theorem names_insert_fresh (h : ¬g.contains d.name) : (g.insert d).names = g.names ++ [d.name] := by
  simp [insert, h, names]

theorem size_eq_length_names : g.size = g.names.length := by
  simp [size, names]

theorem nodup_names : g.names.Nodup :=
  g.nodup

-- A graph that has further names has none of them twice.
theorem not_contains_of_names_eq {created : List String} (h : g'.names = g.names ++ created)
    (hn : n ∈ created) : ¬g.contains n := by
  have hnd := h ▸ nodup_names (g := g')
  exact fun hc => (List.nodup_append.mp hnd).right.right n (contains_iff.mp hc) n hn rfl

theorem get?_foldl_insert {ds : List Definition} (h : (ds.foldl insert g).get? n = some d) :
    d ∈ ds ∨ g.get? n = some d := by
  induction ds generalizing g
  case nil => exact .inr h
  case cons e ds ih =>
    cases ih h
    case inl hm => exact .inl <| List.mem_cons_of_mem _ hm
    case inr hg =>
      rw [get?_insert] at hg
      split at hg
      case isTrue  => exact .inl <| by simp [Option.some_inj.mp hg]
      case isFalse => exact .inr hg

theorem contains_foldl_insert {ds : List Definition} :
    (ds.foldl insert g).contains n ↔ (∃ d ∈ ds, d.name = n) ∨ g.contains n := by
  induction ds generalizing g
  case nil          => simp
  case cons e ds ih => rw [List.foldl_cons, ih, contains, get?_insert]; grind [contains]

-- The graph of a document has a definition for each schema, made of the fields of the schema.
theorem exists_schema_of_get? {schemas : List Schema.ObjectSchema}
    (h : (ofSchemas schemas).get? n = some d) :
    ∃ s ∈ schemas, s.name = n ∧ d = .make n s.properties := by
  have hd := (get?_foldl_insert h).resolve_right <| by simp [empty, get?]
  obtain ⟨s, hs, rfl⟩ := List.mem_map.mp hd
  have hn := name_of_get? h
  exact ⟨s, hs, hn, by rw [← hn]; rfl⟩

theorem contains_ofSchemas {schemas : List Schema.ObjectSchema} :
    (ofSchemas schemas).contains n ↔ ∃ s ∈ schemas, s.name = n := by
  rw [ofSchemas, ofList, contains_foldl_insert]
  simp [Definition.make, empty, contains, get?]

end Classwright.DefinitionGraph
