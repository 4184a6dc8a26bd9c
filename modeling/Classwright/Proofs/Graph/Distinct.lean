import Classwright.Proofs.Graph.Listed

namespace Classwright

open Schema Swagger Yaml DefinitionGraph

namespace Yaml.Value

-- The keys of a mapping that are text.
def textKeys (entries : List (Value × Value)) : List String :=
  entries.filterMap (·.fst.str?)

mutual

-- No mapping within the value has two equal keys.
def isKeyed : Value → Bool
  | .seq items => areKeyed items
  | .map entries => decide (textKeys entries).Nodup && entriesKeyed entries
  | _ => true

def areKeyed : List Value → Bool
  | [] => true
  | item :: items => item.isKeyed && areKeyed items

def entriesKeyed : List (Value × Value) → Bool
  | [] => true
  | (_, value) :: entries => value.isKeyed && entriesKeyed entries

end

variable {v w : Value} {items : List Value} {entries : List (Value × Value)} {key : String}

theorem isKeyed_of_mem (h : areKeyed items) : ∀ item ∈ items, item.isKeyed := by
  induction items
  case nil => nofun
  case cons item items ih =>
    rw [areKeyed, Bool.and_eq_true] at h
    exact List.forall_mem_cons.mpr ⟨h.left, ih h.right⟩

theorem isKeyed_of_mem_entries (h : entriesKeyed entries) : ∀ e ∈ entries, e.snd.isKeyed := by
  induction entries
  case nil => nofun
  case cons e entries ih =>
    rw [entriesKeyed, Bool.and_eq_true] at h
    exact List.forall_mem_cons.mpr ⟨h.left, ih h.right⟩

theorem isKeyed_map_iff : (Value.map entries).isKeyed ↔
    (textKeys entries).Nodup ∧ entriesKeyed entries := by
  simp [isKeyed]

theorem isKeyed_of_get? (h : v.isKeyed) (hw : v.get? key = some w) : w.isKeyed := by
  cases v
  case map entries =>
    obtain ⟨e, he, rfl⟩ := Option.map_eq_some_iff.mp hw
    exact isKeyed_of_mem_entries (isKeyed_map_iff.mp h).right e <| List.mem_of_find?_eq_some he
  all_goals contradiction

theorem hereditary_isKeyed : Hereditary fun v => v.isKeyed where
  get?     := isKeyed_of_get?
  item h   := isKeyed_of_mem <| by simpa [isKeyed] using h
  entry h  := isKeyed_of_mem_entries (isKeyed_map_iff.mp h).right

end Yaml.Value

namespace Schema

-- No two fields have the same name, and neither do those of inline objects among them.
inductive DistinctFields : List Property → Prop
  | intro {ps} : (ps.map (·.name)).Nodup → (∀ p ∈ ps, DistinctFields p.fields) → DistinctFields ps

namespace DistinctFields

variable {p : Property} {ps qs : List Property}

theorem names (h : DistinctFields ps) : (ps.map (·.name)).Nodup := by
  cases h
  case intro h _ => exact h

theorem fields (h : DistinctFields ps) (hp : p ∈ ps) : DistinctFields p.fields := by
  cases h
  case intro _ h => exact h p hp

theorem nil : DistinctFields [] :=
  .intro List.nodup_nil <| List.forall_mem_nil _

theorem of_unlinked (h : DistinctFields ps)
    (hq : qs.map unlinkProperty = ps.map unlinkProperty) : DistinctFields qs := by
  refine .intro ?_ fun q hm => ?_
  · have hn : qs.map (·.name) = ps.map (·.name) := by
      simpa [Function.comp_def, unlinkProperty] using congrArg (List.map (·.name)) hq
    exact hn ▸ h.names
  · obtain ⟨p, hp, he⟩ := List.mem_map.mp <| hq ▸ List.mem_map_of_mem hm
    have hf : p.fields = q.fields := congrArg (·.fields) he
    exact hf ▸ h.fields hp

end DistinctFields

variable {schema : Value}

theorem distinct_fieldsOf (h : schema.isKeyed) : DistinctFields (fieldsOf schema) := by
  fun_induction fieldsOf schema
  case case1 entries hp ih =>
    have hk := Value.isKeyed_map_iff.mp <| Value.isKeyed_of_get? h hp
    refine .intro ?_ fun p hp => ?_
    · rw [List.map_filterMap]
      refine Eq.subst (motive := fun l : List String => l.Nodup) ?_ hk.left
      conv_lhs => rw [Value.textKeys, ← List.attach_map_subtype_val entries, List.filterMap_map]
      refine List.filterMap_congr fun x _ => ?_
      cases hs : x.val.fst.str? <;> simp [hs]
    · obtain ⟨⟨entry, hm⟩, _, he⟩ := List.mem_filterMap.mp hp
      obtain ⟨name, _, rfl⟩ := Option.map_eq_some_iff.mp he
      exact ih entry hm <| Value.hereditary_isKeyed.elementSchema <|
        Value.isKeyed_of_mem_entries hk.right entry hm
  case case2 => exact .nil

end Schema

namespace Endpoint

variable {o : Named} {a : String × List Property} {paths : List (Value × Value)}

-- What an operation adds to a graph has distinct fields, unless it is a group of url parameters.
theorem distinct_of_mem_additionsOf (ho : BringsFields DistinctFields o.operation)
    (h : a ∈ additionsOf o) :
    DistinctFields a.snd ∨ a.fst = o.name ++ "RequestParameters" ∧
      a.snd = (urlParametersOf o.operation).map stringProperty := by
  rcases List.mem_append.mp h with h | h
  · rw [groupAdditions] at h
    split at h
    case h_1 | h_2 => contradiction
    case h_3 => cases List.mem_singleton.mp h; exact .inr ⟨rfl, rfl⟩
  · obtain ⟨s, hs, h⟩ := List.mem_flatMap.mp h
    rw [(mem_slotAdditions h).right]
    rcases exists_of_mem_slotsOf hs with ⟨p, hp, hf⟩ | ⟨r, hr, hf⟩
    · exact .inl <| hf ▸ ho.left p hp
    · exact .inl <| hf ▸ ho.right r hr

theorem distinct_map_stringProperty_iff {us : List UrlParameter} :
    DistinctFields (us.map stringProperty) ↔ (us.map (·.name)).Nodup := by
  have hn : (us.map stringProperty).map (·.name) = us.map (·.name) := by
    simp [Function.comp_def, stringProperty, Property.ofType]
  refine ⟨fun h => hn ▸ h.names, fun h => .intro (hn ▸ h) fun p hp => ?_⟩
  obtain ⟨u, _, rfl⟩ := List.mem_map.mp hp
  exact .nil

end Endpoint

namespace DefinitionGraph

variable {g g' : DefinitionGraph} {owner : String} {index : Nat} {created : Option String}
  {vs : List Visit} {adds : List (String × List Property)} {names : List String}

-- The fields of every definition are distinct.
def IsDistinct (g : DefinitionGraph) : Prop :=
  ∀ n d, g.get? n = some d → DistinctFields d.properties

theorem isDistinct_ofDefinitions {definitions : List (Value × Value)}
    (h : (Value.map definitions).isKeyed) :
    (ofSchemas <| ObjectSchema.ofDefinitions definitions).IsDistinct := by
  intro n d hd
  obtain ⟨s, hs, _, rfl⟩ := exists_schema_of_get? hd
  obtain ⟨⟨key, schema⟩, hm, hs⟩ := List.mem_filterMap.mp hs
  obtain ⟨_, _, rfl⟩ := Option.map_eq_some_iff.mp hs
  exact distinct_fieldsOf <| Value.hereditary_isKeyed.entry h _ hm

namespace IsDistinct

theorem step (h : g.IsDistinct) (s : g.Step owner index g' created) : g'.IsDistinct := by
  cases s
  case idle => exact h
  case give p shape name hg =>
    obtain ⟨e, he, hp⟩ := hg.found
    have hs : DistinctFields shape := by
      rcases shape?_cases hg.made with ⟨_, rfl⟩ | ⟨_, n, d, hd, rfl, _⟩
      · exact (h owner e he).fields <| List.mem_of_getElem? hp
      · exact h n d hd
    intro n d' hd'
    rcases get?_give_cases hg.contains_owner hd' with ⟨d, hd, rfl⟩ | ⟨_, rfl, rfl⟩
    · refine .intro (by simpa using (h n d hd).names) fun q hq => ?_
      rcases hg.mem_given hd hq with hq | ⟨rfl, _⟩
      · exact (h n d hd).fields hq
      · exact .nil
    · exact hs

theorem steps (h : g.IsDistinct) (s : g.Steps vs g') : g'.IsDistinct :=
  s.preserves (fun s h => h.step s) h

theorem grown (h : g.IsDistinct) (hg : g.Grown adds names g')
    (ha : ∀ a ∈ adds, ¬g.contains a.fst → DistinctFields a.snd) : g'.IsDistinct := by
  intro n d' hd'
  rcases hg.get?_cases hd' with ⟨d, _, hd, rfl⟩ | ⟨hc, fields, _, hm, rfl⟩
  · exact h n d hd
  · exact ha _ hm hc

theorem alike (h : g.IsDistinct) (ha : g'.Alike g) : g'.IsDistinct := by
  intro n d' hd'
  obtain ⟨d, hd⟩ := exists_of_contains <| ha.contains_eq n ▸ contains_of_get? hd'
  obtain ⟨e, he, hp, _⟩ := ha.exists_of_get? hd
  cases hd'.symm.trans he
  exact (h n d hd).of_unlinked hp

end IsDistinct

end DefinitionGraph

end Classwright
