import Classwright.Proofs.Built

namespace Classwright

open Schema Swagger DefinitionGraph

namespace DefinitionGraph

variable {g : DefinitionGraph} {d : Definition} {p : Property} {e : Edge} {key : EdgeKey}
  {n : String} {j : Nat} {anchor : String × String} {place place' : String × Nat}

-- Linking never fails. It gives each definition the edges of all properties that lead to it, and lets
-- each property refer to the last edge that is anchored on it. It does not look at what was linked
-- before, so it changes nothing when it is done again.
theorem exists_relink_eq_ok (h : ∀ d ∈ g.definitions, (d.properties.map (·.name)).Nodup) :
    ∃ g', g.relink = .ok g' ∧
      g'.definitions = g.definitions.map (fun d =>
        { d with
          edges := g.names.flatMap fun o => (g.propertiesOf o).filterMap (edgeFrom? d o)
          properties := d.properties.map fun p =>
            { p with refersTo := g.lastKey? (d.name, p.name) } }) ∧
      (∀ key e, g'.edge? key = some e ↔ (key, e) ∈ g.keyed) ∧
      (∀ g₁ : DefinitionGraph, g₁.unlinked = g.unlinked → g₁.relink = .ok g') ∧
      g'.relink = .ok g' := by
  refine ⟨g.linked, relink_eq_ok_linked g, ?_, fun _ _ => edge?_linked_eq_some_iff, fun g₁ hu => ?_,
    ?_⟩
  · rw [linked_eq, mapDefinitions]
    refine List.map_congr_left fun d hd => ?_
    have he : (linkedBy g.calls d).edges = _ := filter_calls <| get?_of_mem hd
    have hp : (linkedBy g.calls d).properties = _ := properties_linkedBy <| h d hd
    rw [← he]
    simp only [lastKey?, keyed, ← hp]
    rfl
  · rw [relink_eq_ok_linked, ← linked_unlinked, hu, linked_unlinked]
  · rw [relink_eq_ok_linked, linked_linked]

-- A person has a friend, and is in two lists of a person that share the key of that person.
def personGraph : DefinitionGraph where
  definitions := [{ Definition.make "Person" [
    .ofType "id" (.named "integer" false) false,
    .ofType "personId" (.named "integer" false) false,
    .ofType "friend" (.named "Person" false) false,
    .ofType "pupils" (.holding "array" (.named "Person" false) false) false,
    .ofType "patients" (.holding "array" (.named "Person" false) false) false] with
      edges := [⟨"Person", "teacher", .oneToOne⟩] }]
  nodup := by decide

theorem relink_personGraph :
    (∀ d ∈ personGraph.definitions, (d.properties.map (·.name)).Nodup) ∧
    ∃ g', personGraph.relink = .ok g' ∧ g'.relink = .ok g' ∧
      g'.definitions.map (·.edges) = [[⟨"Person", "friend", .oneToOne⟩,
        ⟨"Person", "personId", .nToOne⟩, ⟨"Person", "personId", .nToOne⟩]] ∧
      g'.definitions.map (·.properties.map (·.refersTo)) =
        [[none, some ⟨"Person", 2⟩, some ⟨"Person", 0⟩, none, none]] := by
  have hn : ∀ d ∈ personGraph.definitions, (d.properties.map (·.name)).Nodup := by decide
  obtain ⟨g', hg, hd, _, _, hi⟩ := exists_relink_eq_ok hn
  refine ⟨hn, g', hg, hi, ?_, ?_⟩ <;> rw [hd] <;> rfl

-- The property at a place refers to an edge; a place is a definition and an index.
def RefersAt (g : DefinitionGraph) (key : EdgeKey) (place : String × Nat) : Prop :=
  ∃ p, (g.propertiesOf place.fst)[place.snd]? = some p ∧ p.refersTo = some key

theorem exists_of_lastKey?_eq_some (h : g.lastKey? anchor = some key) :
    ∃ e, (key, e) ∈ g.keyed ∧ e.anchor key.definition = anchor := by
  obtain ⟨⟨_, e⟩, hf, rfl⟩ := Option.map_eq_some_iff.mp h
  exact ⟨e, List.mem_reverse.mp <| List.mem_of_find?_eq_some hf, by simpa using List.find?_some hf⟩

theorem exists_lastKey? (h : (key, e) ∈ g.keyed) :
    ∃ key', g.lastKey? (e.anchor key.definition) = some key' := by
  apply Option.isSome_iff_exists.mp
  rw [lastKey?, lastOf, Option.isSome_map, List.find?_isSome]
  exact ⟨_, List.mem_reverse.mpr h, by simp⟩

theorem mem_calls_of_mem_keyed (h : (key, e) ∈ g.keyed) : (key.definition, e) ∈ g.calls := by
  obtain ⟨k, _, hk⟩ := mem_keyedAfter.mp h
  obtain ⟨⟨t, _⟩, hm, rfl⟩ := List.mem_map.mp <| List.mem_of_getElem? hk
  obtain ⟨hm, ht⟩ := List.mem_filter.mp hm
  simp_all

-- Each edge is anchored on a property that exists.
theorem anchor_mem_of_mem_calls {t : String} (h : (t, e) ∈ g.calls) :
    (e.anchor t).snd ∈ (g.propertiesOf (e.anchor t).fst).map (·.name) := by
  obtain ⟨o, ho, h⟩ := List.mem_flatMap.mp h
  obtain ⟨p, hp, h⟩ := List.mem_filterMap.mp h
  obtain ⟨d, hd, h⟩ := Option.bind_eq_some_iff.mp h
  obtain ⟨_, he, h⟩ := Option.map_eq_some_iff.mp h
  cases h
  have hn : p.name ∈ (g.propertiesOf o).map (·.name) := List.mem_map_of_mem hp
  rw [edgeFrom?] at he
  split_ifs at he with ht ha hk <;> cases he
  case pos => simpa [Edge.anchor] using hn
  case neg => simpa [Edge.anchor] using hn
  case pos =>
    obtain ⟨q, hq⟩ := Option.isSome_iff_exists.mp hk
    have hqn : q.name = foreignKeyName o := by simpa using List.find?_some hq
    rw [Edge.anchor, if_pos rfl, propertiesOf, ← ht.left, hd]
    exact List.mem_map.mpr ⟨q, List.mem_of_find?_eq_some hq, hqn⟩

-- The first property of a name.
def placeOf (g : DefinitionGraph) (anchor : String × String) : String × Nat :=
  (anchor.fst, ((g.propertiesOf anchor.fst).map (·.name)).idxOf anchor.snd)

theorem lastKey?_linked : g.linked.lastKey? anchor = g.lastKey? anchor := by
  rw [lastKey?, keyed, (alike_linked g).calls_eq names_linked]
  rfl

theorem refersAt_linked_iff : g.linked.RefersAt key place ↔
    ∃ p, (g.propertiesOf place.fst)[place.snd]? = some p ∧ g.placeOf (place.fst, p.name) = place ∧
      g.lastKey? (place.fst, p.name) = some key := by
  obtain ⟨n, j⟩ := place
  cases hd : g.get? n
  case none => simp [RefersAt, propertiesOf, get?_linked, hd]
  case some d =>
    rw [RefersAt]
    simp only [propertiesOf, get?_linked, hd, Option.map_some, Option.getD_some, getElem?_linkedBy,
      name_of_get? hd]
    cases hp : d.properties[j]?
    case none => simp
    case some p =>
      by_cases hj : (d.properties.map (·.name)).idxOf p.name = j <;>
        simp [placeOf, propertiesOf, hd, hj, lastKey?, keyed]

-- What refers to an edge is its anchor, unless that refers to another edge.
theorem refersAt_linked_iff_of_edge? (he : g.linked.edge? key = some e) :
    g.linked.RefersAt key place ↔ g.linked.lastKey? (e.anchor key.definition) = some key ∧
      place = g.placeOf (e.anchor key.definition) := by
  have hm := edge?_linked_eq_some_iff.mp he
  rw [lastKey?_linked, refersAt_linked_iff]
  constructor
  · rintro ⟨p, _, hi, hl⟩
    obtain ⟨e', he', ha⟩ := exists_of_lastKey?_eq_some hl
    cases (edge?_linked_eq_some_iff.mpr he').symm.trans he
    exact ⟨ha ▸ hl, ha ▸ hi.symm⟩
  · rintro ⟨hl, rfl⟩
    have hn := anchor_mem_of_mem_calls <| mem_calls_of_mem_keyed hm
    obtain ⟨p, hp, hpn⟩ := Option.map_eq_some_iff.mp <|
      List.getElem?_map.symm.trans <| List.getElem?_idxOf hn
    exact ⟨p, hp, by rw [hpn]; rfl, by rw [hpn]; exact hl⟩

theorem edge?_of_refersAt_linked (h : g.linked.RefersAt key place) :
    ∃ e, g.linked.edge? key = some e := by
  obtain ⟨p, _, _, hl⟩ := refersAt_linked_iff.mp h
  obtain ⟨e, he, _⟩ := exists_of_lastKey?_eq_some hl
  exact ⟨e, edge?_linked_eq_some_iff.mpr he⟩

-- An edge is referred to if none that comes later has its anchor.
theorem existsUnique_refersAt_linked_iff (he : g.linked.edge? key = some e) :
    (∃! place, g.linked.RefersAt key place) ↔
      g.linked.lastKey? (e.anchor key.definition) = some key := by
  simp only [refersAt_linked_iff_of_edge? he]
  exact ⟨fun ⟨_, h, _⟩ => h.left, fun h => ⟨_, ⟨h, rfl⟩, fun _ h => h.right⟩⟩

theorem edge?_linked_of_lastKey? (h : g.linked.lastKey? anchor = some key) :
    ∃ e, g.linked.edge? key = some e ∧ e.anchor key.definition = anchor := by
  obtain ⟨e, he, ha⟩ := exists_of_lastKey?_eq_some <| lastKey?_linked ▸ h
  exact ⟨e, edge?_linked_eq_some_iff.mpr he, ha⟩

theorem exists_lastKey?_linked (he : g.linked.edge? key = some e) :
    ∃ key', g.linked.lastKey? (e.anchor key.definition) = some key' :=
  lastKey?_linked (g := g) ▸ exists_lastKey? (edge?_linked_eq_some_iff.mp he)

theorem lastKey?_of_mem_linked (hp : p ∈ g.linked.propertiesOf n) (hk : p.refersTo = some key) :
    g.linked.lastKey? (n, p.name) = some key := by
  obtain ⟨_, hd', hp⟩ := exists_of_mem_propertiesOf hp
  rw [get?_linked] at hd'
  obtain ⟨d, hd, rfl⟩ := Option.map_eq_some_iff.mp hd'
  obtain ⟨j, hj⟩ := List.mem_iff_getElem?.mp hp
  rw [getElem?_linkedBy] at hj
  obtain ⟨q, _, rfl⟩ := Option.map_eq_some_iff.mp hj
  rw [name_of_get? hd] at hk
  rw [lastKey?_linked]
  exact (Option.ite_none_right_eq_some.mp hk).right

end DefinitionGraph

namespace Blueprint

variable {passes : Nat} {d : Document} {b : Blueprint}

-- What refers to an edge is the property that the edge is anchored on, and no other does. Each edge
-- is referred to if no two are anchored on the same property; of those that are, the last one is.
theorem mirrors_of_ofDocument_eq_ok (h : ofDocument passes d = .ok b) :
    (∀ n, ∀ p ∈ b.graph.propertiesOf n, ∀ key, p.refersTo = some key →
      ∃ e, b.graph.edge? key = some e ∧ e.property = p.name) ∧
    (∀ key place place', b.graph.RefersAt key place → b.graph.RefersAt key place' →
      place = place') ∧
    (∀ key e, b.graph.edge? key = some e → ((∃! place, b.graph.RefersAt key place) ↔
      b.graph.lastKey? (e.anchor key.definition) = some key)) ∧
    ((∀ key e, b.graph.edge? key = some e → ∃! place, b.graph.RefersAt key place) ↔
      ∀ key e key' e', b.graph.edge? key = some e → b.graph.edge? key' = some e' →
        e.anchor key.definition = e'.anchor key'.definition → key = key') := by
  obtain ⟨endpoints, g, _, rfl⟩ := assemble_of_ofDocument_eq_ok h
  refine ⟨fun n p hp key hk => ?_, fun key place place' hr hr' => ?_,
    fun key e he => existsUnique_refersAt_linked_iff he, fun hu key e key' e' he he' ha => ?_,
    fun hi key e he => ?_⟩
  · obtain ⟨e, he, ha⟩ := edge?_linked_of_lastKey? <| lastKey?_of_mem_linked hp hk
    exact ⟨e, he, congrArg Prod.snd ha⟩
  · obtain ⟨e, he⟩ := edge?_of_refersAt_linked hr
    rw [((refersAt_linked_iff_of_edge? he).mp hr).right,
      ((refersAt_linked_iff_of_edge? he).mp hr').right]
  · have hl := (existsUnique_refersAt_linked_iff he).mp <| hu key e he
    have hl' := (existsUnique_refersAt_linked_iff he').mp <| hu key' e' he'
    exact Option.some_inj.mp <| hl.symm.trans <| ha ▸ hl'
  · obtain ⟨key', hl⟩ := exists_lastKey?_linked he
    obtain ⟨e', he', ha⟩ := edge?_linked_of_lastKey? hl
    cases hi key e key' e' he he' ha.symm
    exact (existsUnique_refersAt_linked_iff he).mpr hl

-- All edges of orders, items and customers are referred to.
theorem mirrors_orderDocument : ∃ b, ofDocument 3 orderDocument = .ok b ∧
    b.graph.edge? ⟨"Item", 0⟩ = some ⟨"Order", "orderId", .nToOne⟩ ∧
    ∃! place, b.graph.RefersAt ⟨"Item", 0⟩ place := by
  have h := ofDocument_orderDocument
  have ⟨_, _, hu, _⟩ := mirrors_of_ofDocument_eq_ok h
  exact ⟨_, h, rfl, (hu ⟨"Item", 0⟩ _ rfl).mpr <| by decide⟩

-- An owner has pets and strays, and a pet has the key of its owner.
def strayDocument : Document :=
  let pet := entryOf "$ref" "#/definitions/Pet"
  documentOf [
    ("Owner", objectOf [("id", entryOf "type" "integer"), ("pets", arrayOf pet),
      ("strays", arrayOf pet)]),
    ("Pet", objectOf [("id", entryOf "type" "integer"), ("ownerId", entryOf "type" "integer")])]

theorem schemas_strayDocument : strayDocument.schemas =
    [⟨"Owner", [.ofType "id" (.named "integer" false) false,
        .ofType "pets" (.holding "array" (.named "Pet" false) false) false,
        .ofType "strays" (.holding "array" (.named "Pet" false) false) false]⟩,
      ⟨"Pet", [.ofType "id" (.named "integer" false) false,
        .ofType "ownerId" (.named "integer" false) false]⟩] := by
  with_unfolding_all rfl

theorem not_refersAt {g : DefinitionGraph} {key : EdgeKey}
    (h : ∀ d ∈ g.definitions, ∀ p ∈ d.properties, p.refersTo ≠ some key) :
    ¬∃ place, g.RefersAt key place := by
  rintro ⟨place, p, hp, hk⟩
  obtain ⟨d, hd, hp⟩ := exists_of_mem_propertiesOf <| List.mem_of_getElem? hp
  exact h d (mem_of_get? hd) p hp hk

-- Both are told by that key, which refers to the edge of the strays only.
theorem not_mirrors_strayDocument : ∃ b, ofDocument 3 strayDocument = .ok b ∧
    b.graph.edge? ⟨"Pet", 0⟩ = some ⟨"Owner", "ownerId", .nToOne⟩ ∧
    ¬∃ place, b.graph.RefersAt ⟨"Pet", 0⟩ place := by
  rw [ofDocument, initialGraph, schemas_strayDocument]
  exact ⟨_, rfl, rfl, not_refersAt <| by decide⟩

end Blueprint

end Classwright
