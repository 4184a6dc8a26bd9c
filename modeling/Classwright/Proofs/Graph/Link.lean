import Classwright.Graph.Link
import Classwright.Proofs.Graph.Step

namespace Classwright.DefinitionGraph

open Schema

variable {g g' g'' : DefinitionGraph} {n m owner : String} {d : Definition} {k : EdgeKey}
  {p : Property} {ps : List Property} {l : Link} {ls : List Link}

@[simp] theorem unlinkProperty_unlinkProperty {p : Property} :
    unlinkProperty (unlinkProperty p) = unlinkProperty p :=
  rfl

theorem map_unlinkProperty_referTo :
    (referTo k m ps).map unlinkProperty = ps.map unlinkProperty := by
  induction ps
  case nil          => rfl
  case cons p ps ih => rw [referTo]; split <;> simp [ih, unlinkProperty]

-- What linking leaves alone: properties, but for the edges that these refer to, and tables.
def core (d : Definition) : List Property × Bool :=
  (d.properties.map unlinkProperty, d.needsTable)

-- Graphs are alike if they differ in nothing that linking leaves alone.
def Alike (g' g : DefinitionGraph) : Prop :=
  ∀ n, (g'.get? n).map core = (g.get? n).map core

namespace Alike

theorem refl (g : DefinitionGraph) : g.Alike g :=
  fun _ => rfl

theorem trans (h₁ : g''.Alike g') (h₂ : g'.Alike g) : g''.Alike g :=
  fun n => (h₁ n).trans (h₂ n)

theorem mapDefinitions {f : Definition → Definition} (hf : ∀ d, core (f d) = core d) :
    (g.mapDefinitions f).Alike g := by
  intro n
  rw [get?_mapDefinitions]
  cases g.get? n
  case none   => rfl
  case some d => exact congrArg some <| hf d

theorem modify {f : Definition → Definition} (hf : ∀ d, core (f d) = core d) :
    (g.modify m f).Alike g :=
  mapDefinitions fun d => by split <;> simp [hf]

theorem map_properties (h : g'.Alike g) (n : String) :
    (g'.get? n).map (·.properties.map unlinkProperty) =
      (g.get? n).map (·.properties.map unlinkProperty) := by
  simpa [Function.comp_def, core] using congrArg (Option.map Prod.fst) (h n)

theorem exists_of_get? {d : Definition} (h : g'.Alike g) (hd : g.get? n = some d) :
    ∃ d', g'.get? n = some d' ∧
      d'.properties.map unlinkProperty = d.properties.map unlinkProperty ∧
      d'.needsTable = d.needsTable := by
  have hn := h n
  rw [hd] at hn
  obtain ⟨d', hd', hp⟩ := Option.map_eq_some_iff.mp hn
  exact ⟨d', hd', congrArg Prod.fst hp, congrArg Prod.snd hp⟩

theorem exists_of_mem (h : g'.Alike g) (hd : g'.get? n = some d) (hp : p ∈ d.properties) :
    ∃ e, g.get? n = some e ∧ ∃ q ∈ e.properties, unlinkProperty q = unlinkProperty p := by
  have hn := h.map_properties n
  rw [hd] at hn
  obtain ⟨e, he, hs⟩ := Option.map_eq_some_iff.mp hn.symm
  have hm : unlinkProperty p ∈ e.properties.map unlinkProperty := hs ▸ List.mem_map_of_mem hp
  exact ⟨e, he, List.mem_map.mp hm⟩

theorem contains_eq (h : g'.Alike g) (n : String) : g'.contains n = g.contains n := by
  simpa [contains] using congrArg Option.isSome (h n)

theorem needsTable_eq (h : g'.Alike g) (n : String) : g'.needsTable n = g.needsTable n := by
  cases hd : g.get? n
  case none =>
    have hn := h n
    rw [hd] at hn
    simp_all [needsTable]
  case some d =>
    obtain ⟨d', hd', _, ht⟩ := h.exists_of_get? hd
    rw [needsTable_of_get? hd, needsTable_of_get? hd', ht]

theorem isSome_property?_eq (h : g'.Alike g) {key : String} :
    ((g'.get? n).bind (·.property? key)).isSome = ((g.get? n).bind (·.property? key)).isSome := by
  have hp : ∀ g : DefinitionGraph, ((g.get? n).bind (·.property? key)).isSome =
      ((g.get? n).map (·.properties.map unlinkProperty)).any (·.any (·.name == key)) := by
    intro g
    cases g.get? n
    case none   => rfl
    case some d =>
      rw [Bool.eq_iff_iff]
      simp [Definition.property?, unlinkProperty]
  rw [hp, hp, h.map_properties]

theorem link?_eq (h : g'.Alike g) : g'.link? owner p = g.link? owner p := by
  simp only [link?, h.needsTable_eq, h.isSome_property?_eq]

end Alike

theorem alike_addLink : (g.addLink l).Alike g := by
  rw [addLink]
  cases hd : g.get? l.target
  case none =>
    simp only [attach, require_eq_error_iff.mpr ⟨hd, rfl⟩, bind, Except.bind]
    exact .refl g
  case some d =>
    simp only [attach, require_eq_ok_iff.mpr hd, bind, Except.bind, pure, Except.pure]
    exact .trans (.modify fun d => congrArg (·, d.needsTable) map_unlinkProperty_referTo)
      (.modify fun _ => rfl)

theorem alike_foldl_addLink {ls : List Link} : (ls.foldl addLink g).Alike g := by
  induction ls generalizing g
  case nil       => exact .refl g
  case cons _ ih => exact ih.trans alike_addLink

theorem alike_unlinked (g : DefinitionGraph) : g.unlinked.Alike g :=
  .mapDefinitions fun d => by simp [core, unlinkProperty]

theorem alike_linked (g : DefinitionGraph) : g.linked.Alike g :=
  alike_foldl_addLink.trans <| alike_unlinked g

-- The properties of a definition; none if there is no such definition.
def propertiesOf (g : DefinitionGraph) (name : String) : List Property :=
  ((g.get? name).map (·.properties)).getD []

theorem mem_propertiesOf (hd : g.get? n = some d) : p ∈ g.propertiesOf n ↔ p ∈ d.properties := by
  simp [propertiesOf, hd]

theorem exists_of_mem_propertiesOf (h : p ∈ g.propertiesOf n) :
    ∃ d, g.get? n = some d ∧ p ∈ d.properties := by
  cases hd : g.get? n
  case none   => simp [propertiesOf, hd] at h
  case some d => exact ⟨d, rfl, (mem_propertiesOf hd).mp h⟩

theorem links_eq_flatMap_names :
    g.links = g.names.flatMap fun n => (g.propertiesOf n).filterMap (g.link? n) := by
  rw [links, names, List.flatMap_map]
  refine List.flatMap_congr fun d hd => ?_
  simp [propertiesOf, get?_of_mem hd]

theorem Alike.links_eq (h : g'.Alike g) (hn : g'.names = g.names) : g'.links = g.links := by
  rw [links_eq_flatMap_names, links_eq_flatMap_names, hn]
  refine List.flatMap_congr fun n _ => ?_
  have hl : ∀ ps : List Property, ps.filterMap (g.link? n) =
      (ps.map unlinkProperty).filterMap (g.link? n) := by
    intro ps
    rw [List.filterMap_map]
    rfl
  have hp : (g'.propertiesOf n).map unlinkProperty = (g.propertiesOf n).map unlinkProperty := by
    have := h.map_properties n
    cases hd : g.get? n <;> cases hd' : g'.get? n <;> simp_all [propertiesOf]
  simp only [h.link?_eq]
  rw [hl, hp, ← hl]

theorem names_addLink : (g.addLink l).names = g.names := by
  rw [addLink]
  cases hd : g.get? l.target
  case none   => simp only [attach, require_eq_error_iff.mpr ⟨hd, rfl⟩, bind, Except.bind]
  case some d => simp [attach, require_eq_ok_iff.mpr hd, bind, Except.bind, pure, Except.pure]

theorem names_foldl_addLink : (ls.foldl addLink g).names = g.names := by
  induction ls generalizing g
  case nil       => rfl
  case cons _ ih => exact ih.trans names_addLink

theorem names_linked : g.linked.names = g.names :=
  names_foldl_addLink.trans <| by simp [unlinked]

theorem links_linked : g.linked.links = g.links :=
  (alike_linked g).links_eq names_linked

-- The ends of a link are there.
theorem contains_of_link? (h : g.link? owner p = some l) :
    g.contains l.target ∧ (l.anchor = owner ∨ l.anchor = l.target) := by
  have hc : g.needsTable p.type.element.name → g.contains p.type.element.name :=
    contains_of_needsTable
  rw [link?] at h
  split_ifs at h <;> cases h <;> simp_all

theorem filterMap_range_getElem? {α β : Type} (f : α → Option β) (as : List α) :
    (List.range as.length).filterMap (fun i => as[i]?.bind f) = as.filterMap f := by
  induction as
  case nil          => rfl
  case cons a as ih =>
    rw [List.length_cons, List.range_succ_eq_map, List.filterMap_cons, List.filterMap_map,
      List.filterMap_cons]
    simpa [Function.comp_def] using by rw [ih]

-- A property makes the same link at any time while a graph is linked.
theorem linkProperty_eq_ok (ha : g'.Alike g) (hd : g.get? owner = some d) (index : Nat) :
    g'.linkProperty owner index =
      .ok ((d.properties[index]?.bind (g.link? owner)).toList.foldl addLink g') := by
  obtain ⟨d', hd', hp, _⟩ := ha.exists_of_get? hd
  have hl : d'.properties[index]?.bind (g'.link? owner) =
      d.properties[index]?.bind (g.link? owner) := by
    have hu : ∀ q : Option Property, q.bind (g.link? owner) =
        (q.map unlinkProperty).bind (g.link? owner) := fun q => by cases q <;> rfl
    have hi := congrArg (·[index]?) hp
    simp only [List.getElem?_map] at hi
    rw [show g'.link? owner = g.link? owner from funext fun _ => ha.link?_eq, hu, hi, ← hu]
  rw [linkProperty, require_eq_ok_iff.mpr hd']
  simp only [bind, Except.bind, hl]
  cases hq : d.properties[index]?.bind (g.link? owner)
  case none => rfl
  case some l =>
    obtain ⟨q, _, hq⟩ := Option.bind_eq_some_iff.mp hq
    obtain ⟨ht, hc⟩ := contains_of_link? hq
    obtain ⟨e, he⟩ := exists_of_contains <| ha.contains_eq l.target ▸ ht
    have ho : g'.contains l.anchor := hc.elim (· ▸ contains_of_get? hd') (· ▸ contains_of_get? he)
    simp only [attach, require_eq_ok_iff.mpr he, bind, Except.bind, pure, Except.pure,
      Option.toList_some, List.foldl_cons, List.foldl_nil, addLink]
    split
    case h_1 hn =>
      rw [contains_iff, ← names_modify, ← contains_iff, contains,
        (require_eq_error_iff.mp hn).left] at ho
      contradiction
    case h_2 => rfl

theorem linkDefinition_eq_ok (ha : g'.Alike g) (hd : g.get? owner = some d) :
    g'.linkDefinition owner = .ok ((d.properties.filterMap (g.link? owner)).foldl addLink g') := by
  have hi : ∀ (is : List Nat) {g'' : DefinitionGraph}, g''.Alike g →
      is.foldlM (fun g index => g.linkProperty owner index) g'' =
        .ok ((is.filterMap fun i => d.properties[i]?.bind (g.link? owner)).foldl addLink g'') := by
    intro is
    induction is
    case nil => exact fun _ => rfl
    case cons i is ih =>
      intro g'' ha
      rw [List.foldlM_cons, linkProperty_eq_ok ha hd, List.filterMap_cons]
      refine (ih <| alike_foldl_addLink.trans ha).trans ?_
      cases d.properties[i]?.bind (g.link? owner) <;> rfl
  obtain ⟨d', hd', hp, _⟩ := ha.exists_of_get? hd
  have hl : d'.properties.length = d.properties.length := by simpa using congrArg List.length hp
  rw [linkDefinition, require_eq_ok_iff.mpr hd', ← filterMap_range_getElem?, ← hl]
  exact hi _ ha

-- Linking never fails, since both ends of each edge are there, and what it adds can be told from the
-- start: edges and what refers to them have no part in what the next property makes.
theorem relink_eq_ok_linked (g : DefinitionGraph) : g.relink = .ok g.linked := by
  have hn : ∀ (ns : List String) {g' : DefinitionGraph}, g'.Alike g → ns ⊆ g.names →
      ns.foldlM linkDefinition g' =
        .ok ((ns.flatMap fun n => (g.propertiesOf n).filterMap (g.link? n)).foldl addLink g') := by
    intro ns
    induction ns
    case nil => exact fun _ _ => rfl
    case cons n ns ih =>
      intro g' ha hs
      obtain ⟨d, hd⟩ := exists_of_mem_names <| hs List.mem_cons_self
      rw [List.foldlM_cons, linkDefinition_eq_ok ha hd, List.flatMap_cons, List.foldl_append,
        propertiesOf, hd]
      exact ih (alike_foldl_addLink.trans ha) <| (List.cons_subset.mp hs).right
  rw [relink, linked, links_eq_flatMap_names]
  exact hn g.names (alike_unlinked g) (List.Subset.refl _)

end Classwright.DefinitionGraph
