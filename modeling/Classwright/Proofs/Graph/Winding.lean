import Classwright.Proofs.Graph.Invariant
import Mathlib.Data.Set.Insert
import Mathlib.Tactic.Tauto

namespace Classwright.DefinitionGraph

open Schema Property

variable {g g' : DefinitionGraph} {d e : Definition} {p q : Property} {shape : List Property}
  {owner name n : String} {index : Nat} {created : Option String} {ring : Set String}
  {v : Visit} {vs : List Visit}

-- A reference collides if the name that its type would get is that of a table.
def Collides (g : DefinitionGraph) (p : Property) : Prop :=
  g.needsSynthesis p ∧ ¬p.isInline ∧ g.needsTable (Naming.capitalize p.name)

-- A definition turns in a ring if it has no table and a reference that collides leads it back there.
def Turns (g : DefinitionGraph) (ring : Set String) (d : Definition) : Prop :=
  ¬d.needsTable ∧ ∃ p ∈ d.properties, g.Collides p ∧ p.type.element.name ∈ ring

def Winds (g : DefinitionGraph) : Prop :=
  ∃ ring : Set String, ring.Nonempty ∧ ∀ n ∈ ring, ∃ d, g.get? n = some d ∧ g.Turns ring d

theorem collides_of_same (h : same p q) : g.Collides p ↔ g.Collides q := by
  rw [Collides, Collides, needsSynthesis_of_same h, isInline_of_same h, (same_iff.mp h).left]

namespace Collides

-- What a reference that collides is made of is what it leads to.
theorem exists_of_shape? (h : g.Collides p) (hs : g.shape? p = some shape) :
    ∃ d, g.get? p.type.element.name = some d ∧ d.properties = shape := by
  rcases shape?_cases hs with ⟨hi, _⟩ | ⟨_, n, d, hd, rfl, ⟨rfl, hn⟩ | ⟨rfl, _⟩⟩
  · exact absurd hi h.right.left
  · exact absurd (needsTable_of_get? hd ▸ h.right.right) hn
  · exact ⟨d, hd, rfl⟩

theorem of_extends (h : g.Collides p) (hc : g.contains p.type.element.name) (hx : g'.Extends g) :
    g'.Collides p := by
  have ⟨hs, hi, ht⟩ := h
  refine ⟨?_, hi, hx.needsTable_eq (contains_of_needsTable ht) ▸ ht⟩
  rw [needsSynthesis_iff, hx.needsTable_eq hc]
  exact needsSynthesis_iff.mp hs

theorem retarget (h : g.Collides p) (hn : g.FullyNamed) (hg : g.Gives owner index p shape name)
    (hx : g'.Extends g) (ht : ¬g'.needsTable name) : g'.Collides (retarget name p) := by
  refine ⟨?_, hn.not_isInline_retarget hg, ?_⟩
  · rw [needsSynthesis_iff, hn.element_retarget hg]
    exact ⟨hn.not_isScalarElement_retarget hg, ht⟩
  · have hc := contains_of_needsTable h.right.right
    exact hx.needsTable_eq hc ▸ h.right.right

end Collides

-- A definition that turns does so after a step, with a larger ring if the step gave its reference a
-- new type.
theorem Turns.given {ring' : Set String} (h : g.Turns ring d) (hd : g.get? n = some d)
    (hn : g.FullyNamed) (hg : g.Gives owner index p shape name) (hr : ring ⊆ ring')
    (hc : ∀ m ∈ ring, g.contains m)
    (hp : g.Collides p → p.type.element.name ∈ ring →
      name ∈ ring' ∧ ¬(g.give owner index name shape).needsTable name) :
    (g.give owner index name shape).Turns ring' (d.given owner index name) := by
  have hx := hg.extends
  obtain ⟨ht, q, hq, hqc, hqr⟩ := h
  refine ⟨by simpa using ht, ?_⟩
  obtain ⟨j, hj⟩ := List.mem_iff_getElem?.mp hq
  have hj' := Definition.getElem?_properties_given d owner index name j
  split at hj'
  case isTrue ho =>
    obtain ⟨d', hd', hf⟩ := hg.found
    cases hd'.symm.trans <| (ho.left ▸ name_of_get? hd) ▸ hd
    cases (ho.right ▸ hj).symm.trans hf
    have ⟨hm, hnt⟩ := hp hqc hqr
    refine ⟨_, List.mem_of_getElem? <| hj'.trans <| by rw [hj]; rfl, hqc.retarget hn hg hx hnt, ?_⟩
    rwa [hn.element_retarget hg]
  case isFalse =>
    exact ⟨q, List.mem_of_getElem? <| hj'.trans hj, hqc.of_extends (hc _ hqr) hx, hr hqr⟩

theorem Turns.of_same (hs : sameAll e.properties d.properties) (ht : e.needsTable ↔ d.needsTable)
    (h : g.Turns ring d) : g.Turns ring e := by
  obtain ⟨hd, q, hq, hqc, hqr⟩ := h
  obtain ⟨p, hp, hpq⟩ := exists_same_of_mem_right hs hq
  refine ⟨mt ht.mp hd, p, hp, ?_, ?_⟩
  · exact (collides_of_same hpq).mpr hqc
  · rwa [type_eq_of_same hpq]

theorem Gives.not_needsTable_of_collides (hg : g.Gives owner index p shape name)
    (ht : g.Tabled) (hp : g.Collides p) : ¬(g.give owner index name shape).needsTable name := by
  obtain ⟨d, hd, hs⟩ := hp.exists_of_shape? hg.made
  have hdt : ¬d.needsTable := needsTable_of_get? hd ▸ (needsSynthesis_iff.mp hp.left).right
  by_cases hc : g.contains name
  case pos =>
    obtain ⟨e, he⟩ := exists_of_contains hc
    rw [hg.extends.needsTable_eq hc, needsTable_of_get? he,
      ht.needsTable_iff_of_sameAll hd he <| hs ▸ hg.same he]
    exact hdt
  case neg =>
    rw [needsTable_of_get? <| hg.get?_fresh hc, Definition.needsTable_share,
      Definition.needsTable_make, ← hs, ← ht _ d hd]
    exact hdt

-- A ring is never broken: if a step gives a reference in it a new type, then this joins the ring.
theorem Step.winds (s : g.Step owner index g' created) (hn : g.FullyNamed) (ht : g.Tabled)
    (h : g.Winds) : g'.Winds := by
  obtain ⟨ring, ⟨m, hm⟩, hr⟩ := h
  have hc : ∀ m ∈ ring, g.contains m := fun m hm => have ⟨_, hd, _⟩ := hr m hm; contains_of_get? hd
  cases s
  case idle => exact ⟨ring, ⟨m, hm⟩, hr⟩
  case give p shape name hg =>
    have hx := hg.extends
    by_cases hp : g.Collides p ∧ p.type.element.name ∈ ring
    -- The step is at no reference that the ring needs.
    case neg =>
      refine ⟨ring, ⟨m, hm⟩, fun n hm => ?_⟩
      obtain ⟨d, hd, ht⟩ := hr n hm
      exact ⟨_, get?_give_of_some hd, ht.given hd hn hg (.refl _) hc fun h₁ h₂ => absurd ⟨h₁, h₂⟩ hp⟩
    case pos =>
      have hnt := hg.not_needsTable_of_collides ht hp.left
      have hgiven : ∀ {n d}, g.get? n = some d → g.Turns ring d →
          (g.give owner index name shape).Turns (ring ∪ {name}) (d.given owner index name) :=
        fun hd ht => ht.given hd hn hg Set.subset_union_left hc fun _ _ => ⟨.inr rfl, hnt⟩
      refine ⟨ring ∪ {name}, ⟨m, .inl hm⟩, ?_⟩
      rintro n (hm | rfl)
      · obtain ⟨d, hd, ht⟩ := hr n hm
        exact ⟨_, get?_give_of_some hd, hgiven hd ht⟩
      -- The new type has the properties of a definition in the ring, by then if not by now.
      obtain ⟨d, hd, hdr⟩ := hr _ hp.right
      obtain ⟨d', hd', hs⟩ := hp.left.exists_of_shape? hg.made
      cases hd.symm.trans hd'
      by_cases hcn : g.contains n
      case pos =>
        obtain ⟨e, he⟩ := exists_of_contains hcn
        have hs := hs ▸ hg.same he
        exact ⟨_, get?_give_of_some he,
          hgiven he <| hdr.of_same hs <| ht.needsTable_iff_of_sameAll hd he hs⟩
      case neg =>
        refine ⟨_, hg.get?_fresh hcn, ?_⟩
        obtain ⟨hdt, q, hq, hqc, hqr⟩ := hdr
        refine ⟨?_, q, hs ▸ hq, hqc.of_extends (hc _ hqr) hx, .inl hqr⟩
        rwa [Definition.needsTable_share, Definition.needsTable_make, ← hs, ← ht _ d hd]

-- What a property was left with by a step on its owner: if it leads to a definition without a table,
-- and the name that it would have had is that of a table, then it leads to a longer name.
def Outgrown (g : DefinitionGraph) (owner : String) (p : Property) : Prop :=
  p.type.isScalarElement ∨ g.needsTable p.type.element.name ∨
    (g.contains (Naming.capitalize p.name) ∧ ¬g.needsTable (Naming.capitalize p.name)) ∨
    owner.length < p.type.element.name.length

theorem Outgrown.of_extends (h : g.Outgrown owner p) (hx : g'.Extends g) : g'.Outgrown owner p := by
  rcases h with h | h | ⟨hc, ht⟩ | h
  · exact .inl h
  · exact .inr <| .inl <| hx.needsTable_eq (contains_of_needsTable h) ▸ h
  · exact .inr <| .inr <| .inl ⟨hx.contains hc, hx.needsTable_eq hc ▸ ht⟩
  · exact .inr <| .inr <| .inr h

theorem length_lt_candidate (owner : String) {base : String} (h : base ≠ "") :
    ∀ k, owner.length < (candidate owner base (k + 1)).length
  | 0 => by simpa [candidate, String.length_append, Nat.pos_iff_ne_zero] using h
  | k + 1 => by
    have := length_lt_candidate owner h 0
    simp only [candidate, String.length_append] at this ⊢
    omega

theorem Gives.outgrown (hg : g.Gives owner index p shape name) (hn : g.FullyNamed) :
    (g.give owner index name shape).Outgrown owner (retarget name p) := by
  have hx := hg.extends
  rw [Outgrown, hn.element_retarget hg]
  obtain ⟨k, hk, hj⟩ := hg.exists_candidate
  match k with
  -- The name is that of the property.
  | 0 =>
    by_cases ht : (g.give owner index name shape).needsTable name
    case pos => exact .inr <| .inl ht
    case neg =>
      have hk : name = Naming.capitalize p.name := hk
      refine .inr <| .inr <| .inl ?_
      rw [name_retarget, ← hk]
      exact ⟨contains_give, ht⟩
  -- The name of the property is taken, and the new one starts with that of the owner.
  | k + 1 =>
    have hc := contains_of_not_accepts <| hj 0 <| by omega
    by_cases ht : g.needsTable (Naming.capitalize p.name)
    case pos =>
      have hl := length_lt_candidate owner (hn.capitalize_ne_empty hg) k
      exact .inr <| .inr <| .inr <| hk.symm ▸ hl
    case neg => exact .inr <| .inr <| .inl ⟨hx.contains hc, hx.needsTable_eq hc ▸ ht⟩

theorem establishes_outgrown : Establishes (fun _ => True) FullyNamed Outgrown where
  keeps := Outgrown.of_extends
  inv s _ h := h.step s
  step s _ h := by
    refine s.at_place (fun p hn => ?_) fun _ _ _ hg => hg.outgrown h
    have := mt needsSynthesis_iff.mpr hn
    rw [Outgrown]
    tauto

-- Where all properties are left like that, names grow along a ring, so there is none.
theorem not_winds_of_outgrown (h : ∀ n d, g.get? n = some d → ∀ p ∈ d.properties, g.Outgrown n p) :
    ¬g.Winds := by
  rintro ⟨ring, ⟨m, hm⟩, hr⟩
  -- Following references that collide leads to names of any length.
  have hlong : ∀ k, ∃ n ∈ ring, k ≤ n.length := by
    intro k
    induction k
    case zero => exact ⟨m, hm, Nat.zero_le _⟩
    case succ k ih =>
      obtain ⟨n, hn, hk⟩ := ih
      obtain ⟨d, hd, _, p, hp, hc, hpr⟩ := hr n hn
      obtain ⟨hs, ht⟩ := needsSynthesis_iff.mp hc.left
      have hl := ((h n d hd p hp).resolve_left hs).resolve_left ht |>.resolve_left
        fun hcap => hcap.right hc.right.right
      exact ⟨_, hpr, by omega⟩
  obtain ⟨n, hn, hk⟩ := hlong <| (g.names.map String.length).max?.getD 0 + 1
  obtain ⟨d, hd, _⟩ := hr n hn
  have hm : n.length ∈ g.names.map String.length := List.mem_map_of_mem <| mem_names_of_get? hd
  have := List.le_max?_getD_of_mem (k := 0) hm
  omega

theorem Steps.winds (s : g.Steps vs g') (hn : g.FullyNamed) (ht : g.Tabled) (h : g.Winds) :
    g'.Winds := by
  have hP := s.preserves (P := fun g => g.FullyNamed ∧ g.Tabled ∧ g.Winds)
    fun s ⟨hn, ht, h⟩ => ⟨hn.step s, ht.step s, s.winds hn ht h⟩
  exact (hP ⟨hn, ht, h⟩).right.right

-- A run over all definitions that settles ends in a graph that does not wind.
theorem not_winds_of_settle_eq_ok {passes : Nat} {names : List String} (hn : g.FullyNamed)
    (h : GraphM.settle passes g.names g = .ok names g') : ¬g'.Winds :=
  not_winds_of_outgrown fun _ _ hd _ hp =>
    establishes_outgrown.of_settle hn h (fun _ _ => trivial)
      (fun _ _ hm hd => absurd (mem_names_of_get? hd) hm) hd hp

end Classwright.DefinitionGraph
