import Classwright.Proofs.Graph.Step

namespace Classwright

open Schema Property

namespace DefinitionGraph

variable {g : DefinitionGraph} {p : Property} {shape : List Property} {owner base name : String}
  {index : Nat}

-- A property that needs a type of its own, and what that type is made of.
structure Selects (g : DefinitionGraph) (owner : String) (index : Nat) (p : Property)
    (shape : List Property) : Prop where
  found : ∃ d, g.get? owner = some d ∧ d.properties[index]? = some p
  needs : g.needsSynthesis p
  made  : g.shape? p = some shape

-- A name can be used if no definition has it, or one that has just this shape.
def IsUsable (g : DefinitionGraph) (shape : List Property) (name : String) : Prop :=
  ∀ d, g.get? name = some d → sameAll d.properties shape

-- The search from the candidate `j` on, with the candidate at which it ends.
inductive Searches (g : DefinitionGraph) (owner base : String) (shape : List Property) :
    Nat → Nat → Prop
  | found {j} : g.IsUsable shape (candidate owner base j) → Searches g owner base shape j j
  | next {j k} : ¬g.IsUsable shape (candidate owner base j) →
    Searches g owner base shape (j + 1) k → Searches g owner base shape j k

variable {j k : Nat}

structure IsFirstUsable (g : DefinitionGraph) (owner base : String) (shape : List Property)
    (k : Nat) : Prop where
  usable : g.IsUsable shape (candidate owner base k)
  first  : ∀ j < k, ¬g.IsUsable shape (candidate owner base j)

theorem accepts_iff : g.accepts shape name ↔ g.IsUsable shape name := by
  cases h : g.get? name <;> simp [accepts, IsUsable, h]

namespace IsFirstUsable

theorem unique (hj : g.IsFirstUsable owner base shape j) (hk : g.IsFirstUsable owner base shape k) :
    j = k := by
  rcases Nat.lt_trichotomy j k with h | h | h
  · exact absurd hj.usable <| hk.first j h
  · exact h
  · exact absurd hk.usable <| hj.first k h

-- Up to the first candidate that can be used, the search goes on.
theorem searches (h : g.IsFirstUsable owner base shape k) (hj : j ≤ k) :
    g.Searches owner base shape j k := by
  induction hj using Nat.decreasingInduction
  case self          => exact .found h.usable
  case of_succ hj ih => exact .next (h.first _ hj) ih

end IsFirstUsable

theorem Searches.usable (h : g.Searches owner base shape j k) :
    g.IsUsable shape (candidate owner base k) := by
  induction h <;> assumption

theorem Searches.not_usable (h : g.Searches owner base shape j k) :
    ∀ i, j ≤ i → i < k → ¬g.IsUsable shape (candidate owner base i) := by
  induction h
  case found => omega
  case next hn _ ih =>
    intro i hj hk
    rcases Nat.eq_or_lt_of_le hj with rfl | hj
    · exact hn
    · exact ih i hj hk

theorem searches_zero_iff :
    g.Searches owner base shape 0 k ↔ g.IsFirstUsable owner base shape k where
  mp  := fun h => ⟨h.usable, fun i => h.not_usable i (Nat.zero_le i)⟩
  mpr := fun h => h.searches (Nat.zero_le k)

theorem exists_isFirstUsable (g : DefinitionGraph) (owner base : String) (shape : List Property) :
    ∃ k ≤ g.size + 1, g.IsFirstUsable owner base shape k ∧
      g.nameFor owner base shape = candidate owner base k := by
  obtain ⟨k, hn, ha, hj⟩ := nameFor_eq_candidate g owner base shape
  simp only [accepts_iff] at ha hj
  refine ⟨k, ?_, ⟨ha, hj⟩, hn⟩
  obtain ⟨i, hi, ha⟩ := exists_accepted g owner base shape
  by_contra hk
  exact hj i (by omega) <| accepts_iff.mp ha

-- What a step leaves of a definition: the property that it looks at is led to `name`, and the definition
-- of that name is marked.
structure Touches (owner : String) (index : Nat) (name : String) (d d' : Definition) : Prop where
  sameName   : d'.name = d.name
  needsTable : d'.needsTable = d.needsTable
  edges      : d'.edges = d.edges
  tag        : d'.tag = d.tag
  mark       : d'.sharesTable = if d.name = name then !d.needsTable else d.sharesTable
  properties : ∀ j, d'.properties[j]? =
    if d.name = owner ∧ j = index then d.properties[j]?.map (retarget name) else d.properties[j]?

-- The graph after a step that has found `name`.
structure Settles (g : DefinitionGraph) (owner : String) (index : Nat) (name : String)
    (shape : List Property) (g' : DefinitionGraph) (created : Option String) : Prop where
  result : created = if g.contains name then none else some name
  names  : g'.names = g.names ++ created.toList
  added  : ¬g.contains name → g'.get? name = some (Definition.make name shape).share
  kept   : ∀ n d, g.get? n = some d → ∃ d', g'.get? n = some d' ∧ Touches owner index name d d'

theorem touches_given (owner : String) (index : Nat) (name : String) (d : Definition) :
    Touches owner index name d (d.given owner index name) where
  sameName   := Definition.name_given
  needsTable := Definition.needsTable_given
  edges      := Definition.edges_given
  tag        := Definition.tag_given
  mark       := Definition.sharesTable_given
  properties := d.getElem?_properties_given owner index name

theorem Gives.settles (h : g.Gives owner index p shape name) :
    g.Settles owner index name shape (g.give owner index name shape)
      (if g.contains name then none else some name) where
  result      := rfl
  names       := names_give
  added       := h.get?_fresh
  kept _ d hd := ⟨_, get?_give_of_some hd, touches_given owner index name d⟩

-- The search ends after at most as many candidates as there are definitions and one more, and nowhere else.
-- If the name is free, its definition is all that is added; nothing else is changed but what is told.
theorem exists_settles_of_selects (h : g.Selects owner index p shape) :
    ∃ k ≤ g.size + 1, g.IsFirstUsable owner (Naming.capitalize p.name) shape k ∧
      (∀ i, g.Searches owner (Naming.capitalize p.name) shape 0 i ↔ i = k) ∧
      ∃ g' created, g.synthesizeProperty owner index = .ok (g', created) ∧
        g.Settles owner index (candidate owner (Naming.capitalize p.name) k) shape g' created := by
  obtain ⟨k, hk, hf, hn⟩ := exists_isFirstUsable g owner (Naming.capitalize p.name) shape
  have hg : g.Gives owner index p shape (candidate owner (Naming.capitalize p.name) k) :=
    ⟨h.found, h.needs, h.made, hn.symm⟩
  refine ⟨k, hk, hf, fun i => searches_zero_iff.trans ⟨fun hi => hi.unique hf, fun hi => hi ▸ hf⟩,
    _, _, ?_, hg.settles⟩
  exact synthesizeProperty_eq_ok_iff.mpr <| .give _ _ _ hg

def lodgeHome : Property :=
  { Property.ofType "home" (.holding "array" (.named "object" false) false) false with
    fields := [.ofType "zip" (.named "string" false) false] }

-- The home that is described inline is not the one that has its name. Its owner has an empty name, so that
-- the second candidate is the first one again.
def lodgeGraph : DefinitionGraph where
  definitions := [
    .make "" [.ofType "id" (.named "integer" false) true, lodgeHome],
    .make "Home" [.ofType "street" (.named "string" false) false]]
  nodup := by decide

theorem settles_lodgeGraph : lodgeGraph.Selects "" 1 lodgeHome lodgeHome.fields ∧
    candidate "" "Home" 0 = "Home" ∧ candidate "" "Home" 1 = "Home" ∧
    lodgeGraph.Searches "" "Home" lodgeHome.fields 0 2 ∧
    ∃ g' created, lodgeGraph.synthesizeProperty "" 1 = .ok (g', created) ∧
      g'.names = ["", "Home", "Home2"] ∧
      lodgeGraph.Settles "" 1 "Home2" lodgeHome.fields g' created := by
  have h : lodgeGraph.Selects "" 1 lodgeHome lodgeHome.fields := ⟨⟨_, rfl, rfl⟩, rfl, rfl⟩
  obtain ⟨k, _, hf, hs, g', created, hg, hc⟩ := exists_settles_of_selects h
  have hk : lodgeGraph.IsFirstUsable "" "Home" lodgeHome.fields 2 := by
    refine ⟨accepts_iff.mp rfl, fun j hj ha => ?_⟩
    have hn : ∀ j < 2, ¬lodgeGraph.accepts lodgeHome.fields (candidate "" "Home" j) := by decide
    exact hn j hj <| accepts_iff.mpr ha
  cases (hf.unique hk : k = 2)
  refine ⟨h, rfl, rfl, (hs 2).mpr rfl, g', created, hg, ?_, hc⟩
  rw [hc.names, hc.result]
  rfl

end DefinitionGraph

end Classwright
