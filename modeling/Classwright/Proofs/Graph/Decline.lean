import Classwright.Proofs.Graph.Queue
import Classwright.Proofs.Graph.Winding

namespace Classwright.DefinitionGraph

open Schema Property

variable {g g' : DefinitionGraph} {d : Definition} {p q : Property} {shape : List Property}
  {owner name n : String} {index k h : Nat} {created : Option String} {ws names : List String}
  {vs : List Visit}

-- A property is shallow if inline objects in it are nested at most that deep.
def Shallow (g : DefinitionGraph) : Nat → Property → Prop
  | 0, p => g.Flat p
  | k + 1, p => g.needsSynthesis p → p.isInline → ∀ f ∈ p.fields, g.Shallow k f

namespace Shallow

theorem of_flat (hp : g.Flat p) : ∀ k, g.Shallow k p
  | 0     => hp
  | _ + 1 => fun hs hi => absurd hi <| hp hs

theorem succ (hp : g.Shallow k p) : g.Shallow (k + 1) p := by
  induction k generalizing p
  case zero      => exact of_flat hp _
  case succ k ih => exact fun hs hi f hf => ih <| hp hs hi f hf

theorem of_extends (hp : g.Shallow k p) (hx : g'.Extends g) : g'.Shallow k p := by
  induction k generalizing p
  case zero      => exact Flat.of_extends hp hx
  case succ k ih => exact fun hs hi f hf => ih <| hp (needsSynthesis_of_extends hs hx) hi f hf

end Shallow

-- A property is low if following references that collide from it ends after less than that many steps.
def Low (g : DefinitionGraph) : Nat → Property → Prop
  | 0, _ => False
  | h + 1, p => g.Collides p → ∀ d, g.get? p.type.element.name = some d → ∀ q ∈ d.properties, g.Low h q

namespace Low

theorem succ (hp : g.Low h p) : g.Low (h + 1) p := by
  induction h generalizing p
  case zero      => contradiction
  case succ h ih => exact fun hc d hd q hq => ih <| hp hc d hd q hq

theorem of_same (hs : same p q) (hq : g.Low h q) : g.Low h p := by
  cases h
  case zero => contradiction
  case succ => exact fun hc d hd => hq ((collides_of_same hs).mp hc) d <| type_eq_of_same hs ▸ hd

end Low

-- Bounds of the members of a list have a common one.
theorem exists_bound {α : Type} {P : Nat → α → Prop} (hP : ∀ k a, P k a → P (k + 1) a) {l : List α}
    (hl : ∀ a ∈ l, ∃ k, P k a) : ∃ k, ∀ a ∈ l, P k a := by
  have hmono : ∀ {j k a}, j ≤ k → P j a → P k a :=
    fun hle hj => Nat.le_induction hj (fun k _ => hP k _) _ hle
  induction l
  case nil => exact ⟨0, nofun⟩
  case cons a l ih =>
    have ⟨ha, hl⟩ := List.forall_mem_cons.mp hl
    obtain ⟨j, hj⟩ := ha
    obtain ⟨k, hk⟩ := ih hl
    refine ⟨max j k, List.forall_mem_cons.mpr ⟨hmono (Nat.le_max_left _ _) hj, fun b hb => ?_⟩⟩
    exact hmono (Nat.le_max_right _ _) <| hk b hb

mutual

theorem exists_shallow (g : DefinitionGraph) : ∀ p, ∃ k, g.Shallow k p
  | ⟨_, _, _, _, _, fields, _⟩ => by
    obtain ⟨k, hk⟩ := exists_bound (fun _ _ => Shallow.succ) <| exists_shallow_of_mem g fields
    exact ⟨k + 1, fun _ _ => hk⟩

theorem exists_shallow_of_mem (g : DefinitionGraph) : ∀ ps : List Property, ∀ p ∈ ps, ∃ k, g.Shallow k p
  | []      => nofun
  | p :: ps => List.forall_mem_cons.mpr ⟨exists_shallow g p, exists_shallow_of_mem g ps⟩

end

-- Unless the graph winds, its properties are low: those that are not at any height make up a ring.
theorem exists_low (hw : ¬g.Winds) (p : Property) : ∃ h, g.Low h p := by
  -- What is not low has a reference that collides, to a definition with a property that is not low.
  have hnext : ∀ p, (∀ h, ¬g.Low h p) → g.Collides p ∧ ∃ d, g.get? p.type.element.name = some d ∧
      ∃ q ∈ d.properties, ∀ h, ¬g.Low h q := by
    intro p hp
    refine ⟨by_contra fun hc => hp 1 fun h => absurd h hc, ?_⟩
    by_contra hn
    push Not at hn
    cases hd : g.get? p.type.element.name
    case none => exact hp 1 fun _ d hd' => absurd (hd.symm.trans hd') nofun
    case some d =>
      obtain ⟨h, hh⟩ := exists_bound (fun _ _ => Low.succ) <| hn d hd
      exact hp (h + 1) fun _ d' hd' => Option.some_inj.mp (hd.symm.trans hd') ▸ hh
  by_contra hp'
  push Not at hp'
  -- The ring consists of all definitions without a table that have such a property.
  refine hw ⟨{m | ∃ d, g.get? m = some d ∧ ¬d.needsTable ∧ ∃ p ∈ d.properties, ∀ h, ¬g.Low h p}, ?_, ?_⟩
  · obtain ⟨hc, e, he, q, hq, hq'⟩ := hnext p hp'
    have ht := (needsSynthesis_iff.mp hc.left).right
    exact ⟨_, e, he, needsTable_of_get? he ▸ ht, q, hq, hq'⟩
  · rintro m ⟨d, hd, ht, p, hp, hp'⟩
    obtain ⟨hc, e, he, q, hq, hq'⟩ := hnext p hp'
    have ht' := (needsSynthesis_iff.mp hc.left).right
    exact ⟨d, hd, ht, p, hp, hc, e, he, needsTable_of_get? he ▸ ht', q, hq, hq'⟩

theorem collides_of_stays (hc : g'.Collides p) (hx : g'.Extends g) (hs : Stays ws g g')
    (hw : Watched ws g p) : g.Collides p := by
  obtain ⟨hn, hi, ht⟩ := hc
  have hcap := hs _ hw.left <| contains_of_needsTable ht
  exact ⟨needsSynthesis_of_extends hn hx, hi, hx.needsTable_eq hcap ▸ ht⟩

namespace Gives

-- A new definition for a flat property means that the property collides: otherwise it would have
-- been named after the property alone, or that name been used again.
theorem collides (hg : g.Gives owner index p shape name) (hp : g.Flat p) (hw : Watched ws g p)
    (hs : Stays ws g (g.give owner index name shape)) (hn : ¬g.contains name) : g.Collides p := by
  refine ⟨hg.needs, hp hg.needs, by_contra fun ht => ?_⟩
  obtain ⟨k, hk, hj⟩ := hg.exists_candidate
  -- The name of the property comes first, so it is taken if it is accepted.
  have hfirst : g.accepts shape (Naming.capitalize p.name) → name = Naming.capitalize p.name := by
    intro ha
    cases k
    case zero   => exact hk
    case succ k => exact absurd ha <| hj 0 <| by omega
  cases hd : g.get? (Naming.capitalize p.name)
  -- The name is free, but watched, so it is not added now.
  case none =>
    have he := hfirst <| by simp [accepts, hd]
    exact hn <| hs name (he ▸ hw.left) contains_give
  -- The name is that of a definition without a table, which is what the property is made of then.
  case some d =>
    have hshared : g.sharedProperties? (Naming.capitalize p.name) = some d.properties :=
      sharedProperties?_eq_some_iff.mpr ⟨d, hd, needsTable_of_get? hd ▸ ht, rfl⟩
    have hshape : d.properties = shape := by
      rcases shape?_cases hg.made with ⟨hi, _⟩ | ⟨_, m, e, he, hs', ⟨rfl, _⟩ | ⟨_, hnone⟩⟩
      · exact absurd hi <| hp hg.needs
      · exact Option.some_inj.mp (hd.symm.trans he) ▸ hs'
      · cases hshared.symm.trans hnone
    have he := hfirst <| by simp [accepts, hd, hshape, sameAll_refl]
    exact hn <| he ▸ contains_of_get? hd

-- A step keeps properties low, and so it does its own with the new type. The induction is on the
-- height: what a reference leads to is as before, or has the property with the new type.
theorem low (hg : g.Gives owner index p shape name) (hn : g.FullyNamed) (hp : g.Flat p)
    (ha : g.All (Watched ws g)) (hs : Stays ws g (g.give owner index name shape)) (h : Nat) :
    (∀ q, Deep (Watched ws g) q → g.Low h q → (g.give owner index name shape).Low h q) ∧
      (g.Low h p → (g.give owner index name shape).Low h (retarget name p)) := by
  have hx := hg.extends
  -- No watched name is added, so what collides after the step did so before.
  have hback : ∀ {q}, Deep (Watched ws g) q → (g.give owner index name shape).Collides q →
      g.Collides q := by
    intro q hq hc
    refine collides_of_stays hc hx hs <| hq.here <| not_isScalarElement_of_needsSynthesis hc.left
  have hback' : (g.give owner index name shape).Collides (retarget name p) → g.Collides p := by
    intro hc
    have hcap := hs _ (hg.here ha).left <| contains_of_needsTable hc.right.right
    exact ⟨hg.needs, hp hg.needs, hx.needsTable_eq hcap ▸ hc.right.right⟩
  induction h
  case zero => exact ⟨fun _ _ => id, id⟩
  case succ h ih =>
    obtain ⟨ih, ihr⟩ := ih
    have hgiven : ∀ {n d}, g.get? n = some d → (∀ q ∈ d.properties, g.Low h q) →
        ∀ q ∈ (d.given owner index name).properties, (g.give owner index name shape).Low h q := by
      intro n d hd hl q hq
      rcases hg.mem_given hd hq with hq | ⟨rfl, hm, _⟩
      · exact ih q (ha n d hd q hq) <| hl q hq
      · exact ihr <| hl p hm
    constructor
    · intro q hq hl hc d' hd'
      have hw := hq.here <| not_isScalarElement_of_needsSynthesis hc.left
      rcases get?_give_cases hg.contains_owner hd' with ⟨d, hd, rfl⟩ | ⟨hnc, he, rfl⟩
      · exact hgiven hd <| hl (hback hq hc) d hd
      -- A type that is watched is not added either, and others were in the graph.
      · refine absurd (he ▸ hw.right.elim (fun hm => hs _ hm ?_) id) hnc
        exact contains_of_get? hd'
    · intro hl hc d' hd'
      have hc := hback' hc
      obtain ⟨d, hd, hsh⟩ := hc.exists_of_shape? hg.made
      have hl := hl hc d hd
      rw [hn.element_retarget hg] at hd'
      -- The new type is made of what the old one is made of, used again or created.
      rcases get?_give_cases hg.contains_owner hd' with ⟨e, he, rfl⟩ | ⟨_, _, rfl⟩
      · refine hgiven he fun q hq => ?_
        obtain ⟨q', hq', hqq⟩ := exists_same_of_mem_left (hg.same he) hq
        exact (hl q' <| hsh ▸ hq').of_same hqq
      · exact fun q hq => ih q (hg.deep_made ha q hq) <| hl q <| hsh ▸ hq

end Gives

-- A predicate holds of all properties of some definitions.
def AllOf (g : DefinitionGraph) (names : List String) (P : Property → Prop) : Prop :=
  ∀ n ∈ names, ∀ d, g.get? n = some d → ∀ p ∈ d.properties, P p

theorem exists_allOf {P : Nat → Property → Prop} (names : List String)
    (hP : ∀ k p, P k p → P (k + 1) p) (h : ∀ p, ∃ k, P k p) : ∃ k, g.AllOf names (P k) := by
  obtain ⟨k, hk⟩ := exists_bound (l := g.definitions.flatMap (·.properties)) hP fun p _ => h p
  exact ⟨k, fun n _ d hd p hp => hk p <| List.mem_flatMap.mpr ⟨d, mem_of_get? hd, hp⟩⟩

-- A bound on properties declines if steps keep it, and lower it for what they make of a property.
def Declines (ws : List String) (F : Nat → DefinitionGraph → Property → Prop) : Prop :=
  ∀ {g owner index p shape name k}, g.Gives owner index p shape name → g.FullyNamed →
    g.All (Watched ws g) → Stays ws g (g.give owner index name shape) →
    Visit.IsFresh ⟨g, owner, index⟩ → F k g p →
      (∀ j q, Deep (Watched ws g) q → F j g q → F j (g.give owner index name shape) q) ∧
        (∀ j, F j g p → F j (g.give owner index name shape) (retarget name p)) ∧
        (¬g.contains name → ∀ q ∈ shape, F (k - 1) (g.give owner index name shape) q)

namespace Declines

variable {F : Nat → DefinitionGraph → Property → Prop} {pending more : List String}

theorem step (hF : Declines ws F) (s : g.Step owner index g' created) (hn : g.FullyNamed)
    (ha : g.All (Watched ws g)) (hs : Stays ws g g') (hf : Visit.IsFresh ⟨g, owner, index⟩)
    (ho : owner ∈ pending) (hsub : pending ++ more ⊆ g.names) (hp : g.AllOf pending (F k g))
    (hm : g.AllOf more (F (k - 1) g)) :
    g'.AllOf pending (F k g') ∧ g'.AllOf (more ++ created.toList) (F (k - 1) g') := by
  cases s
  case idle => exact ⟨hp, by simpa using hm⟩
  case give p shape name hg =>
    obtain ⟨o, hd, hfound⟩ := hg.found
    obtain ⟨hkeep, hret, hmade⟩ := hF hg hn ha hs hf <| hp owner ho o hd p <| List.mem_of_getElem? hfound
    -- Of the definitions from before, only the property of the step has changed.
    have hgiven : ∀ {j ns}, ns ⊆ g.names → g.AllOf ns (F j g) →
        (g.give owner index name shape).AllOf ns (F j (g.give owner index name shape)) := by
      intro j ns hns h n hm d' hd' q hq
      obtain ⟨d, hd⟩ := exists_of_mem_names <| hns hm
      cases hd'.symm.trans <| get?_give_of_some hd
      rcases hg.mem_given hd hq with hq | ⟨rfl, hpm, _⟩
      · exact hkeep j q (ha n d hd q hq) <| h n hm d hd q hq
      · exact hret j <| h n hm d hd p hpm
    have ⟨hsp, hsm⟩ := List.append_subset.mp hsub
    refine ⟨hgiven hsp hp, fun n hmem => ?_⟩
    rcases List.mem_append.mp hmem with hmem | hmem
    · exact hgiven hsm hm n hmem
    · split at hmem
      case isTrue => contradiction
      case isFalse hc =>
        cases List.mem_singleton.mp hmem
        intro d hd q hq
        cases hd.symm.trans <| hg.get?_fresh hc
        exact hmade hc q hq

-- A pass over definitions within a bound creates definitions within the next lower one.
theorem steps (hF : Declines ws F) (s : g.Steps vs g') (hn : g.FullyNamed) (ha : g.All (Watched ws g))
    (hs : Stays ws g g') (hf : ∀ v ∈ vs, v.IsFresh) (ho : ∀ v ∈ vs, v.owner ∈ pending)
    (hsub : pending ++ more ⊆ g.names) (hp : g.AllOf pending (F k g))
    (hm : g.AllOf more (F (k - 1) g)) :
    ∃ names, g'.names = g.names ++ names ∧ g'.AllOf (more ++ names) (F (k - 1) g') := by
  induction s generalizing more
  case refl => exact ⟨[], by simp, by simpa using hm⟩
  case step g₁ g₂ g₃ owner index created vs s ss ih =>
    have ⟨hv, hf⟩ := List.forall_mem_cons.mp hf
    have ⟨hov, ho⟩ := List.forall_mem_cons.mp ho
    obtain ⟨hp, hm⟩ := hF.step s hn ha (hs.left ss.extends) hv hov hsub hp hm
    have hsub : pending ++ (more ++ created.toList) ⊆ g₂.names := by
      rw [s.names_eq, ← List.append_assoc]
      exact List.append_subset.mpr ⟨List.subset_append_of_subset_left _ hsub,
        List.subset_append_right _ _⟩
    obtain ⟨names, hnames, hall⟩ :=
      ih (hn.step s) (s.watched hn.toWellNamed ha) (hs.right s.extends) hf ho hsub hp hm
    exact ⟨created.toList ++ names, by simp [hnames, s.names_eq], by simpa using hall⟩

end Declines

-- Inline objects are nested in each other, and what references lead to is flat.
theorem declines_shallow : Declines ws fun k g => g.Shallow k := by
  intro g owner index p shape name k hg hn ha hs hf hp
  have hx := hg.extends
  refine ⟨fun j q _ hq => hq.of_extends hx, fun j _ => ?_, ?_⟩
  · exact .of_flat (fun _ => hn.not_isInline_retarget hg) j
  intro hc q hq
  by_cases hi : p.isInline
  -- The fields of an inline object are nested less deep than the object.
  case pos =>
    cases k
    case zero => exact absurd hi <| hp hg.needs
    case succ =>
      rcases shape?_cases hg.made with ⟨_, rfl⟩ | ⟨hi', _⟩
      · exact (hp hg.needs hi q hq).of_extends hx
      · exact absurd hi hi'
  -- The visit is fresh, so what the reference leads to is flat.
  case neg =>
    have hcol := hg.collides (fun _ => hi) (hg.here ha) hs hc
    obtain ⟨e, he, rfl⟩ := hcol.exists_of_shape? hg.made
    obtain ⟨d, hd, hfound⟩ := hg.found
    exact .of_flat (Flat.of_extends (hf d p e hd hfound hg.needs he q hq) hx) _

theorem declines_low : Declines ws fun h g p => g.Flat p ∧ g.Low h p := by
  intro g owner index p shape name h hg hn ha hs hf ⟨hp, hl⟩
  have hx := hg.extends
  refine ⟨fun j q hw hq => ⟨hq.left.of_extends hx, (hg.low hn hp ha hs j).left q hw hq.right⟩,
    fun j hq => ⟨fun _ => hn.not_isInline_retarget hg, (hg.low hn hp ha hs j).right hq.right⟩, ?_⟩
  intro hc q hq
  cases h
  case zero => contradiction
  case succ h =>
    have hcol := hg.collides hp (hg.here ha) hs hc
    obtain ⟨e, he, rfl⟩ := hcol.exists_of_shape? hg.made
    obtain ⟨d, hd, hfound⟩ := hg.found
    refine ⟨Flat.of_extends (hf d p e hd hfound hg.needs he q hq) hx, ?_⟩
    exact (hg.low hn hp ha hs h).left q (hg.deep_made ha q hq) <| hl hcol e he q hq

end Classwright.DefinitionGraph
