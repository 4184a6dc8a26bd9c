import Classwright.Proofs.Graph.Dangling
import Classwright.Proofs.Graph.Queue
import Classwright.Proofs.Graph.Shape
import Mathlib.Logic.Relation
import Mathlib.Order.WellFoundedSet

namespace Classwright

open Schema Property Relation

section

variable {α : Type} {r r' : α → α → Prop} {a b : α}

-- A new edge closes no cycle if its end does not lead back to its start.
theorem wellFounded_of_edge (hw : WellFounded (flip r))
    (h : ∀ x y, r' x y → r x y ∨ x = a ∧ y = b ∧ ¬ReflTransGen r b a) :
    WellFounded (flip r') := by
  -- What does not lead to the start has only the old edges.
  have hd : ∀ x, ¬ReflTransGen r x a → Acc (flip r') x := by
    intro x
    induction x using hw.induction
    case h x ih =>
      intro hx
      refine .intro x fun y hy => ?_
      rcases h x y hy with hr | ⟨rfl, _, _⟩
      · exact ih y hr fun hya => hx <| .head hr hya
      · exact absurd .refl hx
  refine ⟨fun x => ?_⟩
  induction x using hw.induction
  case h x ih =>
    refine .intro x fun y hy => ?_
    rcases h x y hy with hr | ⟨_, rfl, hb⟩
    · exact ih y hr
    · exact hd y hb

-- New nodes that nothing leads to are on no cycle.
theorem wellFounded_of_fresh {s : α → Prop} (hw : WellFounded (flip r))
    (h : ∀ x y, ¬s x → r' x y → r x y) (hs : ∀ x y, r' x y → ¬s y) : WellFounded (flip r') := by
  have ho : ∀ x, ¬s x → Acc (flip r') x := by
    intro x
    induction x using hw.induction
    case h x ih => exact fun hx => .intro x fun y hy => ih y (h x y hx hy) (hs x y hy)
  exact ⟨fun x => .intro x fun y hy => ho y <| hs x y hy⟩

-- Nor is a new node that has an edge from an old one, if what it leads to does not lead back there.
theorem wellFounded_of_fresh_edge {c : α → Prop} (hw : WellFounded (flip r)) (hab : b ≠ a)
    (hb : ∀ x, ¬r x b ∧ ¬r b x)
    (h : ∀ x y, r' x y → r x y ∨ x = a ∧ y = b ∧ (∀ z, c z → ¬ReflTransGen r z a) ∨
      x = b ∧ y ≠ b ∧ c y) : WellFounded (flip r') := by
  -- First without that edge: then nothing leads to the new node, and old paths stay as they are.
  let r₁ : α → α → Prop := fun x y => r x y ∨ x = b ∧ y ≠ b ∧ c y
  have hne : ∀ x y, r₁ x y → y ≠ b := by
    rintro x y (hr | ⟨_, hy, _⟩)
    · exact fun hy => (hb x).left <| hy ▸ hr
    · exact hy
  have hold : ∀ x y, x ≠ b → r₁ x y → r x y :=
    fun x y hx h => h.resolve_right fun h => hx h.left
  have hpath : ∀ x, x ≠ b → ReflTransGen r₁ x a → ReflTransGen r x a := by
    intro x hx hr
    induction hr using ReflTransGen.head_induction_on
    case refl => exact .refl
    case head y z hyz _ ih => exact .head (hold y z hx hyz) <| ih <| hne y z hyz
  refine wellFounded_of_edge (r := r₁) (a := a) (b := b)
    (wellFounded_of_fresh (s := (· = b)) hw hold hne) fun x y hxy => ?_
  rcases h x y hxy with hr | ⟨rfl, rfl, hz⟩ | hc
  · exact .inl <| .inl hr
  · refine .inr ⟨rfl, rfl, fun hr => ?_⟩
    rcases hr.cases_head with he | ⟨z, hbz, hr⟩
    · exact hab he
    · obtain ⟨_, hn, hc⟩ := hbz.resolve_left (hb z).right
      exact hz z hc <| hpath z hn hr
  · exact .inl <| .inr hc

theorem not_transGen_of_wellFounded (hw : WellFounded (flip r)) : ¬TransGen r a a := by
  intro h
  exact hw.transGen.irrefl.irrefl a <| transGen_swap.mpr h

end

namespace DefinitionGraph

variable {g g' : DefinitionGraph} {d : Definition} {p q f : Property} {shape : List Property}
  {owner name n m : String} {index : Nat} {created : Option String}

-- A property holds a definition without a table if it refers to it, or a field of it does that is an
-- inline object without an `id`.
inductive Holds (g : DefinitionGraph) (m : String) : Property → Prop
  | refers {p : Property} : g.needsSynthesis p → ¬p.isInline → p.type.element.name = m →
      g.contains m → Holds g m p
  | inside {p f : Property} : g.needsSynthesis p → p.isInline → (∀ f ∈ p.fields, f.name ≠ idName) →
      f ∈ p.fields → Holds g m f → Holds g m p

def Nests (g : DefinitionGraph) (n m : String) : Prop :=
  ∃ p ∈ g.propertiesOf n, g.Holds m p

-- No definition nests itself, nor is there an endless chain of others.
def IsWellNested (g : DefinitionGraph) : Prop :=
  WellFounded (flip g.Nests)

-- The type of a property is known, or it is a built-in one, which will never be known.
def Rooted (g : DefinitionGraph) (p : Property) : Prop :=
  g.Known p ∨ IsBuiltIn p.type.element.name

instance : DecidablePred g.Rooted :=
  fun _ => inferInstanceAs (Decidable (_ ∨ _))

namespace Holds

theorem contains (h : g.Holds m p) : g.contains m := by
  induction h
  case refers hc => exact hc
  case inside ih => exact ih

-- What a property holds is told by the tables that there are.
theorem of_needsTable (ht : ∀ n, g.needsTable n → g'.needsTable n)
    (hc : g'.contains m → g.contains m) (h : g'.Holds m p) : g.Holds m p := by
  have hs : ∀ p, g'.needsSynthesis p → g.needsSynthesis p := by
    intro p
    rw [needsSynthesis_iff, needsSynthesis_iff]
    exact And.imp_right <| mt <| ht _
  induction h
  case refers hn hi he hm      => exact .refers (hs _ hn) hi he <| hc hm
  case inside hn hi hid hf _ ih => exact .inside (hs _ hn) hi hid hf ih

theorem of_same (h : g.Holds m p) (hs : same p q) : g.Holds m q := by
  have ht : ∀ {p q : Property}, same p q → g.needsSynthesis p → g.needsSynthesis q :=
    fun hs hn => needsSynthesis_of_same hs ▸ hn
  induction h generalizing q
  case refers hn hi he hm =>
    exact .refers (ht hs hn) (isInline_of_same hs ▸ hi) (type_eq_of_same hs ▸ he) hm
  case inside p f hn hi hid hf _ ih =>
    have hfs := fields_of_same hs
    obtain ⟨f', hf', hsf⟩ := exists_same_of_mem_left hfs hf
    refine .inside (ht hs hn) (isInline_of_same hs ▸ hi) (fun y hy => ?_) hf' (ih hsf)
    obtain ⟨x, hx, hxy⟩ := exists_same_of_mem_right hfs hy
    exact name_eq_of_same hxy ▸ hid x hx

-- A property holds nothing that is new.
theorem contains_of_rooted (h : g'.Holds m p) (hr : Deep g.Rooted p) (hb : ¬IsBuiltIn m) :
    g.contains m := by
  induction h
  case refers hn hi he _ =>
    subst he
    exact ((hr.here <| not_isScalarElement_of_needsSynthesis hn).resolve_right hb).resolve_left hi
  case inside hn _ _ hf _ ih => exact ih <| hr.field (not_isScalarElement_of_needsSynthesis hn) hf

theorem iff : g.Holds m p ↔ g.needsSynthesis p ∧
    (¬p.isInline ∧ p.type.element.name = m ∧ g.contains m ∨
      p.isInline ∧ (∀ f ∈ p.fields, f.name ≠ idName) ∧ ∃ f ∈ p.fields, g.Holds m f) where
  mp
    | .refers hn hi he hm      => ⟨hn, .inl ⟨hi, he, hm⟩⟩
    | .inside hn hi hid hf hh => ⟨hn, .inr ⟨hi, hid, _, hf, hh⟩⟩
  mpr
    | ⟨hn, .inl ⟨hi, he, hm⟩⟩          => .refers hn hi he hm
    | ⟨hn, .inr ⟨hi, hid, _, hf, hh⟩⟩ => .inside hn hi hid hf hh

theorem not_isScalarElement (h : g.Holds m p) : ¬p.type.isScalarElement :=
  not_isScalarElement_of_needsSynthesis (iff.mp h).left

mutual

def decidable (g : DefinitionGraph) (m : String) : ∀ p, Decidable (g.Holds m p)
  | ⟨_, _, _, _, _, fields, _⟩ =>
    have := decidableAny g m fields
    decidable_of_iff' _ iff

def decidableAny (g : DefinitionGraph) (m : String) :
    ∀ ps : List Property, Decidable (∃ p ∈ ps, g.Holds m p)
  | []      => .isFalse nofun
  | p :: ps =>
    have := decidable g m p
    have := decidableAny g m ps
    decidable_of_iff' _ <| List.exists_mem_cons_iff ..

end

instance (g : DefinitionGraph) (m : String) (p : Property) : Decidable (g.Holds m p) :=
  decidable g m p

end Holds

instance (g : DefinitionGraph) (n m : String) : Decidable (g.Nests n m) :=
  inferInstanceAs (Decidable (∃ p ∈ _, _))

theorem Nests.contains (h : g.Nests n m) : g.contains n ∧ g.contains m := by
  obtain ⟨p, hp, h⟩ := h
  obtain ⟨d, hd, _⟩ := exists_of_mem_propertiesOf hp
  exact ⟨contains_of_get? hd, h.contains⟩

theorem Rooted.of_extends (h : g.Rooted p) (hx : g'.Extends g) : g'.Rooted p :=
  h.imp_left (·.of_extends hx)

theorem Step.rooted (s : g.Step owner index g' created) (hn : g.WellNamed) (h : g.All g.Rooted) :
    g'.All g'.Rooted := by
  refine s.all (fun _ => (·.of_extends s.extends)) (fun p shape name hg he _ => .inl <| .inr ?_) h
  rw [hn.element_retarget hg, he]
  exact contains_give

end DefinitionGraph

-- A visit is harmless unless a definition that is taken for the reference leads back to its owner.
def Visit.IsHarmless (v : Visit) : Prop :=
  ∀ d p, v.graph.get? v.owner = some d → d.properties[v.index]? = some p → v.graph.needsSynthesis p →
    ¬v.graph.Undisturbed p → ¬ReflTransGen v.graph.Nests (Naming.capitalize p.name) v.owner

-- A definition that is taken leads nowhere if it has scalars only.
def Visit.IsShallow (v : Visit) : Prop :=
  ∀ d ∈ v.graph.get? v.owner, ∀ p ∈ d.properties[v.index]?, v.graph.Undisturbed p ∨
    Naming.capitalize p.name ≠ v.owner ∧
      ∀ q ∈ v.graph.propertiesOf (Naming.capitalize p.name), q.type.isScalarElement

instance : DecidablePred Visit.IsShallow :=
  fun v => inferInstanceAs (Decidable (∀ d ∈ v.graph.get? v.owner, ∀ p ∈ _, _))

theorem Visit.IsShallow.isHarmless {v : Visit} (h : v.IsShallow) : v.IsHarmless := by
  intro d p hd hp _ hu hr
  obtain ⟨hne, hs⟩ := (h d hd p hp).resolve_left hu
  rcases hr.cases_head with he | ⟨m, ⟨q, hq, hm⟩, _⟩
  · exact hne he
  · exact hm.not_isScalarElement <| hs q hq

namespace Schema.Property

-- No property is equal to one of its own fields.
theorem not_same_of_mem_fields : ∀ p f : Property, f ∈ p.fields → ¬same p f
  | ⟨_, _, _, _, _, fields, _⟩, f, hm, hs => by
    obtain ⟨f', hf', hs'⟩ := exists_same_of_mem_left (fields_of_same hs) hm
    have hf : sizeOf f < sizeOf fields := List.sizeOf_lt_of_mem hm
    exact not_same_of_mem_fields f f' hf' hs'
  termination_by p => sizeOf p
  decreasing_by simp_wf; omega

end Schema.Property

namespace DefinitionGraph

variable {g g' : DefinitionGraph} {d e : Definition} {p q : Property} {shape : List Property}
  {owner name n m : String} {index : Nat} {created : Option String}

-- Nothing nests itself if definitions only nest later ones.
theorem not_transGen_nests
    (h : ∀ n ∈ g.names, ∀ m ∈ g.names, g.Nests n m → g.names.idxOf n < g.names.idxOf m)
    (n : String) : ¬TransGen g.Nests n n := by
  have hlt : ∀ n m, TransGen g.Nests n m → g.names.idxOf n < g.names.idxOf m := by
    have hs : ∀ n m, g.Nests n m → g.names.idxOf n < g.names.idxOf m := fun n m hn =>
      h n (contains_iff.mp hn.contains.left) m (contains_iff.mp hn.contains.right) hn
    intro n m ht
    induction ht
    case single hn     => exact hs _ _ hn
    case tail hn ih    => exact ih.trans <| hs _ _ hn
  exact fun ht => Nat.lt_irrefl _ <| hlt n n ht

-- There are but finitely many definitions, so a chain without end comes back to one of them.
theorem isWellNested_of_acyclic (h : ∀ n, ¬TransGen g.Nests n n) : g.IsWellNested := by
  have : IsStrictOrder String (TransGen (flip g.Nests)) :=
    { irrefl := fun n hn => h n <| transGen_swap.mp hn
      trans := fun _ _ _ => .trans }
  have hw := Set.wellFoundedOn_iff.mp <|
    g.names.finite_toSet.wellFoundedOn (r := TransGen (flip g.Nests))
  refine Subrelation.wf (fun hn => ?_) hw
  have ⟨hn', hm⟩ := Nests.contains hn
  exact ⟨.single hn, contains_iff.mp hm, contains_iff.mp hn'⟩

namespace IsWellNested

theorem not_reaches (h : g.IsWellNested) (hn : g.Nests n m) : ¬ReflTransGen g.Nests m n :=
  fun hr => not_transGen_of_wellFounded h <| .head' hn hr

end IsWellNested

namespace Gives

theorem mem_propertiesOf (hg : g.Gives owner index p shape name) : p ∈ g.propertiesOf owner := by
  obtain ⟨d, hd, hp⟩ := hg.found
  exact (DefinitionGraph.mem_propertiesOf hd).mpr <| List.mem_of_getElem? hp

-- A definition that has the name of the property and the shape is used at once.
theorem eq_capitalize (hg : g.Gives owner index p d.properties name)
    (hd : g.get? (Naming.capitalize p.name) = some d) : name = Naming.capitalize p.name := by
  obtain ⟨k, rfl, hk⟩ := hg.exists_candidate
  cases k
  case zero => rfl
  case succ k => exact absurd (by simp [accepts, candidate, hd, sameAll_refl]) <| hk 0 <| by omega

variable (hg : g.Gives owner index p shape name) (hw : g.IsWellNested)
  (hv : Visit.IsHarmless ⟨g, owner, index⟩)
include hg hw hv

-- The shape of a reference comes from a definition that does not lead back to the owner. Either it
-- has the name of the property, and is used as it is, or the property refers to it.
theorem exists_source (hi : ¬p.isInline) : ∃ n d, g.get? n = some d ∧ d.properties = shape ∧
    ¬ReflTransGen g.Nests n owner ∧ (name = n ∨ g.Holds n p) := by
  obtain ⟨hi', _⟩ | ⟨_, n, d, hd, rfl, hn⟩ := shape?_cases hg.made
  · contradiction
  have href : n = p.type.element.name → g.Holds n p :=
    fun he => .refers hg.needs hi he.symm <| contains_of_get? hd
  have hnot : g.Holds n p → ¬ReflTransGen g.Nests n owner :=
    fun h => hw.not_reaches ⟨p, hg.mem_propertiesOf, h⟩
  rcases hn with ⟨rfl, ht⟩ | ⟨he, _⟩
  case inr => exact ⟨n, d, hd, rfl, hnot <| href he, .inr <| href he⟩
  case inl =>
    refine ⟨_, d, hd, rfl, ?_, .inl <| hg.eq_capitalize hd⟩
    by_cases hu : g.Undisturbed p
    case neg =>
      obtain ⟨e, he, hp⟩ := hg.found
      exact hv e p he hp hg.needs hu
    case pos =>
      have hs := sharedProperties?_eq_some_iff.mpr ⟨d, hd, ht, rfl⟩
      rcases hu with hu | hu | hu
      · contradiction
      · simp [hs] at hu
      · exact hnot <| href hu

-- What is made for a property holds nothing that leads back to the owner.
theorem not_reaches_of_holds (hid : ∀ q ∈ shape, q.name ≠ idName) (hq : q ∈ shape)
    (h : g.Holds m q) : ¬ReflTransGen g.Nests m owner := by
  by_cases hi : p.isInline
  case pos =>
    obtain ⟨_, rfl⟩ | ⟨hi', _⟩ := shape?_cases hg.made
    · exact hw.not_reaches ⟨p, hg.mem_propertiesOf, .inside hg.needs hi hid hq h⟩
    · contradiction
  case neg =>
    obtain ⟨n, d, hd, rfl, hn, _⟩ := hg.exists_source hw hv hi
    exact fun hr => hn <| .head ⟨q, (DefinitionGraph.mem_propertiesOf hd).mpr hq, h⟩ hr

-- No more does a definition without a table that is used again.
theorem not_reaches (hi : g.Tabled) (he : g.get? name = some e) (ht : ¬e.needsTable) :
    ¬ReflTransGen g.Nests name owner := by
  have hs := hg.same he
  have hid : ∀ q ∈ shape, q.name ≠ idName := fun q hq hn =>
    ht <| (hi _ e he).mpr <| map_name_of_sameAll hs ▸ hn ▸ List.mem_map_of_mem hq
  intro hr
  rcases hr.cases_head with rfl | ⟨m, ⟨q, hq, hm⟩, hr⟩
  -- The owner would have one of its own properties at a deeper level, or would lead to itself.
  case inl =>
    obtain ⟨d, hd, hp⟩ := hg.found
    cases he.symm.trans hd
    obtain ⟨f, hf, hpf⟩ := exists_same_of_mem_left hs <| List.mem_of_getElem? hp
    by_cases hi : p.isInline
    case pos =>
      obtain ⟨_, rfl⟩ | ⟨hi', _⟩ := shape?_cases hg.made
      · exact not_same_of_mem_fields p f hf hpf
      · contradiction
    case neg =>
      obtain ⟨n, d, hd', rfl, hn, rfl | hh⟩ := hg.exists_source hw hv hi
      · exact hn .refl
      · exact hw.not_reaches ⟨f, (DefinitionGraph.mem_propertiesOf hd').mpr hf, hh.of_same hpf⟩ .refl
  case inr =>
    obtain ⟨f, hf, hqf⟩ :=
      exists_same_of_mem_left hs <| (DefinitionGraph.mem_propertiesOf he).mp hq
    exact hg.not_reaches_of_holds hw hv hid hf (hm.of_same hqf) hr

end Gives

-- After a step, definitions nest what they did before. Besides, the owner may nest the definition that
-- the step settled on, and that one what it was made of if it is new.
theorem Gives.nests_cases (hg : g.Gives owner index p shape name) (hn : g.WellNamed)
    (hr : g.All g.Rooted) (h : (g.give owner index name shape).Nests n m) :
    g.Nests n m ∨ n = owner ∧ m = name ∧ ¬(g.give owner index name shape).needsTable name ∨
      ¬g.contains name ∧ n = name ∧ ∃ q ∈ shape, g.Holds m q := by
  have s := Step.give p shape name hg
  obtain ⟨q, hq, h⟩ := h
  obtain ⟨d', hd', hq⟩ := exists_of_mem_propertiesOf hq
  have hold : Deep g.Rooted q → g.Holds m q := by
    intro hd
    refine h.of_needsTable (fun n ht => ?_) fun hc => ?_
    · exact s.extends.needsTable_eq (contains_of_needsTable ht) ▸ ht
    · by_cases hb : IsBuiltIn m
      case pos => exact s.contains_of_isBuiltIn hb hc
      case neg => exact h.contains_of_rooted hd hb
  rcases get?_give_cases hg.contains_owner hd' with ⟨d, hd, rfl⟩ | ⟨hc, rfl, rfl⟩
  case inr => exact .inr <| .inr ⟨hc, rfl, q, hq, hold <| hg.deep_made hr q hq⟩
  case inl =>
    rcases hg.mem_given hd hq with hq | ⟨rfl, _, ho⟩
    · exact .inl ⟨q, (DefinitionGraph.mem_propertiesOf hd).mpr hq, hold <| hr n d hd q hq⟩
    · refine .inr <| .inl ⟨ho, ?_⟩
      cases h
      case refers hc hs _ he =>
        rw [hn.element_retarget hg] at he
        rw [needsSynthesis_iff, hn.element_retarget hg] at hs
        exact ⟨he.symm, hs.right⟩
      case inside hf => simp at hf

-- The step keeps definitions well nested.
theorem Step.isWellNested (s : g.Step owner index g' created) (hn : g.WellNamed) (hi : g.Tabled)
    (hr : g.All g.Rooted) (hv : Visit.IsHarmless ⟨g, owner, index⟩) (hw : g.IsWellNested) :
    g'.IsWellNested := by
  cases s
  case idle => exact hw
  case give p shape name hg =>
    have hcases := fun {n m} => hg.nests_cases (n := n) (m := m) hn hr
    by_cases hc : g.contains name
    case pos =>
      obtain ⟨e, he⟩ := exists_of_contains hc
      refine wellFounded_of_edge hw (a := owner) (b := name) fun n m h => ?_
      refine (hcases h).imp_right fun h => ?_
      obtain ⟨rfl, rfl, ht⟩ := h.resolve_right fun h => h.left hc
      refine ⟨rfl, rfl, hg.not_reaches hw hv hi he ?_⟩
      rwa [needsTable_of_get? (get?_give_of_some he), Definition.needsTable_given] at ht
    case neg =>
      refine wellFounded_of_fresh_edge hw (c := fun m => ∃ q ∈ shape, g.Holds m q) (a := owner)
        (hg.ne_owner hc) (fun n => ⟨fun h => hc h.contains.right, fun h => hc h.contains.left⟩)
        fun n m h => ?_
      refine (hcases h).imp_right <| .imp (fun ⟨hno, hmn, ht⟩ => ⟨hno, hmn, ?_⟩)
        fun ⟨_, hnn, q, hq, hm⟩ => ⟨hnn, fun he => hc <| he ▸ hm.contains, q, hq, hm⟩
      rintro z ⟨q, hq, hz⟩
      refine hg.not_reaches_of_holds hw hv (fun f hf hid => ht ?_) hq hz
      rw [needsTable_of_get? (hg.get?_fresh hc)]
      exact (Definition.needsTable_make name).mpr <| hid ▸ List.mem_map_of_mem hf

-- What holds throughout a run: names are plain, types known, and definitions well nested.
structure Layered (g : DefinitionGraph) : Prop where
  named  : g.WellNamed
  tabled : g.Tabled
  rooted : g.All g.Rooted
  nested : g.IsWellNested

theorem Step.layered (s : g.Step owner index g' created) (hv : Visit.IsHarmless ⟨g, owner, index⟩)
    (h : g.Layered) : g'.Layered where
  named  := h.named.step s
  tabled := h.tabled.step s
  rooted := s.rooted h.named h.rooted
  nested := s.isWellNested h.named h.tabled h.rooted hv h.nested

theorem Steps.layered {vs : List Visit} (s : g.Steps vs g') (hv : ∀ v ∈ vs, v.IsHarmless)
    (h : g.Layered) : g'.Layered :=
  s.preserves_of (fun s hv h => s.layered hv h) hv h

-- A property is not given the name of its owner, unless that has a table.
theorem Gives.ne_owner_of_not_needsTable (hg : g.Gives owner index p shape name)
    (hv : Visit.IsHarmless ⟨g, owner, index⟩) (h : g.Layered)
    (ht : ¬(g.give owner index name shape).needsTable name) : name ≠ owner := by
  by_cases hc : g.contains name
  case neg => exact hg.ne_owner hc
  case pos =>
    obtain ⟨e, he⟩ := exists_of_contains hc
    rw [needsTable_of_get? (get?_give_of_some he), Definition.needsTable_given] at ht
    exact fun hn => hg.not_reaches h.nested hv h.tabled he ht <| hn ▸ .refl

-- So no step makes a property inline again.
theorem establishes_flat_of_layered :
    Establishes Visit.IsHarmless Layered fun g _ p => g.Flat p where
  keeps := Flat.of_extends
  inv s hv h := s.layered hv h
  step s hv h := by
    refine s.at_place (fun _ hn hs => absurd hs hn) fun p shape name hg hs => ?_
    rw [needsSynthesis_iff, h.named.element_retarget hg] at hs
    have ho := hg.ne_owner_of_not_needsTable hv h hs.right
    exact h.named.not_isInline_retarget hg fun he =>
      hg.not_isBuiltIn_of_ne_owner ho <| he ▸ by decide

-- What endpoints add is on top of all other definitions.
theorem Grown.layered {adds : List (String × List Property)} {names : List String}
    (hg : g.Grown adds names g') (h : g.Layered)
    (ha : ∀ a ∈ adds, PlainName a.fst ∧ ¬IsBuiltIn a.fst ∧
      ∀ p ∈ a.snd, Deep (fun p => PlainName p.name ∧ g.Rooted p) p) : g'.Layered := by
  have hall : g'.All g.Rooted := hg.all h.rooted (fun _ => id) fun a hm p hp =>
    ((ha a hm).right.right p hp).mono fun _ h => h.right
  have hold : ∀ n m, g'.Nests n m → g.contains m ∧ ∃ p ∈ g'.propertiesOf n, g.Holds m p := by
    rintro n m ⟨p, hp, hm⟩
    obtain ⟨d, hd, hpd⟩ := exists_of_mem_propertiesOf hp
    have hc : g.contains m := by
      by_cases hb : IsBuiltIn m
      case pos => exact hg.contains_of_isBuiltIn (fun a hm => (ha a hm).right.left) hb hm.contains
      case neg => exact hm.contains_of_rooted (hall n d hd p hpd) hb
    refine ⟨hc, p, hp, hm.of_needsTable (fun n ht => ?_) fun _ => hc⟩
    exact hg.extends.needsTable_eq (contains_of_needsTable ht) ▸ ht
  refine ⟨hg.wellNamed h.named fun a hm => ?_, hg.tabled h.tabled, fun n d hd p hp =>
    (hall n d hd p hp).mono fun _ h => h.of_extends hg.extends, ?_⟩
  · have ⟨hn, _, hp⟩ := ha a hm
    exact ⟨hn, fun p hm => (hp p hm).mono fun _ h => h.left⟩
  · refine wellFounded_of_fresh (s := fun n => ¬g.contains n) h.nested (fun n m hn hm => ?_)
      fun n m hm => not_not.mpr (hold n m hm).left
    obtain ⟨d, hd⟩ := exists_of_contains <| not_not.mp hn
    obtain ⟨tag, hd'⟩ := hg.kept n d hd
    obtain ⟨_, p, hp, hm⟩ := hold n m hm
    exact ⟨p, (mem_propertiesOf hd).mpr <| (mem_propertiesOf hd').mp hp, hm⟩

end DefinitionGraph

end Classwright
