import Classwright.Graph.Closure
import Classwright.Proofs.Graph.Run

namespace Classwright.DefinitionGraph

open Schema Property

variable {g g' : DefinitionGraph} {P Q : Property → Prop} {d d' : Definition} {p q : Property}
  {shape : List Property} {owner name n : String} {index j : Nat} {created : Option String}
  {v : Visit} {vs : List Visit}

def All (g : DefinitionGraph) (P : Property → Prop) : Prop :=
  ∀ n d, g.get? n = some d → ∀ p ∈ d.properties, Deep P p

theorem needsSynthesis_iff :
    g.needsSynthesis p ↔ ¬p.type.isScalarElement ∧ ¬g.needsTable p.type.element.name := by
  simp [needsSynthesis]

theorem needsSynthesis_of_same (h : same p q) : g.needsSynthesis p = g.needsSynthesis q := by
  simp [needsSynthesis, type_eq_of_same h]

theorem not_isScalarElement_of_needsSynthesis (h : g.needsSynthesis p) :
    ¬p.type.isScalarElement := by
  simp_all [needsSynthesis]

namespace All

theorem mono (hPQ : ∀ p, P p → Q p) (h : g.All P) : g.All Q :=
  fun n d hd p hp => (h n d hd p hp).mono hPQ

theorem ofSchemas {schemas : List ObjectSchema}
    (h : ∀ s ∈ schemas, ∀ p ∈ s.properties, Deep P p) : (ofSchemas schemas).All P := by
  intro n d hd
  obtain ⟨s, hs, _, rfl⟩ := exists_schema_of_get? hd
  exact h s hs

-- What a property is made of comes from the graph or from the property itself.
theorem deep_of_shape? (h : g.All P) (hp : Deep P p) (hn : g.needsSynthesis p)
    (hs : g.shape? p = some shape) : ∀ q ∈ shape, Deep P q := by
  intro q hq
  rcases shape?_cases hs with ⟨_, rfl⟩ | ⟨_, n, d, hd, rfl, _⟩
  · exact hp.field (not_isScalarElement_of_needsSynthesis hn) hq
  · exact h n d hd q hq

end All

namespace Gives

theorem not_isScalarElement (h : g.Gives owner index p shape name) : ¬p.type.isScalarElement :=
  not_isScalarElement_of_needsSynthesis h.needs

theorem deep (h : g.Gives owner index p shape name) (ha : g.All P) : Deep P p :=
  have ⟨d, hd, hp⟩ := h.found
  ha owner d hd p <| List.mem_of_getElem? hp

theorem here (h : g.Gives owner index p shape name) (ha : g.All P) : P p :=
  h.deep ha |>.here h.not_isScalarElement

theorem deep_made (h : g.Gives owner index p shape name) (ha : g.All P) : ∀ q ∈ shape, Deep P q :=
  ha.deep_of_shape? (h.deep ha) h.needs h.made

end Gives

-- A property after a step is one from before, or the one that the step gave a new type.
theorem mem_properties_given (hp : d.properties[index]? = some p)
    (hq : q ∈ (d.given owner index name).properties) : q ∈ d.properties ∨ q = retarget name p := by
  obtain ⟨j, hj⟩ := List.mem_iff_getElem?.mp hq
  rw [Definition.getElem?_properties_given] at hj
  split at hj
  case isTrue h  => exact .inr <| by simp_all
  case isFalse h => exact .inl <| List.mem_of_getElem? hj

theorem Gives.mem_given (h : g.Gives owner index p shape name) (hd : g.get? n = some d)
    (hq : q ∈ (d.given owner index name).properties) :
    q ∈ d.properties ∨ q = retarget name p ∧ p ∈ d.properties ∧ n = owner := by
  have hdn := name_of_get? hd
  by_cases hn : n = owner
  case neg =>
    rw [Definition.properties_given, hdn, if_neg hn] at hq
    exact .inl hq
  case pos =>
    obtain ⟨e, he, hp⟩ := h.found
    cases he.symm.trans <| hn ▸ hd
    exact (mem_properties_given hp hq).imp_right (⟨·, List.mem_of_getElem? hp, hn⟩)

-- Properties after a step relate to those from before, one by one, if the new type does.
theorem Gives.forall₂_given {R : Property → Property → Prop}
    (h : g.Gives owner index p shape name) (hd : g.get? n = some d)
    (hR : ∀ q ∈ d.properties, R q q) (hp : R (retarget name p) p) :
    List.Forall₂ R (d.given owner index name).properties d.properties := by
  refine List.forall₂_iff_get.mpr ⟨?_, fun j hj hj' => ?_⟩
  · exact h.extends.length_eq hd <| get?_give_of_some hd
  have he := List.getElem?_eq_getElem hj
  rw [Definition.getElem?_properties_given, List.getElem?_eq_getElem hj'] at he
  rw [List.get_eq_getElem, List.get_eq_getElem]
  split at he
  -- This is the property of the step itself.
  case isTrue ho =>
    obtain ⟨d', hd', hf⟩ := h.found
    cases hd'.symm.trans <| (ho.left ▸ name_of_get? hd) ▸ hd
    rw [← ho.right, List.getElem?_eq_getElem hj', Option.some_inj] at hf
    rw [← Option.some_inj.mp he, hf]
    exact hp
  case isFalse =>
    rw [← Option.some_inj.mp he]
    exact hR _ <| List.getElem_mem _

theorem Step.all (s : g.Step owner index g' created) (hPQ : ∀ p, P p → Q p)
    (hr : ∀ p shape name, g.Gives owner index p shape name → g' = g.give owner index name shape →
      P p → Q (retarget name p))
    (h : g.All P) : g'.All Q := by
  cases s
  case idle => exact h.mono hPQ
  case give p shape name hg =>
    intro n d' hd' q hq
    rcases get?_give_cases hg.contains_owner hd' with ⟨d, hd, rfl⟩ | ⟨_, rfl, rfl⟩
    · rcases hg.mem_given hd hq with hq | ⟨rfl, _⟩
      · exact (h n d hd q hq).mono hPQ
      · exact .retarget <| hr p shape name hg rfl <| hg.here h
    · exact (hg.deep_made h q hq).mono hPQ

theorem All.steps (h : g.All P) (hr : ∀ p name, P p → P (retarget name p)) (s : g.Steps vs g') :
    g'.All P :=
  s.preserves (fun s h => s.all (fun _ => id) (fun p _ name _ _ => hr p name) h) h

-- No name of a definition, and none of a property that may need a type, has a slash.
structure WellNamed (g : DefinitionGraph) : Prop where
  definitions : ∀ n ∈ g.names, PlainName n
  properties  : g.All fun p => PlainName p.name

namespace WellNamed

theorem plainName (h : g.WellNamed) (hg : g.Gives owner index p shape name) : PlainName name := by
  obtain ⟨k, rfl, _⟩ := hg.exists_candidate
  have ho := h.definitions owner <| contains_iff.mp hg.contains_owner
  exact ho.candidate (hg.here h.properties).capitalize k

theorem step (h : g.WellNamed) (s : g.Step owner index g' created) : g'.WellNamed where
  properties := s.all (fun _ => id) (fun _ _ _ _ _ => id) h.properties
  definitions := by
    cases s
    case idle => exact h.definitions
    case give hg =>
      intro n hn
      rw [names_give, List.mem_append] at hn
      cases hn
      case inl hn => exact h.definitions n hn
      case inr hn => split at hn <;> simp_all [h.plainName hg]

theorem steps (h : g.WellNamed) (s : g.Steps vs g') : g'.WellNamed :=
  s.preserves (fun s h => h.step s) h

theorem element_retarget (h : g.WellNamed) (hg : g.Gives owner index p shape name) :
    (retarget name p).type.element.name = name := by
  rw [Property.element_retarget, TypeRef.name_ofName, (h.plainName hg).resolveReference_eq]

theorem not_isInline_retarget (h : g.WellNamed) (hg : g.Gives owner index p shape name)
    (hn : name ≠ objectName) : ¬(retarget name p).isInline := by
  simp [Property.isInline, h.element_retarget hg, hn, -Property.element_retarget]

end WellNamed

-- Besides, no name of a property is empty, so that new types are never taken for built-in ones.
structure FullyNamed (g : DefinitionGraph) : Prop extends g.WellNamed where
  nonempty : g.All fun p => p.name ≠ ""

namespace FullyNamed

theorem step (h : g.FullyNamed) (s : g.Step owner index g' created) : g'.FullyNamed where
  toWellNamed := h.toWellNamed.step s
  nonempty    := s.all (fun _ => id) (fun _ _ _ _ _ => id) h.nonempty

theorem steps (h : g.FullyNamed) (s : g.Steps vs g') : g'.FullyNamed :=
  s.preserves (fun s h => h.step s) h

theorem capitalize_ne_empty (h : g.FullyNamed) (hg : g.Gives owner index p shape name) :
    Naming.capitalize p.name ≠ "" :=
  Schema.capitalize_ne_empty <| hg.here h.nonempty

theorem not_isBuiltIn (h : g.FullyNamed) (hg : g.Gives owner index p shape name) :
    ¬IsBuiltIn name := by
  obtain ⟨k, rfl, _⟩ := hg.exists_candidate
  exact not_isBuiltIn_candidate_of_ne_empty (h.capitalize_ne_empty hg) k

theorem not_isScalarElement_retarget (h : g.FullyNamed) (hg : g.Gives owner index p shape name) :
    ¬(retarget name p).type.isScalarElement :=
  TypeRef.not_isScalarElement_withElement (h.plainName hg) (h.not_isBuiltIn hg)

theorem not_isInline_retarget (h : g.FullyNamed) (hg : g.Gives owner index p shape name) :
    ¬(retarget name p).isInline :=
  h.toWellNamed.not_isInline_retarget hg fun he => h.not_isBuiltIn hg <| he ▸ by decide

end FullyNamed

-- Tables are told when definitions are made, by their properties, and would be told the same later.
def Tabled (g : DefinitionGraph) : Prop :=
  ∀ n d, g.get? n = some d → (d.needsTable ↔ idName ∈ d.properties.map (·.name))

namespace Tabled

theorem ofSchemas {schemas : List ObjectSchema} : (ofSchemas schemas).Tabled := by
  intro n d hd
  obtain ⟨s, _, _, rfl⟩ := exists_schema_of_get? hd
  exact Definition.needsTable_make _

theorem step (h : g.Tabled) (s : g.Step owner index g' created) : g'.Tabled := by
  cases s
  case idle => exact h
  case give hg =>
    intro n d' hd'
    rcases get?_give_cases hg.contains_owner hd' with ⟨d, hd, rfl⟩ | ⟨_, rfl, rfl⟩
    · rw [Definition.needsTable_given, Definition.map_name_given]
      exact h n d hd
    · exact Definition.needsTable_make n

theorem steps (h : g.Tabled) (s : g.Steps vs g') : g'.Tabled :=
  s.preserves (fun s h => h.step s) h

-- Definitions with equal properties both have a table, or neither has.
theorem needsTable_iff_of_sameAll {m : String} (h : g.Tabled) (hd : g.get? n = some d)
    (hd' : g.get? m = some d') (hs : sameAll d'.properties d.properties) :
    d'.needsTable ↔ d.needsTable := by
  rw [h n d hd, h m d' hd', map_name_of_sameAll hs]

end Tabled

-- A property is settled if it is a scalar, leads to a definition with a table, or leads to one that
-- is marked as part of its owner's and has taken over all fields.
def Settled (g : DefinitionGraph) (p : Property) : Prop :=
  p.type.isScalarElement ∨ ∃ d, g.get? p.type.element.name = some d ∧
    (d.needsTable ∨ d.sharesTable ∧ p.fields = [])

theorem Settled.of_extends (h : g.Settled p) (hg : g'.Extends g) : g'.Settled p := by
  rcases h with h | ⟨d, hd, h⟩
  · exact .inl h
  · obtain ⟨d', hd', _, ht, hs⟩ := hg _ d hd
    rcases h with h | ⟨h, hf⟩
    · exact .inr ⟨d', hd', .inl <| ht ▸ h⟩
    · exact .inr ⟨d', hd', (hs <| .inr h).imp_right (⟨·, hf⟩)⟩

theorem resolves_of_contains {t : TypeRef} (h : g.contains t.element.name) : g.resolves t := by
  simp [resolves, h]

theorem Extends.resolves {t : TypeRef} (h : g'.Extends g) (ht : g.resolves t) : g'.resolves t := by
  simp only [DefinitionGraph.resolves, Bool.or_eq_true] at ht ⊢
  exact ht.imp_right h.contains

theorem resolves_of_settled (h : g.Settled p) : g.resolves p.type := by
  rcases h with h | ⟨_, hd, _⟩
  · simp [resolves, h]
  · exact resolves_of_contains <| contains_of_get? hd

theorem settled_of_not_needsSynthesis (h : ¬g.needsSynthesis p) : g.Settled p := by
  simp only [needsSynthesis, Bool.not_eq_true', Bool.and_eq_true, not_and, Bool.not_eq_false] at h
  by_cases hs : p.type.isScalarElement
  case pos => exact .inl hs
  case neg =>
    have ht := h <| by simpa using hs
    obtain ⟨d, hd⟩ := exists_of_contains <| contains_of_needsTable ht
    exact .inr ⟨d, hd, .inl <| needsTable_of_get? hd ▸ ht⟩

theorem Gives.settled (h : g.Gives owner index p shape name) (hn : PlainName name) :
    (g.give owner index name shape).Settled (retarget name p) := by
  refine .inr ?_
  rw [element_retarget, TypeRef.ofName_eq hn, TypeRef.name]
  by_cases hc : g.contains name
  case pos =>
    obtain ⟨e, he⟩ := exists_of_contains hc
    refine ⟨_, get?_give_of_some he, ?_⟩
    simp [Definition.sharesTable_given, name_of_get? he]
  case neg =>
    refine ⟨_, h.get?_fresh hc, ?_⟩
    simp

-- A step creates no definition under the name of a built-in type.
theorem Step.contains_of_isBuiltIn (s : g.Step owner index g' created) (hb : IsBuiltIn n)
    (h : g'.contains n) : g.contains n := by
  cases s
  case idle => exact h
  case give name hg =>
    rw [contains_iff, names_give, List.mem_append] at h
    rcases h with h | h
    · exact contains_iff.mpr h
    · split at h
      case isTrue     => contradiction
      case isFalse hc => exact absurd (List.mem_singleton.mp h ▸ hb) <| hg.not_isBuiltIn hc

theorem Steps.contains_of_isBuiltIn (s : g.Steps vs g') (hb : IsBuiltIn n) (h : g'.contains n) :
    g.contains n := by
  induction s
  case refl         => exact h
  case step s _ ih => exact s.contains_of_isBuiltIn hb <| ih h

section

variable {V : Visit → Prop} {I : DefinitionGraph → Prop}
  {R : DefinitionGraph → String → Property → Prop} {ns : List String}

-- What holds of the property at some place.
def At (R : DefinitionGraph → String → Property → Prop) (g : DefinitionGraph) (owner : String)
    (index : Nat) : Prop :=
  ∃ d, g.get? owner = some d ∧ ∀ p, d.properties[index]? = some p → R g owner p

-- It holds at the place of a step if it holds of all that needs no type, and of what is given one.
theorem Step.at_place (s : g.Step owner index g' created)
    (hn : ∀ p, ¬g.needsSynthesis p → R g owner p)
    (hr : ∀ p shape name, g.Gives owner index p shape name →
      R (g.give owner index name shape) owner (retarget name p)) : g'.At R owner index := by
  cases s
  case idle hd =>
    obtain ⟨d, hd, hp⟩ := hd
    exact ⟨d, hd, fun p hi => hn p <| hp p hi⟩
  case give p shape name hg =>
    obtain ⟨d, hd, hp⟩ := hg.found
    refine ⟨_, get?_give_of_some hd, fun q hq => ?_⟩
    rw [Definition.getElem?_properties_given, if_pos ⟨name_of_get? hd, rfl⟩, hp] at hq
    exact Option.some_inj.mp hq ▸ hr p shape name hg

-- Steps of some kind establish a relation, under an invariant of theirs, if each makes it hold of its
-- property and graphs that extend others keep it.
structure Establishes (V : Visit → Prop) (I : DefinitionGraph → Prop)
    (R : DefinitionGraph → String → Property → Prop) : Prop where
  keeps : ∀ {g g' n p}, R g n p → g'.Extends g → R g' n p
  inv   : ∀ {g g' owner index created}, g.Step owner index g' created → V ⟨g, owner, index⟩ →
    I g → I g'
  step  : ∀ {g g' owner index created}, g.Step owner index g' created → V ⟨g, owner, index⟩ →
    I g → g'.At R owner index

namespace Establishes

theorem at_step (h : Establishes V I R) (hi : I g) (ha : g.At R n j)
    (s : g.Step owner index g' created) (hv : V ⟨g, owner, index⟩) : g'.At R n j := by
  by_cases he : n = owner ∧ j = index
  case pos => exact he.left ▸ he.right ▸ h.step s hv hi
  case neg =>
    obtain ⟨d, hd, hr⟩ := ha
    have hx := s.extends
    cases s
    case idle => exact ⟨d, hd, hr⟩
    case give name hg =>
      refine ⟨_, get?_give_of_some hd, fun p hp => h.keeps (hr p ?_) hx⟩
      rwa [Definition.getElem?_properties_given, name_of_get? hd, if_neg he] at hp

theorem at_steps (h : Establishes V I R) (hi : I g) (ha : g.At R n j) (s : g.Steps vs g')
    (hv : ∀ v ∈ vs, V v) : g'.At R n j := by
  have hP := s.preserves_of (P := fun g => I g ∧ g.At R n j) (V := V)
    (fun s hv ⟨hi, ha⟩ => ⟨h.inv s hv hi, h.at_step hi ha s hv⟩) hv
  exact (hP ⟨hi, ha⟩).right

-- It holds of all that a run visits when the run ends.
theorem at_visited (h : Establishes V I R) (hi : I g) (s : g.Steps vs g') (hV : ∀ v ∈ vs, V v)
    (hv : v ∈ vs) : g'.At R v.owner v.index := by
  obtain ⟨us, ws, g'', created, rfl, s₁, s₂, s₃⟩ := s.split hv
  have ⟨hus, hvws⟩ := List.forall_mem_append.mp hV
  have ⟨hv, hws⟩ := List.forall_mem_cons.mp hvws
  have hi₁ := s₁.preserves_of h.inv hus hi
  exact h.at_steps (h.inv s₂ hv hi₁) (h.step s₂ hv hi₁) s₃ hws

theorem of_covers (h : Establishes V I R) (hi : I g) (s : g.Steps vs g') (hV : ∀ v ∈ vs, V v)
    (hc : g'.Covers vs ns) (hn : n ∈ ns) (hd : g'.get? n = some d) (hp : p ∈ d.properties) :
    R g' n p := by
  obtain ⟨j, hj, rfl⟩ := List.mem_iff_getElem.mp hp
  obtain ⟨v, hv, rfl, rfl⟩ := hc n hn d hd j hj
  obtain ⟨d', hd', hr⟩ := h.at_visited hi s hV hv
  cases hd.symm.trans hd'
  exact hr _ <| List.getElem?_eq_getElem hj

-- A run over all definitions of which it does not hold yet makes it hold of all.
theorem of_settle {passes : Nat} {pending created : List String} (h : Establishes V I R) (hi : I g)
    (hs : GraphM.settle passes pending g = .ok created g')
    (hV : ∀ v ∈ GraphM.settleVisits passes pending g, V v)
    (ho : ∀ n d, n ∉ pending → g.get? n = some d → ∀ p ∈ d.properties, R g n p)
    (hd : g'.get? n = some d) (hp : p ∈ d.properties) : R g' n p := by
  obtain ⟨s, hn, hc⟩ := GraphM.settle_ok hs
  by_cases hm : n ∈ pending ++ created
  case pos => exact h.of_covers hi s hV hc hm hd hp
  case neg =>
    have ⟨hm, hk⟩ := not_or.mp <| mt List.mem_append.mpr hm
    have hg : n ∈ g.names := by
      have := hn ▸ mem_names_of_get? hd
      exact (List.mem_append.mp this).resolve_right hk
    obtain ⟨e, he⟩ := exists_of_mem_names hg
    obtain ⟨j, hj⟩ := List.mem_iff_getElem?.mp hp
    have ha : g.At R n j := ⟨e, he, fun p hp => ho n e hm he p <| List.mem_of_getElem? hp⟩
    obtain ⟨d', hd', hr⟩ := h.at_steps hi ha s hV
    cases hd.symm.trans hd'
    exact hr p hj

end Establishes
end

-- A step settles its property, whatever the property was.
theorem establishes_settled : Establishes (fun _ => True) WellNamed fun g _ p => g.Settled p where
  keeps := Settled.of_extends
  inv s _ h := h.step s
  step s _ h := s.at_place (fun _ => settled_of_not_needsSynthesis)
    fun _ _ _ hg => hg.settled <| h.plainName hg

end Classwright.DefinitionGraph
