import Classwright.Proofs.Graph.Endpoint

namespace Classwright.DefinitionGraph

open Schema Property

variable {start g g' last : DefinitionGraph} {d : Definition} {p q r : Property}
  {owner n : String} {index : Nat} {created : Option String} {vs : List Visit} {e : Error}

-- Nothing tells what the property is made of: it is no scalar and has no fields of its own, its type
-- is no definition, and no definition without a table has its name.
def Dangling (g : DefinitionGraph) (p : Property) : Prop :=
  ¬p.type.isScalarElement ∧ ¬p.isInline ∧ ¬g.contains p.type.element.name ∧
    g.sharedProperties? (Naming.capitalize p.name) = none

theorem dangling_iff : g.Dangling p ↔ g.needsSynthesis p ∧ g.shape? p = none := by
  have ht := mt <| contains_of_needsTable (g := g) (n := p.type.element.name)
  cases hs : g.sharedProperties? (Naming.capitalize p.name) <;>
    cases hi : p.isInline <;> simp_all [Dangling, needsSynthesis, shape?, isInline, contains]

-- A step fails at a property of an existing definition if the property is dangling.
theorem exists_dangling_of_fails (hc : g.contains owner)
    (h : g.synthesizeProperty owner index = .error e) :
    ∃ d p, g.get? owner = some d ∧ p ∈ d.properties ∧ g.Dangling p ∧
      e = .danglingReference owner p.name p.type.element.name := by
  rcases synthesizeProperty_eq_error_iff.mp h with ⟨hn, _⟩ | ⟨d, p, hd, hp, hn, hs, he⟩
  · simp [contains, hn] at hc
  · exact ⟨d, p, hd, List.mem_of_getElem? hp, dangling_iff.mpr ⟨hn, hs⟩, he⟩

namespace Dangling

theorem of_extends (h : g'.Dangling p) (hx : g'.Extends g) : g.Dangling p := by
  obtain ⟨hs, hi, hc, hp⟩ := h
  refine ⟨hs, hi, mt hx.contains hc, ?_⟩
  by_contra hne
  obtain ⟨shape, hsh⟩ := Option.ne_none_iff_exists'.mp hne
  obtain ⟨d, hd, ht, _⟩ := sharedProperties?_eq_some_iff.mp hsh
  obtain ⟨d', hd', _, ht', _⟩ := hx _ d hd
  have := sharedProperties?_eq_some_iff.mpr ⟨d', hd', ht' ▸ ht, rfl⟩
  simp [this] at hp

theorem of_same (h : same p q) (hd : g.Dangling q) : g.Dangling p := by
  simpa only [Dangling, type_eq_of_same h, isInline_of_same h, name_eq_of_same h] using hd

end Dangling

-- The type of a property is known if it is described on the spot, or a definition.
def Known (g : DefinitionGraph) (p : Property) : Prop :=
  p.isInline ∨ g.contains p.type.element.name

instance : DecidablePred g.Known :=
  fun _ => inferInstanceAs (Decidable (_ ∨ _))

namespace Known

theorem of_extends (h : g.Known p) (hx : g'.Extends g) : g'.Known p :=
  h.imp_right hx.contains

theorem not_dangling (h : g.Known p) : ¬g.Dangling p :=
  fun hd => h.elim hd.right.left hd.right.right.left

end Known

theorem Step.known (s : g.Step owner index g' created) (hn : g.WellNamed) (h : g.All g.Known) :
    g'.All g'.Known := by
  refine s.all (fun _ => (·.of_extends s.extends)) (fun p shape name hg he _ => .inr ?_) h
  rw [hn.element_retarget hg, he]
  exact contains_give

-- Where all types are known, no step fails.
theorem not_fails_of_known (hn : g.WellNamed) (h : g.All g.Known) : ¬g.Fails vs e g' := by
  rintro ⟨us, owner, index, _, s, hc, he⟩
  have hP := s.preserves (P := fun g => g.WellNamed ∧ g.All g.Known)
    fun s ⟨hn, h⟩ => ⟨hn.step s, s.known hn h⟩
  obtain ⟨d, p, hd, hp, hdang, _⟩ := exists_dangling_of_fails hc he
  exact ((hP ⟨hn, h⟩).right owner d hd p hp |>.here hdang.left).not_dangling hdang

-- A property stands in another one if it is a field of an inline object there, at any depth. The
-- fields next to a reference to a table are left out: they are never looked at.
inductive StandsIn (start : DefinitionGraph) (q : Property) : Property → Prop
  | here : StandsIn start q q
  | field {p f} : ¬p.type.isScalarElement → ¬start.needsTable p.type.element.name → f ∈ p.fields →
      StandsIn start q f → StandsIn start q p

namespace StandsIn

theorem trans (h₁ : StandsIn start q p) (h₂ : StandsIn start p r) : StandsIn start q r := by
  induction h₂
  case here               => exact h₁
  case field hs ht hf _ ih => exact field hs ht hf ih

-- What stands in a property stands in an equal one, up to equality.
theorem of_same (h : StandsIn start q p) (hs : same r p) : ∃ q', StandsIn start q' r ∧ same q' q := by
  induction h generalizing r
  case here => exact ⟨r, here, hs⟩
  case field p f hn ht hf _ ih =>
    have hfs := sameAll_iff.mp <| fields_of_same hs
    obtain ⟨j, hj, rfl⟩ := List.mem_iff_getElem.mp hf
    have hl := hfs.length_eq
    obtain ⟨q', hq, hs'⟩ := ih <| hfs.get (hl ▸ hj) hj
    have he := type_eq_of_same hs
    exact ⟨q', field (he ▸ hn) (he ▸ ht) (List.getElem_mem _) hq, hs'⟩

theorem deep {P : Property → Prop} (hq : StandsIn start q p) (h : Deep P p) : Deep P q := by
  induction hq
  case here               => exact h
  case field hn _ hf _ ih => exact ih <| h.field hn hf

end StandsIn

-- Nothing that stands in the property dangles at the end of a run.
def Explained (start last : DefinitionGraph) (p : Property) : Prop :=
  ∀ q, StandsIn start q p → ¬last.Dangling q

theorem Explained.of_same (h : Explained start last p) (hs : same p q) : Explained start last q := by
  intro r hr hd
  obtain ⟨r', hr', hs'⟩ := hr.of_same hs
  exact h r' hr' <| hd.of_same hs'

-- A property is explained if its fields are, or at least equal properties. A field that equals the
-- property itself leads back to it, with less depth to go; that is what the induction is on.
theorem Explained.of_fields (hp : ¬last.Dangling p)
    (hf : ∀ f ∈ p.fields, ∃ f', same f' f ∧ (f' = p ∨ Explained start last f')) :
    Explained start last p := by
  suffices h : ∀ q r, StandsIn start q r → last.Dangling q → ¬same p r from
    fun q hq hd => h q p hq hd <| same_refl p
  intro q r hr hd
  induction hr
  case here => exact fun hs => hp <| hd.of_same hs
  case field r f hn ht hm hst ih =>
    intro hs
    have hfs := sameAll_iff.mp <| fields_of_same hs
    obtain ⟨j, hj, rfl⟩ := List.mem_iff_getElem.mp hm
    have hl := hfs.length_eq
    have hs₁ := hfs.get (hl ▸ hj) hj
    obtain ⟨f', hs₂, rfl | he⟩ := hf _ <| List.getElem_mem (hl ▸ hj)
    · exact ih <| same_trans hs₂ hs₁
    · exact he.of_same (same_trans hs₂ hs₁) q hst hd

def AllExplained (start last g : DefinitionGraph) : Prop :=
  ∀ n d, g.get? n = some d → ∀ p ∈ d.properties, Explained start last p

-- A property that a step leaves alone is explained before it if everything is afterwards.
theorem AllExplained.of_ne {name : String} {shape : List Property} {j : Nat}
    (h : AllExplained start last (g.give owner index name shape)) (hd : g.get? n = some d)
    (hq : d.properties[j]? = some q) (hne : ¬(n = owner ∧ j = index)) : Explained start last q := by
  refine h n _ (get?_give_of_some hd) q <| List.mem_of_getElem? (i := j) ?_
  rw [Definition.getElem?_properties_given, name_of_get? hd, if_neg hne, hq]

-- What the property was made of has become a definition. Its fields are those of that definition, up to
-- equality, and one of them may be the property itself.
theorem Gives.explained {name : String} {shape : List Property}
    (hg : g.Gives owner index p shape name) (hx : last.Extends (g.give owner index name shape))
    (h : AllExplained start last (g.give owner index name shape)) : Explained start last p := by
  have hn : ¬last.Dangling p := by
    intro hd
    have := dangling_iff.mp <| hd.of_extends <| hx.trans hg.extends
    simp [hg.made] at this
  refine .of_fields hn fun f hf => ?_
  have hs : shape = p.fields := by
    rcases shape?_cases hg.made with ⟨_, hs⟩ | ⟨hi, _⟩
    · exact hs
    -- Without fields of its own there is nothing to explain.
    · simp_all [isInline]
  subst hs
  by_cases hc : g.contains name
  case neg =>
    have hf := h name _ (hg.get?_fresh hc) f hf
    exact ⟨f, same_refl f, .inr hf⟩
  case pos =>
    obtain ⟨d, hd⟩ := exists_of_contains hc
    have hfs := sameAll_iff.mp <| hg.same hd
    obtain ⟨j, hj, rfl⟩ := List.mem_iff_getElem.mp hf
    have hl := hfs.length_eq
    refine ⟨_, hfs.get (hl ▸ hj) hj, ?_⟩
    by_cases heq : name = owner ∧ j = index
    case neg => exact .inr <| h.of_ne hd (List.getElem?_eq_getElem _) heq
    case pos =>
      obtain ⟨rfl, rfl⟩ := heq
      obtain ⟨o, ho, hp⟩ := hg.found
      cases hd.symm.trans ho
      exact .inl <| Option.some_inj.mp <| (List.getElem?_eq_getElem _).symm.trans hp

-- Going back over a step: if nothing that stands in the definitions after it dangles, nothing that
-- stood in them before it did.
theorem AllExplained.of_step (s : g.Step owner index g' created) (hx : last.Extends g')
    (h : AllExplained start last g') : AllExplained start last g := by
  cases s
  case idle => exact h
  case give p shape name hg =>
    intro n d hd q hq
    obtain ⟨j, hj⟩ := List.mem_iff_getElem?.mp hq
    by_cases heq : n = owner ∧ j = index
    case neg => exact h.of_ne hd hj heq
    case pos =>
      obtain ⟨rfl, rfl⟩ := heq
      obtain ⟨o, ho, hp⟩ := hg.found
      cases hd.symm.trans ho
      cases hj.symm.trans hp
      exact hg.explained hx h

theorem AllExplained.of_steps (s : g.Steps vs g') (hx : last.Extends g')
    (h : AllExplained start last g') : AllExplained start last g := by
  induction s
  case refl => exact h
  case step s₁ s₂ ih => exact AllExplained.of_step s₁ (hx.trans s₂.extends) <| ih hx h

-- The fields of a property are opened at any time or at none: its type is a definition from the start,
-- or is none because it is `object`.
def Steady (start : DefinitionGraph) (p : Property) : Prop :=
  p.fields = [] ∨ p.type.element.name = objectName ∨ start.contains p.type.element.name

instance : DecidablePred start.Steady :=
  fun p => decidable_of_iff (p.fields.isEmpty ∨ p.type.element.name = objectName ∨
    start.contains p.type.element.name) <| by simp [Steady]

-- Nothing dangles in a graph whose properties are all settled.
theorem allExplained_of_settled (hx : last.Extends start)
    (ho : last.contains objectName → start.contains objectName) (hp : last.All start.Steady)
    (hs : ∀ n d, last.get? n = some d → ∀ p ∈ d.properties, last.Settled p) :
    AllExplained start last last := by
  intro n d hd p hm q hq hdang
  have hsettled := hs n d hd p hm
  have hr := resolves_of_settled hsettled
  rcases hq with _ | ⟨hn, ht, hf, _⟩
  case here => simp_all [Dangling, resolves]
  -- The field of a settled property stands beside a reference to a table, which it was from the start.
  case field =>
    rcases hsettled with h | ⟨e, he, h | ⟨_, h⟩⟩
    · exact hn h
    · have hc : start.contains p.type.element.name := by
        rcases (hp n d hd p hm).here hn with h | h | h
        · simp [h] at hf
        · exact h ▸ ho (h ▸ contains_of_get? he)
        · exact h
      exact ht <| hx.needsTable_eq hc ▸ needsTable_of_get? he ▸ h
    · simp [h] at hf

-- Where a property that is not settled comes from: it stands in one of `roots`.
def Originates (start : DefinitionGraph) (roots : Property → Prop) (g : DefinitionGraph) : Prop :=
  ∀ n d, g.get? n = some d → ∀ p ∈ d.properties,
    (p.fields = [] ∧ g.resolves p.type) ∨ ∃ r, roots r ∧ StandsIn start p r

theorem Originates.step {roots : Property → Prop} (h : Originates start roots g) (hw : g.WellNamed)
    (hx : g.Extends start) (s : g.Step owner index g' created) : Originates start roots g' := by
  have hx' := s.extends
  cases s
  case idle => exact h
  case give p shape name hg =>
    have hmono : ∀ n d, g.get? n = some d → ∀ q ∈ d.properties,
        (q.fields = [] ∧ (g.give owner index name shape).resolves q.type) ∨
          ∃ r, roots r ∧ StandsIn start q r :=
      fun n d hd q hq => (h n d hd q hq).imp_left fun hr => ⟨hr.left, hx'.resolves hr.right⟩
    obtain ⟨o, ho, hp⟩ := hg.found
    intro n d' hd' q hq
    rcases get?_give_cases hg.contains_owner hd' with ⟨d, hd, rfl⟩ | ⟨_, rfl, rfl⟩
    · by_cases hn : d.name = owner
      case neg =>
        rw [Definition.properties_given, if_neg hn] at hq
        exact hmono n d hd q hq
      case pos =>
        cases ho.symm.trans <| (hn ▸ name_of_get? hd) ▸ hd
        rcases mem_properties_given hp hq with hq | rfl
        · exact hmono n _ hd q hq
        · exact .inl ⟨rfl, resolves_of_settled <| hg.settled <| hw.plainName hg⟩
    -- The properties of the new definition are fields of the property, or copies from another one.
    · rcases shape?_cases hg.made with ⟨_, rfl⟩ | ⟨_, m, e, he, rfl, _⟩
      · rcases h owner o ho p <| List.mem_of_getElem? hp with ⟨hf, _⟩ | ⟨r, hr, hst⟩
        · simp [Definition.share, Definition.make, hf] at hq
        · refine .inr ⟨r, hr, .trans (.field hg.not_isScalarElement ?_ hq .here) hst⟩
          intro ht
          have := hg.needs
          simp [needsSynthesis, hx.needsTable_eq (contains_of_needsTable ht), ht] at this
      · exact hmono m e he q hq

theorem Originates.steps {roots : Property → Prop} (h : Originates start roots g) (hw : g.WellNamed)
    (hx : g.Extends start) (s : g.Steps vs g') : Originates start roots g' := by
  induction s
  case refl => exact h
  case step s _ ih => exact ih (h.step hw hx s) (hw.step s) (s.extends.trans hx)

-- A run that fails at a dangling property has it from one of the roots.
theorem Originates.exists_of_fails {roots : Property → Prop} (h : Originates start roots g)
    (hw : g.WellNamed) (hx : g.Extends start) (hf : g.Fails vs e g') :
    (∃ n p t, e = .danglingReference n p t) ∧
      ∃ r q, roots r ∧ StandsIn start q r ∧ g'.Dangling q := by
  obtain ⟨us, owner, index, _, s, hc, he⟩ := hf
  obtain ⟨d, p, hd, hp, hdang, rfl⟩ := exists_dangling_of_fails hc he
  refine ⟨⟨_, _, _, rfl⟩, ?_⟩
  rcases h.steps hw hx s owner d hd p hp with ⟨_, hr⟩ | ⟨r, hr, hst⟩
  · simp_all [Dangling, resolves]
  · exact ⟨r, p, hr, hst, hdang⟩

end Classwright.DefinitionGraph
