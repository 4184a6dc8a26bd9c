import Classwright.Proofs.Graph.Candidate
import Classwright.Proofs.Schema.Property

namespace Classwright

open Schema Property DefinitionGraph

namespace Definition

-- A definition after the property `index` of `owner` was given the type `name`.
def given (d : Definition) (owner : String) (index : Nat) (name : String) : Definition :=
  let shared := if d.name = name then d.share else d
  if d.name = owner then shared.setProperty index (retarget name) else shared

variable {d : Definition} {owner name : String} {index : Nat}

@[simp] theorem name_share (d : Definition) : d.share.name = d.name := rfl
@[simp] theorem tag_share : d.share.tag = d.tag := rfl
@[simp] theorem edges_share : d.share.edges = d.edges := rfl
@[simp] theorem properties_share : d.share.properties = d.properties := rfl
@[simp] theorem needsTable_share : d.share.needsTable = d.needsTable := rfl
@[simp] theorem sharesTable_share : d.share.sharesTable = !d.needsTable := rfl

theorem needsTable_make (name : String) {ps : List Property} :
    (make name ps).needsTable ↔ idName ∈ ps.map (·.name) := by
  simp [make]

@[simp] theorem name_setProperty (index : Nat) (f : Property → Property) (d : Definition) :
    (d.setProperty index f).name = d.name :=
  rfl

@[simp] theorem name_given : (d.given owner index name).name = d.name := by
  simp only [given]; split <;> split <;> rfl

@[simp] theorem tag_given : (d.given owner index name).tag = d.tag := by
  simp only [given]; split <;> split <;> rfl

@[simp] theorem edges_given : (d.given owner index name).edges = d.edges := by
  simp only [given]; split <;> split <;> rfl

theorem properties_given : (d.given owner index name).properties =
    if d.name = owner then d.properties.modify index (retarget name) else d.properties := by
  simp only [given]; split <;> split <;> rfl

theorem getElem?_properties_given (d : Definition) (owner : String) (index : Nat) (name : String)
    (j : Nat) : (d.given owner index name).properties[j]? =
    if d.name = owner ∧ j = index then d.properties[j]?.map (retarget name)
    else d.properties[j]? := by
  rw [properties_given]
  split <;> simp_all [List.getElem?_modify]
  grind

theorem sharesTable_given : (d.given owner index name).sharesTable =
    if d.name = name then !d.needsTable else d.sharesTable := by
  simp only [given]; split <;> split <;> simp [setProperty]

@[simp] theorem map_name_given :
    (d.given owner index name).properties.map (·.name) = d.properties.map (·.name) := by
  rw [properties_given]
  split
  case isFalse => rfl
  case isTrue =>
    apply List.ext_getElem? fun j => ?_
    simp [List.getElem?_modify]
    grind [name_retarget]

@[simp] theorem needsTable_given : (d.given owner index name).needsTable = d.needsTable := by
  simp only [given]; split <;> split <;> rfl

end Definition

namespace DefinitionGraph

variable {g g' : DefinitionGraph} {d d' e : Definition} {p : Property} {shape : List Property}
  {owner name n : String} {index j : Nat} {created : Option String}

-- The graph after the property `index` of `owner` was given the type `name`.
def give (g : DefinitionGraph) (owner : String) (index : Nat) (name : String)
    (shape : List Property) : DefinitionGraph :=
  (g.provide name shape).modify owner (·.setProperty index (retarget name))

theorem sharedProperties?_eq_some_iff :
    g.sharedProperties? n = some shape ↔
      ∃ d, g.get? n = some d ∧ ¬d.needsTable ∧ d.properties = shape := by
  cases hd : g.get? n <;> simp [sharedProperties?, hd, Option.filter]

-- A property is made of its own fields, or of what a definition has that is in the graph.
theorem shape?_cases (h : g.shape? p = some shape) :
    p.isInline ∧ shape = p.fields ∨
      ¬p.isInline ∧ ∃ n d, g.get? n = some d ∧ d.properties = shape ∧
        (n = Naming.capitalize p.name ∧ ¬d.needsTable ∨
          n = p.type.element.name ∧ g.sharedProperties? (Naming.capitalize p.name) = none) := by
  simp only [shape?] at h
  split at h
  case isTrue hi => exact .inl ⟨hi, by simpa using h.symm⟩
  case isFalse hi =>
    refine .inr ⟨hi, ?_⟩
    cases hs : g.sharedProperties? (Naming.capitalize p.name)
    case some ps =>
      obtain ⟨d, hd, ht, rfl⟩ := sharedProperties?_eq_some_iff.mp hs
      exact ⟨_, d, hd, by simpa [hs] using h, .inl ⟨rfl, ht⟩⟩
    case none =>
      obtain ⟨d, hd, rfl⟩ := Option.map_eq_some_iff.mp <| by simpa [hs] using h
      exact ⟨_, d, hd, rfl, .inr ⟨rfl, rfl⟩⟩

-- What a step settles on, if it does not leave the property alone.
structure Gives (g : DefinitionGraph) (owner : String) (index : Nat) (p : Property)
    (shape : List Property) (name : String) : Prop where
  found : ∃ d, g.get? owner = some d ∧ d.properties[index]? = some p
  needs : g.needsSynthesis p
  made  : g.shape? p = some shape
  named : name = g.nameFor owner (Naming.capitalize p.name) shape

inductive Step (g : DefinitionGraph) (owner : String) (index : Nat) :
    DefinitionGraph → Option String → Prop
  | idle : (∃ d, g.get? owner = some d ∧
      ∀ p, d.properties[index]? = some p → ¬g.needsSynthesis p) → Step g owner index g none
  | give (p : Property) (shape : List Property) (name : String) :
      g.Gives owner index p shape name → Step g owner index (g.give owner index name shape)
        (if g.contains name then none else some name)

theorem synthesizeProperty_eq_ok_iff :
    g.synthesizeProperty owner index = .ok (g', created) ↔ g.Step owner index g' created where
  mp h := by
    simp only [synthesizeProperty, bind, Except.bind] at h
    split at h <;> try contradiction
    case h_2 d hd =>
    have hd := require_eq_ok_iff.mp hd
    split at h
    case h_1 hp => cases h; exact .idle ⟨d, hd, by simp [hp]⟩
    case h_2 p hp =>
      split at h
      case isTrue hn => cases h; exact .idle ⟨d, hd, by simpa [hp] using hn⟩
      case isFalse hn =>
        split at h <;> try contradiction
        case h_2 shape hs => cases h; exact .give _ _ _ ⟨⟨d, hd, hp⟩, by simpa using hn, hs, rfl⟩
  mpr h := by
    cases h
    case idle h =>
      obtain ⟨d, hd, hn⟩ := h
      simp only [synthesizeProperty, require_eq_ok_iff.mpr hd, bind, Except.bind]
      split
      case h_1       => rfl
      case h_2 p hp  => simp [hn p hp]; rfl
    case give p shape hg =>
      obtain ⟨⟨d, hd, hp⟩, hn, hs, rfl⟩ := hg
      simp [synthesizeProperty, require_eq_ok_iff.mpr hd, bind, Except.bind, hp, hn, hs]
      rfl

-- A step fails if its owner is missing, or nothing tells what its property is made of.
theorem synthesizeProperty_eq_error_iff {x : Error} :
    g.synthesizeProperty owner index = .error x ↔
      (g.get? owner = none ∧ x = .unknownDefinition owner) ∨
        ∃ d p, g.get? owner = some d ∧ d.properties[index]? = some p ∧ g.needsSynthesis p ∧
          g.shape? p = none ∧ x = .danglingReference owner p.name p.type.element.name := by
  cases hd : g.get? owner
  case none =>
    have hr := require_eq_error_iff (x := .unknownDefinition owner) |>.mpr ⟨hd, rfl⟩
    rw [synthesizeProperty, hr]
    simp [bind, Except.bind, @eq_comm _ x]
  case some d =>
    rw [synthesizeProperty, require_eq_ok_iff.mpr hd]
    cases hp : d.properties[index]?
    case none => simp [bind, Except.bind, hp, pure, Except.pure]
    case some p =>
      cases hn : g.needsSynthesis p <;> cases hs : g.shape? p <;>
        simp [bind, Except.bind, hp, hn, hs, pure, Except.pure, throw, throwThe,
          MonadExceptOf.throw, @eq_comm _ x]

namespace Gives

theorem contains_owner (h : g.Gives owner index p shape name) : g.contains owner :=
  have ⟨_, hd, _⟩ := h.found
  contains_of_get? hd

theorem exists_candidate (h : g.Gives owner index p shape name) :
    ∃ k, name = candidate owner (Naming.capitalize p.name) k ∧
      ∀ j < k, ¬g.accepts shape (candidate owner (Naming.capitalize p.name) j) := by
  obtain ⟨k, hk, _, hj⟩ := nameFor_eq_candidate g owner (Naming.capitalize p.name) shape
  exact ⟨k, h.named.trans hk, hj⟩

-- A definition that is used again has just the shape that is needed.
theorem same (h : g.Gives owner index p shape name) (he : g.get? name = some e) :
    sameAll e.properties shape := by
  have := h.named ▸ g.accepts_nameFor owner _ shape
  simpa [accepts, he] using this

theorem ne_owner (h : g.Gives owner index p shape name) (hn : ¬g.contains name) : name ≠ owner :=
  fun he => hn <| he ▸ h.contains_owner

theorem not_isBuiltIn_of_ne_owner (h : g.Gives owner index p shape name) (ho : name ≠ owner) :
    ¬IsBuiltIn name := by
  obtain ⟨k, rfl, _⟩ := h.exists_candidate
  exact not_isBuiltIn_candidate ho

theorem not_isBuiltIn (h : g.Gives owner index p shape name) (hn : ¬g.contains name) :
    ¬IsBuiltIn name :=
  h.not_isBuiltIn_of_ne_owner <| h.ne_owner hn

end Gives

theorem get?_provide_of_some (hd : g.get? n = some d) :
    (g.provide name shape).get? n = some (if d.name = name then d.share else d) := by
  have hn := name_of_get? hd
  simp only [provide]
  split
  case isTrue =>
    rw [get?_modify Definition.name_share, hd]
    by_cases h : n = name <;> simp [h, hn]
  case isFalse hc =>
    have hne : n ≠ name := fun he => hc <| he ▸ contains_of_get? hd
    rw [get?_insert]
    simp [Definition.make, hne, hd, hn]

theorem get?_provide_fresh (hn : ¬g.contains name) :
    (g.provide name shape).get? n =
      if n = name then some (Definition.make name shape).share else g.get? n := by
  simp only [provide, hn, Bool.false_eq_true, if_false]
  exact get?_insert

theorem get?_give_of_some (hd : g.get? n = some d) :
    (g.give owner index name shape).get? n = some (d.given owner index name) := by
  have hn := name_of_get? hd
  rw [give, get?_modify fun d => d.name_setProperty _ _, get?_provide_of_some hd]
  by_cases h : n = owner <;> simp [Definition.given, hn, h]

theorem get?_give_fresh (hn : ¬g.contains name) (ho : name ≠ owner) :
    (g.give owner index name shape).get? name = some (Definition.make name shape).share := by
  rw [give, get?_modify fun d => d.name_setProperty _ _, get?_provide_fresh hn]
  simp [ho]

theorem names_give : (g.give owner index name shape).names =
    g.names ++ (if g.contains name then none else some name).toList := by
  rw [give, names_modify, provide]
  split
  case isTrue  => simp
  case isFalse => simp_all [names_insert_fresh, Definition.make]

theorem contains_give : (g.give owner index name shape).contains name := by
  rw [contains_iff, names_give]
  split
  case isTrue hc => exact List.mem_append_left _ <| contains_iff.mp hc
  case isFalse   => simp

theorem Gives.get?_fresh (h : g.Gives owner index p shape name) (hn : ¬g.contains name) :
    (g.give owner index name shape).get? name = some (Definition.make name shape).share :=
  get?_give_fresh hn <| h.ne_owner hn

-- A definition after a step was there before, or is the one that was created.
theorem get?_give_cases (ho : g.contains owner)
    (h : (g.give owner index name shape).get? n = some d') :
    (∃ d, g.get? n = some d ∧ d' = d.given owner index name) ∨
      ¬g.contains name ∧ n = name ∧ d' = (Definition.make name shape).share := by
  cases hd : g.get? n
  case some d => exact .inl ⟨d, rfl, by simpa [get?_give_of_some hd] using h.symm⟩
  case none =>
    have hn : n = name ∧ ¬g.contains name := by
      by_contra hc
      have hm : n ∉ (g.give owner index name shape).names := by
        rw [names_give]
        have := get?_eq_none_iff.mp hd
        grind
      exact hm <| mem_names_of_get? h
    obtain ⟨rfl, hc⟩ := hn
    have hne : n ≠ owner := fun he => hc <| he ▸ ho
    rw [get?_give_fresh hc hne] at h
    exact .inr ⟨hc, rfl, by simpa using h.symm⟩

namespace Step

theorem names_eq (s : g.Step owner index g' created) : g'.names = g.names ++ created.toList := by
  cases s
  case idle => simp
  case give => exact names_give

theorem not_contains_created (s : g.Step owner index g' created) (hn : n ∈ created) :
    ¬g.contains n := by
  cases s
  case idle => contradiction
  case give =>
    split at hn
    case isTrue     => contradiction
    case isFalse hc => exact Option.some_inj.mp hn ▸ hc

end Step

-- A graph extends another one if it has all of its definitions, with the names of their properties,
-- with a table or without, and with what is marked as part of an owner's table.
def Extends (g' g : DefinitionGraph) : Prop :=
  ∀ n d, g.get? n = some d → ∃ d', g'.get? n = some d' ∧
    d'.properties.map (·.name) = d.properties.map (·.name) ∧ d'.needsTable = d.needsTable ∧
    (d.needsTable ∨ d.sharesTable → d'.needsTable ∨ d'.sharesTable)

namespace Extends

theorem refl (g : DefinitionGraph) : g.Extends g :=
  fun _ d hd => ⟨d, hd, rfl, rfl, id⟩

theorem trans {g₁ g₂ g₃ : DefinitionGraph} (h₁ : g₁.Extends g₂) (h₂ : g₂.Extends g₃) :
    g₁.Extends g₃ := by
  intro n d hd
  obtain ⟨d₂, hd₂, hn₂, ht₂, hs₂⟩ := h₂ n d hd
  obtain ⟨d₁, hd₁, hn₁, ht₁, hs₁⟩ := h₁ n d₂ hd₂
  exact ⟨d₁, hd₁, hn₁.trans hn₂, ht₁.trans ht₂, hs₁ ∘ hs₂⟩

theorem contains (h : g'.Extends g) (hc : g.contains n) : g'.contains n :=
  have ⟨d, hd⟩ := exists_of_contains hc
  have ⟨_, hd', _⟩ := h n d hd
  contains_of_get? hd'

theorem needsTable_eq (h : g'.Extends g) (hc : g.contains n) : g'.needsTable n = g.needsTable n := by
  obtain ⟨d, hd⟩ := exists_of_contains hc
  obtain ⟨d', hd', _, ht, _⟩ := h n d hd
  rw [needsTable_of_get? hd, needsTable_of_get? hd', ht]

theorem length_eq (h : g'.Extends g) (hd : g.get? n = some d) (hd' : g'.get? n = some d') :
    d'.properties.length = d.properties.length := by
  obtain ⟨e, he, hn, _⟩ := h n d hd
  cases hd'.symm.trans he
  simpa using congrArg List.length hn

end Extends

theorem Step.extends (s : g.Step owner index g' created) : g'.Extends g := by
  intro n d hd
  cases s
  case idle => exact ⟨d, hd, rfl, rfl, id⟩
  case give p shape name h =>
    refine ⟨d.given owner index name, get?_give_of_some hd, by simp, by simp, ?_⟩
    rw [Definition.needsTable_given, Definition.sharesTable_given]
    split <;> simp

theorem Gives.extends (h : g.Gives owner index p shape name) :
    (g.give owner index name shape).Extends g :=
  Step.give p shape name h |>.extends

end DefinitionGraph
end Classwright
