import Classwright.Proofs.Frame

namespace Classwright

open Schema Swagger DefinitionGraph

-- A definition that is the same as before but for its tag, and whether it is marked as part of its
-- owner's table.
structure Definition.Tagged (tag : Option String) (d' d : Definition) : Prop where
  name        : d'.name = d.name
  properties  : d'.properties = d.properties
  needsTable  : d'.needsTable = d.needsTable
  edges       : d'.edges = d.edges
  sharesTable : d'.sharesTable = d.sharesTable ∨ ¬d.needsTable ∧ d'.sharesTable
  tag         : d'.tag = d.tag.or tag

namespace Definition.Tagged

variable {d d' d'' : Definition} {tag tag' : Option String}

theorem refl (d : Definition) : Tagged none d d where
  name        := rfl
  properties  := rfl
  needsTable  := rfl
  edges       := rfl
  sharesTable := .inl rfl
  tag         := by simp

theorem trans (h₁ : Tagged tag d' d) (h₂ : Tagged tag' d'' d') : Tagged (tag.or tag') d'' d where
  name        := h₂.name.trans h₁.name
  properties  := h₂.properties.trans h₁.properties
  needsTable  := h₂.needsTable.trans h₁.needsTable
  edges       := h₂.edges.trans h₁.edges
  sharesTable := by
    rcases h₂.sharesTable with h | ⟨ht, h⟩
    · exact h ▸ h₁.sharesTable
    · exact .inr ⟨h₁.needsTable ▸ ht, h⟩
  tag := by rw [h₂.tag, h₁.tag, Option.or_assoc]

-- Synthesis for another definition marks at most.
theorem given {owner : String} (index : Nat) (name : String) (ho : d.name ≠ owner)
    (hd : ¬(d.needsTable ∧ d.sharesTable)) : Tagged none (d.given owner index name) d where
  name        := by simp
  properties  := by rw [properties_given, if_neg ho]
  needsTable  := by simp
  edges       := by simp
  sharesTable := by
    rw [sharesTable_given]
    split
    case isFalse => exact .inl rfl
    case isTrue  => cases ht : d.needsTable <;> simp_all
  tag := by simp

end Definition.Tagged

namespace DefinitionGraph

variable {g g' g'' base : DefinitionGraph} {tags tags' : String → Option String}

def Tagged (tags : String → Option String) (g' g : DefinitionGraph) : Prop :=
  ∀ n d, g.get? n = some d → ∃ d', g'.get? n = some d' ∧ d'.Tagged (tags n) d

namespace Tagged

theorem refl (g : DefinitionGraph) : Tagged (fun _ => none) g g :=
  fun _ d hd => ⟨d, hd, .refl d⟩

theorem trans (h₁ : Tagged tags g' g) (h₂ : Tagged tags' g'' g') :
    Tagged (fun n => (tags n).or (tags' n)) g'' g := by
  intro n d hd
  obtain ⟨d', hd', ht⟩ := h₁ n d hd
  obtain ⟨d'', hd'', ht'⟩ := h₂ n d' hd'
  exact ⟨d'', hd'', ht.trans ht'⟩

-- A marked definition has no table, and so none that is marked again.
theorem wellMarked (h : Tagged tags g' g) (hg : g.WellMarked) {n : String} {d d' : Definition}
    (hd : g.get? n = some d) (hd' : g'.get? n = some d') : ¬(d'.needsTable ∧ d'.sharesTable) := by
  obtain ⟨e, he, ht⟩ := h n d hd
  cases hd'.symm.trans he
  rw [ht.needsTable]
  rcases ht.sharesTable with hs | ⟨hn, _⟩
  · exact hs ▸ hg n d hd
  · exact fun h => hn h.left

theorem step {owner : String} {index : Nat} {created : Option String}
    (s : g.Step owner index g' created) (ho : ¬base.contains owner) (hw : base.WellMarked)
    (h : Tagged tags g base) : Tagged tags g' base := by
  cases s
  case idle => exact h
  case give p shape name hg =>
    intro n d hd
    obtain ⟨d', hd', ht⟩ := h n d hd
    have hn : d'.name ≠ owner := fun he => ho <| he ▸ name_of_get? hd' ▸ contains_of_get? hd
    have := ht.trans <| .given index name hn <| h.wellMarked hw hd hd'
    exact ⟨_, get?_give_of_some hd', by simpa using this⟩

theorem steps {vs : List Visit} (s : g.Steps vs g') (ho : ∀ v ∈ vs, ¬base.contains v.owner)
    (hw : base.WellMarked) (h : Tagged tags g base) : Tagged tags g' base :=
  s.preserves_of (P := (Tagged tags · base)) (V := (¬base.contains ·.owner))
    (fun s ho => step s ho hw) ho h

-- Definitions that are tagged where they stood.
theorem getElem? {created : List String} (h : Tagged tags g' g)
    (hn : g'.names = g.names ++ created) {i : Nat} {d : Definition}
    (hd : g.definitions[i]? = some d) :
    ∃ d', g'.definitions[i]? = some d' ∧ d'.Tagged (tags d.name) d := by
  obtain ⟨d', hd', ht⟩ := h d.name d <| get?_of_mem <| List.mem_of_getElem? hd
  have hi : g.names[i]? = some d.name := by simp [names, hd]
  have hi : g'.names[i]? = some d.name := by
    rw [hn, List.getElem?_append_left <| (List.getElem?_eq_some_iff.mp hi).choose, hi]
  obtain ⟨e, he, hen⟩ := by simpa [names] using hi
  have := hen ▸ get?_of_mem (List.mem_of_getElem? he)
  cases hd'.symm.trans this
  exact ⟨d', he, ht⟩

end Tagged

end DefinitionGraph

namespace Endpoint

-- A slot names a definition if it refers to it, be it by the type of its items.
def Slot.Names (s : Slot) (n : String) : Prop :=
  ¬s.isInline ∧ ¬s.type.isScalarElement ∧ s.type.element.name = n

instance {s : Slot} : DecidablePred s.Names :=
  fun _ => inferInstanceAs (Decidable (_ ∧ _ ∧ _))

-- The tag that slots of an operation have for a definition.
def slotsTag (tag : Option String) (slots : List Slot) (n : String) : Option String :=
  if ∃ s ∈ slots, s.Names n then tag else none

-- The first tag of all operations that name a definition in one of their slots.
def firstTag (operations : List Operation) (n : String) : Option String :=
  (operations.filter fun o => ∃ s ∈ slotsOf o, s.Names n).findSome? (·.tag)

variable {g g' : DefinitionGraph} {o : Named} {s : Slot} {type : TypeRef} {fields : List Property}
  {created : List String} {name slot synthesized : String} {tag : Option String}

theorem slotsTag_append (tag : Option String) (ss ts : List Slot) :
    slotsTag tag (ss ++ ts) = fun n => (slotsTag tag ss n).or (slotsTag tag ts n) := by
  funext n
  simp only [slotsTag, List.mem_append, or_and_right, exists_or]
  by_cases hs : ∃ s ∈ ss, s.Names n <;> by_cases ht : ∃ s ∈ ts, s.Names n <;> simp [hs, ht]

theorem firstTag_cons (o : Operation) (os : List Operation) :
    firstTag (o :: os) = fun n => (slotsTag o.tag (slotsOf o) n).or (firstTag os n) := by
  funext n
  rw [firstTag, List.filter_cons, slotsTag]
  by_cases h : ∃ s ∈ slotsOf o, s.Names n
  case pos => cases ht : o.tag <;> simp [h, ht, firstTag]
  case neg => simp [h, firstTag]

theorem addDefinition_tagged (h : addDefinition name fields tag g = .ok created g') :
    Tagged (fun _ => none) g' g := by
  rw [addDefinition_apply] at h
  split at h <;> cases h
  case isTrue     => exact .refl g
  case isFalse hc =>
    intro n d hd
    have hn : n ≠ name := fun he => hc <| he ▸ contains_of_get? hd
    exact ⟨d, by simpa [get?_insert, Definition.make, hn] using hd, .refl d⟩

theorem tagDefinition_tagged (g : DefinitionGraph) (name : String) (tag : Option String) :
    Tagged (fun n => if n = name then tag else none)
      (g.modify name fun d => { d with tag := d.tag.or tag }) g := by
  intro n d hd
  rw [get?_modify (f := fun d => { d with tag := d.tag.or tag }) fun _ => rfl, hd]
  split
  case isTrue hn  => exact ⟨_, rfl, ⟨rfl, rfl, rfl, rfl, .inl rfl, by simp [hn]⟩⟩
  case isFalse hn => exact ⟨d, rfl, by simpa [hn] using .refl d⟩

theorem resolveType_tagged
    (h : resolveType o slot synthesized s.type s.fields g = .ok (type, created) g') :
    Tagged (slotsTag o.operation.tag [s]) g' g := by
  by_cases hi : s.isInline
  case pos =>
    rw [resolveType_of_isInline hi] at h
    obtain ⟨names, g₁, h₁, h⟩ := GraphM.bind_eq_ok_iff.mp h
    obtain ⟨-, rfl⟩ := GraphM.pure_eq_ok_iff.mp h
    have ht : slotsTag o.operation.tag [s] = fun _ => none := by
      funext n
      simp [slotsTag, Slot.Names, hi]
    exact ht ▸ addDefinition_tagged h₁
  case neg =>
    rw [resolveType_apply hi] at h
    split at h
    case isTrue hs =>
      cases h
      have ht : slotsTag o.operation.tag [s] = fun _ => none := by
        funext n
        simp [slotsTag, Slot.Names, hs]
      exact ht ▸ .refl g
    case isFalse hs =>
      split at h <;> cases h
      have ht : slotsTag o.operation.tag [s] =
          fun n => if n = s.type.element.name then o.operation.tag else none := by
        funext n
        simp [slotsTag, Slot.Names, hi, hs, eq_comm (a := n)]
      exact ht ▸ tagDefinition_tagged g s.type.element.name o.operation.tag

theorem urlPropertyOf_tagged {p : Option Property} (h : urlPropertyOf o g = .ok (p, created) g') :
    Tagged (fun _ => none) g' g := by
  match hu : urlParametersOf o.operation with
  | [] | [_] =>
    simp only [urlPropertyOf, hu] at h
    obtain ⟨-, rfl⟩ := GraphM.pure_eq_ok_iff.mp h
    exact .refl g
  | _ :: _ :: _ =>
    simp only [urlPropertyOf, hu] at h
    obtain ⟨names, g₁, h₁, h⟩ := GraphM.bind_eq_ok_iff.mp h
    obtain ⟨-, rfl⟩ := GraphM.pure_eq_ok_iff.mp h
    exact addDefinition_tagged h₁

theorem slotsTag_nil : slotsTag tag [] = fun _ => none := by
  funext n
  simp [slotsTag]

theorem Fills.tagged {slot : String} {slot? : Option Slot} {type? : Option TypeRef}
    (h : Fills o slot g slot? type? created g') :
    Tagged (slotsTag o.operation.tag slot?.toList) g' g := by
  cases h
  case none   => exact slotsTag_nil ▸ .refl g
  case some h => exact resolveType_tagged h

theorem ofOperation_tagged {endpoint : Endpoint}
    (h : ofOperation o g = .ok (endpoint, created) g') :
    Tagged (slotsTag o.operation.tag (slotsOf o.operation)) g' g := by
  obtain ⟨_, g₁, h₁, h⟩ := GraphM.bind_eq_ok_iff.mp h
  obtain ⟨_, g₂, h₂, h⟩ := GraphM.bind_eq_ok_iff.mp h
  obtain ⟨_, g₃, h₃, h⟩ := GraphM.bind_eq_ok_iff.mp h
  obtain ⟨_, g₄, h₄, h⟩ := GraphM.bind_eq_ok_iff.mp h
  obtain ⟨-, rfl⟩ := GraphM.pure_eq_ok_iff.mp h
  have ht := (urlPropertyOf_tagged h₁).trans <| ((fills_of_bodyOf h₂).tagged.trans
    (fills_of_responseOf h₃).tagged).trans (fills_of_responseOf h₄).tagged
  simpa [slotsOf, slotsTag_append, Option.or_assoc] using ht

variable {os : List Named} {endpoints : List Endpoint}

theorem ofNamed_tagged (h : ofNamed os g = .ok (endpoints, created) g') :
    Tagged (firstTag (os.map (·.operation))) g' g := by
  induction os generalizing g endpoints created
  case nil =>
    obtain ⟨-, rfl⟩ := GraphM.pure_eq_ok_iff.mp h
    exact .refl g
  case cons o os ih =>
    obtain ⟨⟨endpoint, names₁⟩, g₁, h₁, h⟩ := GraphM.bind_eq_ok_iff.mp h
    obtain ⟨⟨more, names₂⟩, g₂, h₂, h⟩ := GraphM.bind_eq_ok_iff.mp h
    obtain ⟨-, rfl⟩ := GraphM.pure_eq_ok_iff.mp h
    rw [List.map_cons, firstTag_cons]
    exact (ofOperation_tagged h₁).trans <| ih h₂

end Endpoint

variable {passes passes' : Nat} {schemas : List ObjectSchema} {operations : List Operation}
  {g g' : DefinitionGraph} {created : List String} {endpoints : List Endpoint}

open Endpoint in
-- Every definition that synthesis has left stays where it is, and is tagged by the first operation
-- with a tag that names it.
theorem tagged_of_settle_of_ofOperations
    (h₁ : GraphM.settle passes (ofSchemas schemas).names (ofSchemas schemas) = .ok created g)
    (h₂ : ofOperations passes' operations g = .ok endpoints g') :
    ∀ (i : Nat) d, g.definitions[i]? = some d →
      ∃ d', g'.definitions[i]? = some d' ∧ d'.Tagged (firstTag operations d.name) d := by
  obtain ⟨names, g₁, more, hn, hm⟩ := ofOperations_eq_ok h₂
  have hw : g.WellMarked :=
    (GraphM.settle_ok h₁).left.preserves (fun s h => s.wellMarked h) wellMarked_ofSchemas
  have hg := (ofNamed_eq_ok plainName_of_mem_nameAll hn).grown
  obtain ⟨s, hs, _⟩ := GraphM.settle_ok hm
  have ht : Tagged (firstTag operations) g₁ g := by
    simpa [map_operation_nameAll] using ofNamed_tagged hn
  -- The run that follows the endpoints visits only what they have added.
  have ho : ∀ v ∈ GraphM.settleVisits passes' names g₁, ¬g.contains v.owner := fun v hv =>
    (GraphM.owner_of_mem_settleVisits hv).elim (not_contains_of_names_eq hg.names)
      (mt hg.extends.contains)
  intro i d hd
  have hnames : g'.names = g.names ++ (names ++ more) := by rw [hs, hg.names, List.append_assoc]
  exact (ht.steps s ho hw).getElem? hnames hd

-- Pets are listed without a tag, then added with one, and returned with another one at last, beside
-- a place that so becomes part of an owner's table.
def taggingOperations : List Operation :=
  let pet := TypeRef.ofName "Pet"
  let stay := [.ofType "pet" pet true, .ofType "place" (.ofName "Place") true]
  [⟨"/pets", .get, none, [], [⟨200, some <| .make arrayName (some pet) false, []⟩]⟩,
    ⟨"/pets", .post, some "pets", [⟨"pet", .body, true, pet, []⟩],
      [⟨201, some <| .ofName objectName, stay⟩]⟩,
    ⟨"/pets/{id}", .get, some "search", [⟨"id", .path, true, .ofName "string", []⟩],
      [⟨200, some pet, []⟩]⟩]

theorem tagged_pets : ∃ created g endpoints g',
    GraphM.settle 3 (ofSchemas petSchemas).names (ofSchemas petSchemas) = .ok created g ∧
      Endpoint.ofOperations 3 taggingOperations g = .ok endpoints g' ∧
      (∃ pet', g'.definitions[0]? = some pet' ∧ pet'.name = "Pet" ∧ pet'.tag = some "pets") ∧
      ∃ place place', g.definitions[1]? = some place ∧ g'.definitions[1]? = some place' ∧
        place'.properties = place.properties ∧ place'.tag = none ∧
        ¬place.sharesTable ∧ place'.sharesTable := by
  obtain ⟨created, g, endpoints, g', pet, place, place', h₁, h₂, hpet, hplace, hplace', hp, hq, hs⟩ :
      ∃ created g endpoints g' pet place place',
        GraphM.settle 3 (ofSchemas petSchemas).names (ofSchemas petSchemas) = .ok created g ∧
          Endpoint.ofOperations 3 taggingOperations g = .ok endpoints g' ∧
          g.definitions[0]? = some pet ∧ g.definitions[1]? = some place ∧
          g'.definitions[1]? = some place' ∧ (pet.name = "Pet" ∧ pet.tag = none) ∧
          (place.name = "Place" ∧ place.tag = none) ∧ ¬place.sharesTable ∧ place'.sharesTable :=
    ⟨_, _, _, _, _, _, _, rfl, rfl, rfl, rfl, rfl, ⟨rfl, rfl⟩, ⟨rfl, rfl⟩, by decide, by decide⟩
  have htag : Endpoint.firstTag taggingOperations "Pet" = some "pets" := by decide
  have hnone : Endpoint.firstTag taggingOperations "Place" = none := by decide
  have hall := tagged_of_settle_of_ofOperations h₁ h₂
  obtain ⟨pet', hpet', ht⟩ := hall 0 pet hpet
  obtain ⟨e, he, ht'⟩ := hall 1 place hplace
  cases hplace'.symm.trans he
  refine ⟨created, g, endpoints, g', h₁, h₂, ⟨pet', hpet', ht.name.trans hp.left, ?_⟩,
    place, place', hplace, hplace', ht'.properties, ?_, hs⟩
  · rw [ht.tag, hp.left, hp.right, htag, Option.none_or]
  · rw [ht'.tag, hq.left, hq.right, hnone, Option.none_or]

end Classwright
