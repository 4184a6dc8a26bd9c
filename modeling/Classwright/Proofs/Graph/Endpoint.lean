import Classwright.Proofs.Graph.EndpointName
import Classwright.Proofs.Graph.Invariant

namespace Classwright

open Schema Swagger DefinitionGraph

namespace DefinitionGraph

variable {g g' g'' : DefinitionGraph} {adds more : List (String × List Property)}
  {created created' : List String} {P Q : Property → Prop} {n : String} {t : TypeRef}

-- What a graph has gained when definitions were added to it, unless their names were taken.
structure Grown (g : DefinitionGraph) (adds : List (String × List Property))
    (created : List String) (g' : DefinitionGraph) : Prop where
  names : g'.names = g.names ++ created
  kept  : ∀ n d, g.get? n = some d → ∃ tag, g'.get? n = some { d with tag := tag }
  made  : ∀ n ∈ created, ∃ fields tag, adds.lookup n = some fields ∧
    g'.get? n = some { Definition.make n fields with tag := tag }
  there : ∀ a ∈ adds, g'.contains a.fst

namespace Grown

theorem refl (g : DefinitionGraph) : g.Grown [] [] g where
  names := by simp
  kept  := fun _ d hd => ⟨d.tag, hd⟩
  made  := nofun
  there := nofun

theorem «extends» (h : g.Grown adds created g') : g'.Extends g := by
  intro n d hd
  obtain ⟨tag, hd'⟩ := h.kept n d hd
  exact ⟨_, hd', rfl, rfl, id⟩

theorem retains (h : g.Grown adds created g') : g'.Retains g := by
  intro n d hd
  obtain ⟨tag, hd'⟩ := h.kept n d hd
  exact ⟨_, hd', rfl, rfl⟩

theorem trans (h₁ : g.Grown adds created g') (h₂ : g'.Grown more created' g'') :
    g.Grown (adds ++ more) (created ++ created') g'' where
  names := by simp [h₂.names, h₁.names]
  kept n d hd := by
    obtain ⟨_, hd'⟩ := h₁.kept n d hd
    simpa using h₂.kept n _ hd'
  made n hn := by
    rw [List.lookup_append]
    cases List.mem_append.mp hn
    case inl hn =>
      obtain ⟨fields, _, hl, hd⟩ := h₁.made n hn
      obtain ⟨tag, hd'⟩ := h₂.kept n _ hd
      exact ⟨fields, tag, by simp [hl], hd'⟩
    case inr hn =>
      obtain ⟨fields, tag, hl, hd⟩ := h₂.made n hn
      -- The name is new in the second graph, so the first additions do not have it.
      have hm := not_contains_of_names_eq h₂.names hn
      have ha : adds.lookup n = none := by
        refine List.lookup_eq_none_iff.mpr fun a ha => ?_
        have := fun he : n = a.fst => hm <| he ▸ h₁.there a ha
        simpa using this
      exact ⟨fields, tag, by simp [ha, hl], hd⟩
  there a ha := by
    cases List.mem_append.mp ha
    case inl ha => exact h₂.extends.contains <| h₁.there a ha
    case inr ha => exact h₂.there a ha

-- A definition was there before, but for its tag, or was added.
theorem get?_cases {d' : Definition} (h : g.Grown adds created g') (hd' : g'.get? n = some d') :
    (∃ d tag, g.get? n = some d ∧ d' = { d with tag := tag }) ∨
      ¬g.contains n ∧ ∃ fields tag, (n, fields) ∈ adds ∧
        d' = { Definition.make n fields with tag := tag } := by
  cases hd : g.get? n
  case some d =>
    obtain ⟨tag, he⟩ := h.kept n d hd
    exact .inl ⟨d, tag, rfl, Option.some_inj.mp <| hd'.symm.trans he⟩
  case none =>
    have hc : ¬g.contains n := by simp [contains, hd]
    have hn : n ∈ created := by
      have := h.names ▸ mem_names_of_get? hd'
      exact (List.mem_append.mp this).resolve_left <| mt contains_iff.mpr hc
    obtain ⟨fields, tag, hl, he⟩ := h.made n hn
    exact .inr ⟨hc, fields, tag, Text.mem_of_lookup hl, Option.some_inj.mp <| hd'.symm.trans he⟩

theorem all (h : g.Grown adds created g') (hg : g.All P) (hPQ : ∀ p, P p → Q p)
    (ha : ∀ a ∈ adds, ∀ p ∈ a.snd, Property.Deep Q p) : g'.All Q := by
  intro n d' hd' p hp
  rcases h.get?_cases hd' with ⟨d, _, hd, rfl⟩ | ⟨_, fields, _, hm, rfl⟩
  · exact (hg n d hd p hp).mono hPQ
  · exact ha _ hm p hp

theorem tabled (h : g.Grown adds created g') (hg : g.Tabled) : g'.Tabled := by
  intro n d' hd'
  rcases h.get?_cases hd' with ⟨d, _, hd, rfl⟩ | ⟨_, fields, _, _, rfl⟩
  · exact hg n d hd
  · exact Definition.needsTable_make n

theorem wellNamed (h : g.Grown adds created g') (hg : g.WellNamed)
    (ha : ∀ a ∈ adds, PlainName a.fst ∧ ∀ p ∈ a.snd, Property.Deep (fun p => PlainName p.name) p) :
    g'.WellNamed where
  properties := h.all hg.properties (fun _ => id) fun a hm => (ha a hm).right
  definitions n hn := by
    cases List.mem_append.mp <| h.names ▸ hn
    case inl hn => exact hg.definitions n hn
    case inr hn =>
      obtain ⟨_, _, hl, _⟩ := h.made n hn
      exact (ha _ <| Text.mem_of_lookup hl).left

-- No definition is added under the name of a built-in type unless it is asked for.
theorem contains_of_isBuiltIn (h : g.Grown adds created g') (ha : ∀ a ∈ adds, ¬IsBuiltIn a.fst)
    (hb : IsBuiltIn n) (hn : g'.contains n) : g.contains n := by
  rw [contains_iff, h.names, List.mem_append] at hn
  rcases hn with hn | hn
  · exact contains_iff.mpr hn
  · obtain ⟨_, _, hl, _⟩ := h.made n hn
    exact absurd hb <| ha _ <| Text.mem_of_lookup hl

end Grown

end DefinitionGraph

namespace Endpoint

-- A body or response of an operation as its schema describes it.
structure Slot where
  ending : String
  type : TypeRef
  fields : List Property

namespace Slot

-- An inline slot gets a definition of its own.
def isInline (s : Slot) : Bool :=
  s.type.element.name == objectName

def additions (operation : String) (s : Slot) : List (String × List Property) :=
  if s.isInline then [(operation ++ s.ending, s.fields)] else []

end Slot

def bodySlot? (o : Operation) : Option Slot :=
  (o.parameters.find? (·.location == .body)).map fun p => ⟨"RequestBody", p.type, p.fields⟩

def responseSlot? (r : Option Response) (ending : String) : Option Slot :=
  r.bind fun r => r.type.map fun type => ⟨ending, type, r.fields⟩

def slotsOf (o : Operation) : List Slot :=
  (bodySlot? o).toList ++ (responseSlot? (successOf? o) "SuccessResponse").toList ++
    (responseSlot? (failureOf? o) "ErrorResponse").toList

def groupAdditions (o : Named) : List (String × List Property) :=
  match urlParametersOf o.operation with
  | [] | [_] => []
  | several => [(o.name ++ "RequestParameters", several.map stringProperty)]

-- The definitions that an operation calls for, in the order in which they are added.
def additionsOf (o : Named) : List (String × List Property) :=
  groupAdditions o ++ (slotsOf o.operation).flatMap (·.additions o.name)

-- The types of an endpoint that may lead to a definition.
def types (e : Endpoint) : List TypeRef :=
  (e.urlProperty.map (·.type)).toList ++ (e.body.map (·.type)).toList ++ e.success.toList ++
    e.failure.toList

variable {g g' : DefinitionGraph} {o : Named} {s : Slot} {type : TypeRef} {fields : List Property}
  {created : List String} {e : Error} {name slot synthesized : String} {tag : Option String}

theorem addDefinition_apply : addDefinition name fields tag g =
    if g.contains name then .ok [] g
    else .ok [name] (g.insert { Definition.make name fields with tag := tag }) := by
  rw [addDefinition, GraphM.get_bind]
  split <;> rfl

theorem addDefinition_eq_ok (h : addDefinition name fields tag g = .ok created g') :
    g.Grown [(name, fields)] created g' := by
  rw [addDefinition_apply] at h
  split at h <;> cases h
  case isTrue hc => exact ⟨by simp, fun _ d hd => ⟨d.tag, hd⟩, nofun, by simpa using hc⟩
  case isFalse hc =>
    refine ⟨names_insert_fresh hc, fun n d hd => ⟨d.tag, ?_⟩, fun n hn => ?_, fun a ha => ?_⟩
    · have hn : n ≠ name := fun he => hc <| he ▸ contains_of_get? hd
      simpa [get?_insert, Definition.make, hn] using hd
    · cases List.mem_singleton.mp hn
      exact ⟨fields, tag, by simp, by simp [get?_insert, Definition.make]⟩
    · simp_all [contains, get?_insert, Definition.make]

theorem addDefinition_ne_error : addDefinition name fields tag g ≠ .error e g' := by
  rw [addDefinition_apply]
  split <;> simp

theorem tagDefinition_grown (g : DefinitionGraph) (name : String) (tag : Option String) :
    g.Grown [] [] (g.modify name fun d => { d with tag := d.tag.or tag }) where
  names := by simp
  kept n d hd := by
    rw [get?_modify (f := fun d => { d with tag := d.tag.or tag }) fun _ => rfl]
    by_cases hn : n = name
    case pos => exact ⟨d.tag.or tag, by simp [hn, hn ▸ hd]⟩
    case neg => exact ⟨d.tag, by simp [hn, hd]⟩
  made := nofun
  there := nofun

-- A slot is accepted if it gets a definition of its own, or its type resolves.
def Accepts (g : DefinitionGraph) (s : Slot) : Prop :=
  s.isInline ∨ g.resolves s.type

theorem Accepts.of_extends (h : Accepts g s) (hg : g'.Extends g) : Accepts g' s :=
  h.imp_right hg.resolves

-- Only a type that is no inline object and does not resolve is at fault.
theorem resolveType_apply (hi : ¬s.isInline) :
    resolveType o slot synthesized s.type fields g =
      if s.type.isScalarElement then .ok (s.type, []) g
      else if g.contains s.type.element.name then
        .ok (s.type, []) <| g.modify s.type.element.name
          fun d => { d with tag := d.tag.or o.operation.tag }
      else .error (.danglingReference o.name slot s.type.element.name) g := by
  simp only [Slot.isInline] at hi
  have he : (s.type.element.isNative || s.type.element.isEnum) = s.type.isScalarElement := rfl
  simp only [resolveType, if_neg hi, he]
  split
  case isTrue => rfl
  case isFalse =>
    rw [GraphM.get_bind]
    cases g.contains s.type.element.name <;> rfl

theorem resolveType_of_isInline (hi : s.isInline) :
    resolveType o slot synthesized s.type s.fields = (do
      let created ← addDefinition synthesized s.fields o.operation.tag
      return (s.type.withElement (.ofName synthesized), created)) := by
  simp only [Slot.isInline] at hi
  simp only [resolveType, if_pos hi]

theorem resolveType_eq_ok (hp : PlainName (o.name ++ s.ending))
    (h : resolveType o slot (o.name ++ s.ending) s.type s.fields g = .ok (type, created) g') :
    g.Grown (s.additions o.name) created g' ∧ g'.resolves type ∧ Accepts g' s := by
  rw [Slot.additions]
  split
  case isTrue hi =>
    rw [resolveType_of_isInline hi] at h
    obtain ⟨names, g₁, h₁, h⟩ := GraphM.bind_eq_ok_iff.mp h
    obtain ⟨h, rfl⟩ := GraphM.pure_eq_ok_iff.mp h
    cases h
    have hg := addDefinition_eq_ok h₁
    refine ⟨hg, resolves_of_contains ?_, .inl hi⟩
    rw [TypeRef.element_withElement_ofName, TypeRef.name_ofName, hp.resolveReference_eq]
    exact hg.there _ <| List.mem_singleton_self _
  case isFalse hi =>
    rw [resolveType_apply hi] at h
    split at h
    case isTrue hs =>
      cases h
      have hr : g.resolves s.type := by simp [resolves, hs]
      exact ⟨.refl _, hr, .inr hr⟩
    case isFalse =>
      split at h <;> cases h
      case isTrue hc =>
        have hg := tagDefinition_grown g s.type.element.name o.operation.tag
        have hr := hg.extends.resolves <| resolves_of_contains hc
        exact ⟨hg, hr, .inr hr⟩

theorem resolveType_eq_error
    (h : resolveType o slot (o.name ++ s.ending) s.type s.fields g = .error e g') :
    (∃ n t, e = .danglingReference o.name n t) ∧ g' = g ∧ ¬Accepts g' s := by
  by_cases hi : s.isInline
  case pos =>
    rw [resolveType_of_isInline hi] at h
    rcases GraphM.bind_eq_error_iff.mp h with h | ⟨_, _, _, h⟩
    · exact absurd h addDefinition_ne_error
    · exact absurd h GraphM.pure_ne_error
  case neg =>
    rw [resolveType_apply hi] at h
    split at h
    case isTrue => cases h
    case isFalse hs =>
      split at h <;> cases h
      case isFalse hc => exact ⟨⟨_, _, rfl⟩, rfl, by simp_all [Accepts, resolves]⟩

-- What holds when parts of operations were worked off: their definitions were added, the types that
-- came out of them resolve, and their slots are accepted.
structure Done (g : DefinitionGraph) (adds : List (String × List Property)) (slots : List Slot)
    (types : List TypeRef) (created : List String) (g' : DefinitionGraph) : Prop where
  grown    : g.Grown adds created g'
  resolves : ∀ t ∈ types, g'.resolves t
  accepts  : ∀ s ∈ slots, Accepts g' s

theorem Done.trans {g₁ g₂ g₃ : DefinitionGraph} {adds₁ adds₂ : List (String × List Property)}
    {slots₁ slots₂ : List Slot} {types₁ types₂ : List TypeRef} {created₁ created₂ : List String}
    (h₁ : Done g₁ adds₁ slots₁ types₁ created₁ g₂) (h₂ : Done g₂ adds₂ slots₂ types₂ created₂ g₃) :
    Done g₁ (adds₁ ++ adds₂) (slots₁ ++ slots₂) (types₁ ++ types₂) (created₁ ++ created₂) g₃ where
  grown := h₁.grown.trans h₂.grown
  resolves t ht :=
    (List.mem_append.mp ht).elim (h₂.grown.extends.resolves <| h₁.resolves t ·) (h₂.resolves t)
  accepts s hs :=
    (List.mem_append.mp hs).elim (h₁.accepts s · |>.of_extends h₂.grown.extends) (h₂.accepts s)

-- What holds when a part is at fault.
structure Faulty (g : DefinitionGraph) (slots : List Slot) (e : Error) (g' : DefinitionGraph) :
    Prop where
  dangling : ∃ n p t, e = .danglingReference n p t
  grown    : g'.Extends g
  slot     : ∃ s ∈ slots, ¬Accepts g' s

theorem Faulty.after {g₀ : DefinitionGraph} {slots more : List Slot} (h : Faulty g slots e g')
    (hs : slots ⊆ more) (hx : g.Extends g₀) : Faulty g₀ more e g' where
  dangling := h.dangling
  grown    := h.grown.trans hx
  slot     := have ⟨s, hm, ha⟩ := h.slot; ⟨s, hs hm, ha⟩

theorem isScalarElement_stringProperty {p : UrlParameter} :
    (stringProperty p).type.isScalarElement := by
  change (TypeRef.ofName Primitive.string.name).isScalarElement
  decide

theorem urlPropertyOf_eq_ok {p : Option Property} (hp : PlainName o.name)
    (h : urlPropertyOf o g = .ok (p, created) g') :
    Done g (groupAdditions o) [] (p.map (·.type)).toList created g' := by
  match hu : urlParametersOf o.operation with
  | [] =>
    simp only [urlPropertyOf, hu] at h
    obtain ⟨h, rfl⟩ := GraphM.pure_eq_ok_iff.mp h
    cases h
    exact ⟨by simpa [groupAdditions, hu] using .refl _, by simp, by simp⟩
  | [single] =>
    simp only [urlPropertyOf, hu] at h
    obtain ⟨h, rfl⟩ := GraphM.pure_eq_ok_iff.mp h
    cases h
    refine ⟨by simpa [groupAdditions, hu] using .refl _, fun t ht => ?_, by simp⟩
    cases List.mem_singleton.mp ht
    exact Bool.or_eq_true_iff.mpr <| .inl isScalarElement_stringProperty
  | p₁ :: p₂ :: rest =>
    simp only [urlPropertyOf, hu] at h
    obtain ⟨names, g₁, h₁, h⟩ := GraphM.bind_eq_ok_iff.mp h
    obtain ⟨h, rfl⟩ := GraphM.pure_eq_ok_iff.mp h
    cases h
    have hg := addDefinition_eq_ok h₁
    have hp : PlainName (o.name ++ "RequestParameters") := hp.append <| by decide
    refine ⟨by simpa [groupAdditions, hu] using hg, fun t ht => ?_, by simp⟩
    cases List.mem_singleton.mp ht
    apply resolves_of_contains
    simpa [Property.ofType, TypeRef.ofName_eq hp, TypeRef.element, TypeRef.name]
      using hg.there _ <| List.mem_singleton_self _

theorem urlPropertyOf_ne_error : urlPropertyOf o g ≠ .error e g' := by
  intro h
  match hu : urlParametersOf o.operation with
  | [] | [_] =>
    simp only [urlPropertyOf, hu] at h
    exact GraphM.pure_ne_error h
  | _ :: _ :: _ =>
    simp only [urlPropertyOf, hu] at h
    rcases GraphM.bind_eq_error_iff.mp h with h | ⟨_, _, _, h⟩
    · exact addDefinition_ne_error h
    · exact GraphM.pure_ne_error h

-- A body is worked off with the type of its slot, or there is none.
theorem bodyOf_eq_ok {p : Option Property} (h : bodyOf o g = .ok (p, created) g') :
    (o.operation.parameters.find? (·.location == .body) = none ∧ p = none ∧ created = [] ∧ g' = g) ∨
      ∃ q type, o.operation.parameters.find? (·.location == .body) = some q ∧
        p = some (.ofType bodyName type q.required) ∧
        resolveType o bodyName (o.name ++ "RequestBody") q.type q.fields g =
          .ok (type, created) g' := by
  cases hq : o.operation.parameters.find? (·.location == .body) <;> simp only [bodyOf, hq] at h
  case none =>
    obtain ⟨h, rfl⟩ := GraphM.pure_eq_ok_iff.mp h
    cases h
    exact .inl ⟨rfl, rfl, rfl, rfl⟩
  case some q =>
    obtain ⟨⟨type, names⟩, g₁, h₁, h⟩ := GraphM.bind_eq_ok_iff.mp h
    obtain ⟨h, rfl⟩ := GraphM.pure_eq_ok_iff.mp h
    cases h
    exact .inr ⟨q, type, rfl, rfl, h₁⟩

-- What comes of the slot of a body or response, if there is one.
inductive Fills (o : Named) (slot : String) (g : DefinitionGraph) :
    Option Slot → Option TypeRef → List String → DefinitionGraph → Prop
  | none : Fills o slot g none none [] g
  | some {s : Slot} {type : TypeRef} {created : List String} {g' : DefinitionGraph} :
      resolveType o slot (o.name ++ s.ending) s.type s.fields g = .ok (type, created) g' →
      Fills o slot g (some s) (some type) created g'

theorem fills_of_bodyOf {p : Option Property} (h : bodyOf o g = .ok (p, created) g') :
    Fills o bodyName g (bodySlot? o.operation) (p.map (·.type)) created g' := by
  rw [bodySlot?]
  rcases bodyOf_eq_ok h with ⟨hq, rfl, rfl, rfl⟩ | ⟨q, type, hq, rfl, hr⟩ <;> rw [hq]
  · exact .none
  · exact .some hr

theorem resolveType_of_bodyOf_eq_error (h : bodyOf o g = .error e g') :
    ∃ s ∈ (bodySlot? o.operation).toList,
      resolveType o bodyName (o.name ++ s.ending) s.type s.fields g = .error e g' := by
  cases hq : o.operation.parameters.find? (·.location == .body) <;> simp only [bodyOf, hq] at h <;>
    rw [bodySlot?, hq]
  case none => exact absurd h GraphM.pure_ne_error
  case some q =>
    rcases GraphM.bind_eq_error_iff.mp h with h | ⟨_, _, _, h⟩
    · exact ⟨_, List.mem_singleton_self _, h⟩
    · exact absurd h GraphM.pure_ne_error

section

variable {r : Option Response} {ending : String}

theorem responseSlot?_eq_map : responseSlot? r ending =
    (r.bind fun r => r.type.map fun type => (type, r.fields)).map fun x => ⟨ending, x.fst, x.snd⟩ := by
  cases r
  case none   => rfl
  case some r => simp [responseSlot?, Function.comp_def]

theorem fills_of_responseOf {type : Option TypeRef}
    (h : responseOf o r ending g = .ok (type, created) g') :
    Fills o ending g (responseSlot? r ending) type created g' := by
  rw [responseSlot?_eq_map]
  cases hx : (r.bind fun r => r.type.map fun type => (type, r.fields)) <;>
    simp only [responseOf, hx] at h
  case none =>
    obtain ⟨h, rfl⟩ := GraphM.pure_eq_ok_iff.mp h
    cases h
    exact .none
  case some x =>
    obtain ⟨⟨type, names⟩, g₁, h₁, h⟩ := GraphM.bind_eq_ok_iff.mp h
    obtain ⟨h, rfl⟩ := GraphM.pure_eq_ok_iff.mp h
    cases h
    exact .some h₁

theorem resolveType_of_responseOf_eq_error (h : responseOf o r ending g = .error e g') :
    ∃ s ∈ (responseSlot? r ending).toList,
      resolveType o ending (o.name ++ s.ending) s.type s.fields g = .error e g' := by
  rw [responseSlot?_eq_map]
  cases hx : (r.bind fun r => r.type.map fun type => (type, r.fields)) <;>
    simp only [responseOf, hx] at h
  case none => exact absurd h GraphM.pure_ne_error
  case some x =>
    rcases GraphM.bind_eq_error_iff.mp h with h | ⟨_, _, _, h⟩
    · exact ⟨_, List.mem_singleton_self _, h⟩
    · exact absurd h GraphM.pure_ne_error

end

theorem Fills.done {slot? : Option Slot} {type? : Option TypeRef}
    (h : Fills o slot g slot? type? created g')
    (hp : ∀ s ∈ slot?.toList, PlainName (o.name ++ s.ending)) :
    Done g (slot?.toList.flatMap (·.additions o.name)) slot?.toList type?.toList created g' := by
  cases h
  case none => exact ⟨.refl _, by simp, by simp⟩
  case some h =>
    have ⟨hg, hr, ha⟩ := resolveType_eq_ok (hp _ <| List.mem_singleton_self _) h
    exact ⟨by simpa using hg, by simpa using hr, by simpa using ha⟩

theorem faulty_of_resolveType {slots : List Slot} (hs : s ∈ slots)
    (h : resolveType o slot (o.name ++ s.ending) s.type s.fields g = .error e g') :
    Faulty g slots e g' :=
  have ⟨⟨n, t, he⟩, hg, ha⟩ := resolveType_eq_error h
  ⟨⟨_, n, t, he⟩, hg ▸ .refl _, s, hs, ha⟩

section

variable {operation : Operation}

theorem bodySlot?_subset : (bodySlot? operation).toList ⊆ slotsOf operation := by
  simp [slotsOf]

theorem successSlot?_subset :
    (responseSlot? (successOf? operation) "SuccessResponse").toList ⊆ slotsOf operation := by
  simp [slotsOf]

theorem failureSlot?_subset :
    (responseSlot? (failureOf? operation) "ErrorResponse").toList ⊆ slotsOf operation := by
  simp [slotsOf]

theorem mem_responseSlot? {r : Option Response} {ending : String} (h : s ∈ responseSlot? r ending) :
    s.ending = ending ∧ ∃ r' ∈ r, s.fields = r'.fields := by
  obtain ⟨r', rfl, h⟩ := Option.bind_eq_some_iff.mp h
  obtain ⟨_, _, rfl⟩ := Option.map_eq_some_iff.mp h
  exact ⟨rfl, r', rfl, rfl⟩

theorem mem_endings_of_mem_slotsOf (h : s ∈ slotsOf operation) : s.ending ∈ endings := by
  simp only [slotsOf, List.mem_append, Option.mem_toList] at h
  rcases h with (h | h) | h
  · obtain ⟨_, _, rfl⟩ := Option.map_eq_some_iff.mp h
    simp [endings]
  · simp [endings, (mem_responseSlot? h).left]
  · simp [endings, (mem_responseSlot? h).left]

end

theorem plainName_of_mem_slotsOf (hp : PlainName o.name) (hs : s ∈ slotsOf o.operation) :
    PlainName (o.name ++ s.ending) :=
  hp.append <| plainName_of_mem_endings _ <| mem_endings_of_mem_slotsOf hs

theorem bodyOf_done {p : Option Property} (hp : PlainName o.name)
    (h : bodyOf o g = .ok (p, created) g') :
    Done g ((bodySlot? o.operation).toList.flatMap (·.additions o.name))
      (bodySlot? o.operation).toList (p.map (·.type)).toList created g' :=
  fills_of_bodyOf h |>.done fun _ hs => plainName_of_mem_slotsOf hp <| bodySlot?_subset hs

theorem responseOf_done {r : Option Response} {ending : String} {type : Option TypeRef}
    (hp : PlainName o.name) (hr : (responseSlot? r ending).toList ⊆ slotsOf o.operation)
    (h : responseOf o r ending g = .ok (type, created) g') :
    Done g ((responseSlot? r ending).toList.flatMap (·.additions o.name))
      (responseSlot? r ending).toList type.toList created g' :=
  fills_of_responseOf h |>.done fun _ hs => plainName_of_mem_slotsOf hp <| hr hs

theorem ofOperation_eq_ok {endpoint : Endpoint} (hp : PlainName o.name)
    (h : ofOperation o g = .ok (endpoint, created) g') :
    Done g (additionsOf o) (slotsOf o.operation) endpoint.types created g' := by
  obtain ⟨⟨url, names₁⟩, g₁, h₁, h⟩ := GraphM.bind_eq_ok_iff.mp h
  obtain ⟨⟨body, names₂⟩, g₂, h₂, h⟩ := GraphM.bind_eq_ok_iff.mp h
  obtain ⟨⟨success, names₃⟩, g₃, h₃, h⟩ := GraphM.bind_eq_ok_iff.mp h
  obtain ⟨⟨failure, names₄⟩, g₄, h₄, h⟩ := GraphM.bind_eq_ok_iff.mp h
  obtain ⟨h, rfl⟩ := GraphM.pure_eq_ok_iff.mp h
  cases h
  have hd := (urlPropertyOf_eq_ok hp h₁).trans <| (bodyOf_done hp h₂).trans <|
    (responseOf_done hp successSlot?_subset h₃).trans <| responseOf_done hp failureSlot?_subset h₄
  simpa [additionsOf, slotsOf, types, List.flatMap_append] using hd

theorem ofOperation_eq_error (hp : PlainName o.name) (h : ofOperation o g = .error e g') :
    Faulty g (slotsOf o.operation) e g' := by
  rcases GraphM.bind_eq_error_iff.mp h with h | ⟨⟨url, names₁⟩, g₁, h₁, h⟩
  · exact absurd h urlPropertyOf_ne_error
  have hx₁ := (urlPropertyOf_eq_ok hp h₁).grown.extends
  rcases GraphM.bind_eq_error_iff.mp h with h | ⟨⟨body, names₂⟩, g₂, h₂, h⟩
  · obtain ⟨s, hs, h⟩ := resolveType_of_bodyOf_eq_error h
    exact (faulty_of_resolveType hs h).after bodySlot?_subset hx₁
  have hx₂ := (bodyOf_done hp h₂).grown.extends.trans hx₁
  rcases GraphM.bind_eq_error_iff.mp h with h | ⟨⟨success, names₃⟩, g₃, h₃, h⟩
  · obtain ⟨s, hs, h⟩ := resolveType_of_responseOf_eq_error h
    exact (faulty_of_resolveType hs h).after successSlot?_subset hx₂
  have hx₃ := (responseOf_done hp successSlot?_subset h₃).grown.extends.trans hx₂
  rcases GraphM.bind_eq_error_iff.mp h with h | ⟨_, _, _, h⟩
  · obtain ⟨s, hs, h⟩ := resolveType_of_responseOf_eq_error h
    exact (faulty_of_resolveType hs h).after failureSlot?_subset hx₃
  · exact absurd h GraphM.pure_ne_error

variable {os : List Named} {endpoints : List Endpoint}

theorem ofNamed_eq_ok (hp : ∀ o ∈ os, PlainName o.name)
    (h : ofNamed os g = .ok (endpoints, created) g') :
    Done g (os.flatMap additionsOf) (os.flatMap (slotsOf ·.operation)) (endpoints.flatMap types)
      created g' := by
  induction os generalizing g endpoints created
  case nil =>
    obtain ⟨h, rfl⟩ := GraphM.pure_eq_ok_iff.mp h
    cases h
    exact ⟨.refl _, by simp, by simp⟩
  case cons o os ih =>
    obtain ⟨⟨endpoint, names₁⟩, g₁, h₁, h⟩ := GraphM.bind_eq_ok_iff.mp h
    obtain ⟨⟨more, names₂⟩, g₂, h₂, h⟩ := GraphM.bind_eq_ok_iff.mp h
    obtain ⟨h, rfl⟩ := GraphM.pure_eq_ok_iff.mp h
    cases h
    have ⟨ho, hos⟩ := List.forall_mem_cons.mp hp
    simpa using (ofOperation_eq_ok ho h₁).trans <| ih hos h₂

theorem ofNamed_eq_error (hp : ∀ o ∈ os, PlainName o.name) (h : ofNamed os g = .error e g') :
    Faulty g (os.flatMap (slotsOf ·.operation)) e g' := by
  induction os generalizing g
  case nil => exact absurd h GraphM.pure_ne_error
  case cons o os ih =>
    have ⟨ho, hos⟩ := List.forall_mem_cons.mp hp
    rw [List.flatMap_cons]
    rcases GraphM.bind_eq_error_iff.mp h with h | ⟨⟨endpoint, names₁⟩, g₁, h₁, h⟩
    · exact (ofOperation_eq_error ho h).after (List.subset_append_left _ _) <| .refl _
    rcases GraphM.bind_eq_error_iff.mp h with h | ⟨⟨more, names₂⟩, g₂, h₂, h⟩
    · exact (ih hos h).after (List.subset_append_right _ _) (ofOperation_eq_ok ho h₁).grown.extends
    · exact absurd h GraphM.pure_ne_error

-- A predicate holds of all fields that bodies and responses of an operation bring along.
def AllFields (P : Property → Prop) (o : Operation) : Prop :=
  (∀ p ∈ o.parameters, ∀ q ∈ p.fields, Property.Deep P q) ∧
    ∀ r ∈ o.responses, ∀ q ∈ r.fields, Property.Deep P q

instance {P : Property → Prop} [DecidablePred P] : DecidablePred (AllFields P) :=
  fun _ => inferInstanceAs (Decidable (_ ∧ _))

section

variable {operation : Operation} {P : Property → Prop} {a : String × List Property}

theorem AllFields.mono {Q : Property → Prop} (hPQ : ∀ p, P p → Q p) (h : AllFields P operation) :
    AllFields Q operation :=
  ⟨fun p hp q hq => (h.left p hp q hq).mono hPQ, fun r hr q hq => (h.right r hr q hq).mono hPQ⟩

-- A slot has the fields of a parameter or of a response.
theorem exists_of_mem_slotsOf (h : s ∈ slotsOf operation) :
    (∃ p ∈ operation.parameters, s.fields = p.fields) ∨
      ∃ r ∈ operation.responses, s.fields = r.fields := by
  simp only [slotsOf, List.mem_append, Option.mem_toList] at h
  rcases h with (h | h) | h
  · obtain ⟨p, hp, rfl⟩ := Option.map_eq_some_iff.mp h
    exact .inl ⟨p, List.mem_of_find?_eq_some hp, rfl⟩
  · obtain ⟨_, r, hr, hf⟩ := mem_responseSlot? h
    exact .inr ⟨r, List.mem_of_find?_eq_some hr, hf⟩
  · obtain ⟨_, r, hr, hf⟩ := mem_responseSlot? h
    exact .inr ⟨r, List.mem_of_find?_eq_some hr, hf⟩

theorem AllFields.of_slot (ho : AllFields P operation) (h : s ∈ slotsOf operation) :
    ∀ q ∈ s.fields, Property.Deep P q := by
  rcases exists_of_mem_slotsOf h with ⟨p, hp, hf⟩ | ⟨r, hr, hf⟩
  · exact hf ▸ ho.left p hp
  · exact hf ▸ ho.right r hr

theorem mem_groupAdditions (h : a ∈ groupAdditions o) :
    a.fst = o.name ++ "RequestParameters" ∧ ∀ p ∈ a.snd, ∃ u, p = stringProperty u := by
  simp only [groupAdditions] at h
  split at h
  case h_1 | h_2 => contradiction
  case h_3 =>
    cases List.mem_singleton.mp h
    refine ⟨rfl, fun p hp => ?_⟩
    obtain ⟨u, _, rfl⟩ := List.mem_map.mp hp
    exact ⟨u, rfl⟩

theorem mem_slotAdditions (h : a ∈ s.additions o.name) :
    s.isInline ∧ a = (o.name ++ s.ending, s.fields) := by
  rw [Slot.additions] at h
  split at h
  case isFalse   => contradiction
  case isTrue hi => exact ⟨hi, List.mem_singleton.mp h⟩

-- The definitions that an operation calls for are a group of scalars and what its slots hold.
theorem mem_additionsOf (h : a ∈ additionsOf o) :
    (a.fst = o.name ++ "RequestParameters" ∧
        ∀ p ∈ a.snd, p.type.isScalarElement ∧ p.fields = []) ∨
      ∃ s ∈ slotsOf o.operation, s.isInline ∧ a = (o.name ++ s.ending, s.fields) := by
  simp only [additionsOf, List.mem_append, List.mem_flatMap] at h
  rcases h with h | ⟨s, hs, h⟩
  · refine .inl ⟨(mem_groupAdditions h).left, fun p hp => ?_⟩
    obtain ⟨_, rfl⟩ := (mem_groupAdditions h).right p hp
    exact ⟨isScalarElement_stringProperty, rfl⟩
  · exact .inr ⟨s, hs, mem_slotAdditions h⟩

theorem plainName_of_mem_additionsOf (hn : PlainName o.name) (h : a ∈ additionsOf o) :
    PlainName a.fst := by
  rcases mem_additionsOf h with ⟨he, _⟩ | ⟨s, hs, _, rfl⟩
  · exact he ▸ hn.append (by decide)
  · exact plainName_of_mem_slotsOf hn hs

theorem not_isBuiltIn_of_mem_additionsOf (h : a ∈ additionsOf o) : ¬IsBuiltIn a.fst := by
  obtain ⟨e, he, h⟩ : ∃ e ∈ endings, a.fst = o.name ++ e := by
    rcases mem_additionsOf h with ⟨he, _⟩ | ⟨s, hs, _, rfl⟩
    · exact ⟨_, by decide, he⟩
    · exact ⟨s.ending, mem_endings_of_mem_slotsOf hs, rfl⟩
  have hc : ∀ e ∈ endings, e.toList.any (!·.isLower) := by decide
  obtain ⟨c, hm, hc⟩ := List.any_eq_true.mp <| hc e he
  have hl : ¬c.isLower := by simpa using hc
  exact not_isBuiltIn_of_mem (by simp [h, String.toList_append, hm]) hl

theorem exists_sublist_of_slot {slot? : Option Slot} {ending : String} (o : Named)
    (h : ∀ s ∈ slot?, s.ending = ending) : ∃ es : List String, es.Sublist [ending] ∧
      (slot?.toList.flatMap (·.additions o.name)).map Prod.fst = es.map (o.name ++ ·) := by
  cases slot?
  case none => exact ⟨[], by simp, by simp⟩
  case some s =>
    cases hi : s.isInline
    case false => exact ⟨[], by simp, by simp [Slot.additions, hi]⟩
    case true  => exact ⟨[ending], by simp, by simp [Slot.additions, hi, h s rfl]⟩

-- An operation adds at most one definition for each ending.
theorem exists_sublist_endings (o : Named) : ∃ es : List String, es.Sublist endings ∧
    (additionsOf o).map Prod.fst = es.map (o.name ++ ·) := by
  obtain ⟨es₁, h₁, k₁⟩ : ∃ es : List String, es.Sublist ["RequestParameters"] ∧
      (groupAdditions o).map Prod.fst = es.map (o.name ++ ·) := by
    rw [groupAdditions]
    split
    case h_1 | h_2 => exact ⟨[], by simp, by simp⟩
    case h_3       => exact ⟨["RequestParameters"], by simp, by simp⟩
  have hb : ∀ s ∈ bodySlot? o.operation, s.ending = "RequestBody" := by
    intro s hs
    obtain ⟨_, _, rfl⟩ := Option.map_eq_some_iff.mp hs
    rfl
  have hr : ∀ r ending, ∀ s ∈ responseSlot? r ending, s.ending = ending :=
    fun _ _ _ hs => (mem_responseSlot? hs).left
  obtain ⟨es₂, h₂, k₂⟩ := exists_sublist_of_slot o hb
  obtain ⟨es₃, h₃, k₃⟩ := exists_sublist_of_slot o <| hr (successOf? o.operation) "SuccessResponse"
  obtain ⟨es₄, h₄, k₄⟩ := exists_sublist_of_slot o <| hr (failureOf? o.operation) "ErrorResponse"
  refine ⟨es₁ ++ (es₂ ++ es₃ ++ es₄), h₁.append <| (h₂.append h₃).append h₄, ?_⟩
  simp only [additionsOf, slotsOf, List.flatMap_append, List.map_append, k₁, k₂, k₃, k₄]

-- No two definitions are added under the same name.
theorem nodup_additions {os : List Named} (h : (os.map (·.name)).Nodup) :
    ((os.flatMap additionsOf).map Prod.fst).Nodup := by
  induction os
  case nil => simp
  case cons o os ih =>
    have ⟨hn, hos⟩ := List.nodup_cons.mp h
    obtain ⟨es, hs, he⟩ := exists_sublist_endings o
    rw [List.flatMap_cons, List.map_append, he]
    have hd : endings.Nodup := by decide
    refine List.nodup_append.mpr ⟨?_, ih hos, fun a ha b hb hab => ?_⟩
    · refine List.Nodup.map (fun _ _ h => String.toList_inj.mp ?_) <| hs.nodup hd
      simpa [String.toList_append] using congrArg String.toList h
    · obtain ⟨e, hm, rfl⟩ := List.mem_map.mp ha
      obtain ⟨c, hc, rfl⟩ := List.mem_map.mp hb
      obtain ⟨o', ho', hc⟩ := List.mem_flatMap.mp hc
      obtain ⟨es', hs', he'⟩ := exists_sublist_endings o'
      obtain ⟨e', hm', h'⟩ := List.mem_map.mp <| he' ▸ List.mem_map_of_mem hc
      have := append_ending_injective (hs.subset hm) (hs'.subset hm') <| hab.trans h'.symm
      exact hn <| List.mem_map.mpr ⟨o', ho', this.left.symm⟩

-- A predicate holds of all fields of the inline bodies and responses that an endpoint has.
def InlineFields (P : Property → Prop) (o : Operation) : Prop :=
  ∀ s ∈ slotsOf o, s.isInline → ∀ q ∈ s.fields, Property.Deep P q

instance [DecidablePred P] : DecidablePred (InlineFields P) :=
  fun o => inferInstanceAs (Decidable (∀ s ∈ slotsOf o, s.isInline → ∀ q ∈ s.fields, _))

theorem AllFields.inlineFields (ho : AllFields P operation) : InlineFields P operation :=
  fun _ hs _ => ho.of_slot hs

theorem InlineFields.of_addition (ho : InlineFields P o.operation) (h : a ∈ additionsOf o) :
    ∀ q ∈ a.snd, Property.Deep P q := by
  rcases mem_additionsOf h with ⟨_, hs⟩ | ⟨s, hs, hi, rfl⟩
  · exact fun q hq => .scalar (hs q hq).left
  · exact ho s hs hi

theorem AllFields.of_addition (ho : AllFields P o.operation) (h : a ∈ additionsOf o) :
    ∀ q ∈ a.snd, Property.Deep P q :=
  ho.inlineFields.of_addition h

end

end Endpoint
end Classwright
