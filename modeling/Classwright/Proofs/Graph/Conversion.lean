import Classwright.Proofs.Graph.Endpoint

namespace Classwright

open Schema Swagger DefinitionGraph

namespace Endpoint

-- The type of a slot after the slot got a definition of its own, if it needs one.
def Slot.typeFor (operation : String) (s : Slot) : TypeRef :=
  if s.isInline then s.type.withElement (.ofName (operation ++ s.ending)) else s.type

-- The name of the definition for a group of url parameters.
def groupDefinition (operation : String) : String :=
  operation ++ "RequestParameters"

def urlPropertyFor (o : Named) : Option Property :=
  match urlParametersOf o.operation with
  | []       => none
  | [single] => stringProperty single
  | _        => some <| .ofType groupName (.ofName (groupDefinition o.name)) true

def bodyFor (o : Named) : Option Property :=
  (o.operation.parameters.find? (·.location == .body)).map fun p =>
    .ofType bodyName (Slot.typeFor o.name ⟨"RequestBody", p.type, p.fields⟩) p.required

def endpointOf (o : Named) : Endpoint where
  name := o.name
  url := o.operation.url
  method := o.operation.method
  tag := o.operation.tag
  urlParameters := urlParametersOf o.operation
  urlProperty := urlPropertyFor o
  body := bodyFor o
  success :=
    (responseSlot? (successOf? o.operation) "SuccessResponse").map (·.typeFor o.name)
  failure :=
    (responseSlot? (failureOf? o.operation) "ErrorResponse").map (·.typeFor o.name)

variable {g g' : DefinitionGraph} {o : Named} {s : Slot} {type : TypeRef} {slot ending : String}
  {created : List String}

theorem typeFor_of_resolveType
    (h : resolveType o slot (o.name ++ s.ending) s.type s.fields g = .ok (type, created) g') :
    type = s.typeFor o.name := by
  rw [Slot.typeFor]
  split
  case isTrue hi =>
    rw [resolveType_of_isInline hi] at h
    obtain ⟨_, _, _, h⟩ := GraphM.bind_eq_ok_iff.mp h
    obtain ⟨h, -⟩ := GraphM.pure_eq_ok_iff.mp h
    cases h
    rfl
  case isFalse hi =>
    rw [resolveType_apply hi] at h
    split at h
    case isTrue  => cases h; rfl
    case isFalse => split at h <;> cases h; rfl

theorem urlPropertyFor_of_urlPropertyOf {p : Option Property}
    (h : urlPropertyOf o g = .ok (p, created) g') : p = urlPropertyFor o := by
  match hu : urlParametersOf o.operation with
  | [] | [_] =>
    simp only [urlPropertyOf, hu] at h
    obtain ⟨h, -⟩ := GraphM.pure_eq_ok_iff.mp h
    cases h
    simp only [urlPropertyFor, hu]
  | _ :: _ :: _ =>
    simp only [urlPropertyOf, hu] at h
    obtain ⟨_, _, _, h⟩ := GraphM.bind_eq_ok_iff.mp h
    obtain ⟨h, -⟩ := GraphM.pure_eq_ok_iff.mp h
    cases h
    simp only [urlPropertyFor, hu, groupDefinition]

theorem bodyFor_of_bodyOf {p : Option Property} (h : bodyOf o g = .ok (p, created) g') :
    p = bodyFor o := by
  rw [bodyFor]
  rcases bodyOf_eq_ok h with ⟨hq, rfl, _⟩ | ⟨q, type, hq, rfl, hr⟩
  · rw [hq, Option.map_none]
  · rw [hq, Option.map_some, typeFor_of_resolveType (s := ⟨"RequestBody", q.type, q.fields⟩) hr]

theorem Fills.typeFor {slot? : Option Slot} {type? : Option TypeRef}
    (h : Fills o slot g slot? type? created g') : type? = slot?.map (·.typeFor o.name) := by
  cases h
  case none   => rfl
  case some h => rw [typeFor_of_resolveType h, Option.map_some]

theorem eq_endpointOf_of_ofOperation {e : Endpoint} (h : ofOperation o g = .ok (e, created) g') :
    e = endpointOf o := by
  obtain ⟨_, _, h₁, h⟩ := GraphM.bind_eq_ok_iff.mp h
  obtain ⟨_, _, h₂, h⟩ := GraphM.bind_eq_ok_iff.mp h
  obtain ⟨_, _, h₃, h⟩ := GraphM.bind_eq_ok_iff.mp h
  obtain ⟨_, _, h₄, h⟩ := GraphM.bind_eq_ok_iff.mp h
  obtain ⟨h, -⟩ := GraphM.pure_eq_ok_iff.mp h
  cases h
  simp only [endpointOf, ← urlPropertyFor_of_urlPropertyOf h₁, ← bodyFor_of_bodyOf h₂,
    ← (fills_of_responseOf h₃).typeFor, ← (fills_of_responseOf h₄).typeFor]

theorem eq_map_endpointOf_of_ofNamed {os : List Named} {endpoints : List Endpoint}
    (h : ofNamed os g = .ok (endpoints, created) g') : endpoints = os.map endpointOf := by
  induction os generalizing g g' endpoints created
  case nil =>
    obtain ⟨h, -⟩ := GraphM.pure_eq_ok_iff.mp h
    cases h
    rfl
  case cons o os ih =>
    obtain ⟨⟨e, _⟩, _, h₁, h⟩ := GraphM.bind_eq_ok_iff.mp h
    obtain ⟨⟨more, _⟩, _, h₂, h⟩ := GraphM.bind_eq_ok_iff.mp h
    obtain ⟨h, -⟩ := GraphM.pure_eq_ok_iff.mp h
    cases h
    rw [List.map_cons, eq_endpointOf_of_ofOperation h₁, ih h₂]

end Endpoint

namespace DefinitionGraph

variable {g g' : DefinitionGraph} {adds : List (String × List Property)} {created : List String}
  {a : String × List Property}

-- A definition that is asked for once is made as it is asked for, unless its name is taken.
theorem Grown.get?_of_mem (h : g.Grown adds created g') (hn : (adds.map Prod.fst).Nodup)
    (ha : a ∈ adds) (hc : ¬g.contains a.fst) :
    ∃ tag, g'.get? a.fst = some { Definition.make a.fst a.snd with tag := tag } := by
  obtain ⟨d, hd⟩ := exists_of_contains <| h.there a ha
  rcases h.get?_cases hd with ⟨e, _, he, _⟩ | ⟨_, fields, tag, hm, rfl⟩
  · exact absurd (contains_of_get? he) hc
  · have hf : a.snd = fields :=
      congrArg Prod.snd <| List.inj_on_of_nodup_map hn ha hm rfl
    exact ⟨tag, hf ▸ hd⟩

end DefinitionGraph

end Classwright
