import Classwright.Proofs.Fields
import Classwright.Proofs.UrlNames

namespace Classwright

open Schema Swagger Yaml DefinitionGraph Endpoint Classes

namespace Classes.Request

variable {lex : Lexicon} {s model : Settings.ClassSettings} {e e' : Endpoint}

-- The parameters whose values make up the url.
def readNames (e : Endpoint) : List String :=
  (UrlPart.ofUrl e.url).filterMap UrlPart.name? ++ queryNames e

-- A chain of names that leads to a field: the first one names a field of the request class, and a
-- second one a field of the definition that the type of the first one names.
def LeadsToField (c : Code.ClassDecl) (g : DefinitionGraph) (e : Endpoint) : List String → Prop
  | [name]        => name ∈ c.fields.map (·.name)
  | [first, name] => first ∈ c.fields.map (·.name) ∧ ∃ p ∈ properties e, p.name = first ∧
    ∃ d, g.get? p.type.element.name = some d ∧ name ∈ d.properties.map (·.name)
  | _             => False

-- The parameters that have a field, if `g` is the graph from before the endpoints.
def Provides (g : DefinitionGraph) (e : Endpoint) (name : String) : Prop :=
  if 1 < e.urlParameters.length then
    match g.get? (e.name ++ "RequestParameters") with
    | some d => name ∈ d.properties.map (·.name)
    | none   => name ∈ e.urlParameters.map (·.name)
  else name ∈ e.urlParameters.map (·.name) ∨ name = "body" ∧ e.body.isSome

theorem map_name_fields :
    (classOf lex s model e).fields.map (·.name) = (properties e).map (·.name) := by
  simp [classOf, Code.Field.make, Function.comp_def]

theorem mem_urlParameters_of_mem_queryNames {n : String} (h : n ∈ queryNames e) :
    n ∈ e.urlParameters.map (·.name) :=
  (List.filter_sublist.map _).subset h

theorem readNames_eq {url : String} (names : List String) (hu : e.url = url)
    (hp : (UrlPart.ofUrl url).filterMap UrlPart.name? = names) : readNames e = names ++ queryNames e := by
  rw [readNames, hu, hp]

theorem parameterValue_congr {n : String} (h : e'.access n = e.access n) :
    parameterValue lex e' n = parameterValue lex e n := by
  rw [parameterValue, parameterValue, h]

theorem pathExpression_congr (hu : e'.url = e.url)
    (ha : ∀ n ∈ readNames e, e'.access n = e.access n) :
    pathExpression lex e' = pathExpression lex e := by
  have hp : ∀ p ∈ UrlPart.ofUrl e.url, partExpression lex e' p = partExpression lex e p := by
    intro p hp
    cases p
    case literal => rfl
    case parameter n =>
      have hn : n ∈ readNames e := List.mem_append_left _ <| List.mem_filterMap.mpr ⟨_, hp, rfl⟩
      rw [partExpression, partExpression, parameterValue_congr <| ha n hn]
  simp only [pathExpression, hu, List.map_congr_left hp]

-- Nothing but the ways to these values tells what the body of the url is.
theorem urlBody_congr (hu : e'.url = e.url) (hq : queryNames e' = queryNames e)
    (ha : ∀ n ∈ readNames e, e'.access n = e.access n) : urlBody lex e' = urlBody lex e := by
  have hm : (queryNames e).map (appendToQuery lex e') = (queryNames e).map (appendToQuery lex e) := by
    refine List.map_congr_left fun n hn => ?_
    rw [appendToQuery, appendToQuery, parameterValue_congr <| ha n <| List.mem_append_right _ hn]
  rw [urlBody, urlBody, hq, hm, pathExpression_congr hu ha]

end Classes.Request

namespace Endpoint

open Request

variable {o : Named} {n : String} {g g' : DefinitionGraph} {lex : Lexicon}
  {s model : Settings.ClassSettings}

theorem access_endpointOf : (endpointOf o).access n =
    if 1 < (urlParametersOf o.operation).length then ["parameters", n] else [n] := by
  rcases hu : urlParametersOf o.operation with _ | ⟨_, _ | _⟩
  case nil       => simp [access, endpointOf, urlPropertyFor, hu]
  case cons.nil  => simp [access, endpointOf, urlPropertyFor, hu]
  case cons.cons => simp [access, endpointOf, urlPropertyFor, hu, Property.ofType, groupName]

theorem mem_names_properties_iff (h : ¬1 < (urlParametersOf o.operation).length) :
    n ∈ (properties (endpointOf o)).map (·.name) ↔
      n ∈ (urlParametersOf o.operation).map (·.name) ∨ n = "body" ∧ (bodyFor o).isSome := by
  have hb : n ∈ (bodyFor o).toList.map (·.name) ↔ n = "body" ∧ (bodyFor o).isSome := by
    cases hf : bodyFor o
    case none   => simp
    case some p => simp [name_of_mem_bodyFor hf]
  rw [properties, List.map_append, List.mem_append]
  refine or_congr ?_ hb
  simp only [endpointOf, urlPropertyFor]
  rcases hu : urlParametersOf o.operation with _ | ⟨u, _ | _⟩
  case nil       => simp
  case cons.nil  => simp [stringProperty, Property.ofType]
  case cons.cons => simp [hu] at h

-- The first name of a grouped parameter is that of the group, since a body has another name.
theorem leadsToField_group_iff (hp : PlainName o.name) (h : 1 < (urlParametersOf o.operation).length) :
    LeadsToField (classOf lex s model (endpointOf o)) g' (endpointOf o) ["parameters", n] ↔
      ∃ d, g'.get? (o.name ++ "RequestParameters") = some d ∧ n ∈ d.properties.map (·.name) := by
  have hu := urlProperty_endpointOf hp h
  rw [LeadsToField, map_name_fields, properties, hu]
  constructor
  · rintro ⟨_, p, hm, hn, hd⟩
    rcases List.mem_append.mp hm with hm | hm
    · cases List.mem_singleton.mp hm
      exact hd
    · have := name_of_mem_bodyFor <| Option.mem_toList.mp hm
      exact absurd (hn.symm.trans this) (by decide)
  · intro hd
    exact ⟨by simp [Property.ofType], _, List.mem_append_left _ <| List.mem_singleton_self _, rfl, hd⟩

theorem provides_iff_of_describes
    (h : Describes g g' (o.name ++ "RequestParameters")
      ((urlParametersOf o.operation).map stringProperty)) :
    (∃ d, g'.get? (o.name ++ "RequestParameters") = some d ∧ n ∈ d.properties.map (·.name)) ↔
      match g.get? (o.name ++ "RequestParameters") with
      | some d => n ∈ d.properties.map (·.name)
      | none   => n ∈ (urlParametersOf o.operation).map (·.name) := by
  obtain ⟨d, hd, hf, _⟩ := h
  have hn := DeclaredAs.map_name hf
  simp only [hd, Option.some.injEq, exists_eq_left', hn]
  cases g.get? (o.name ++ "RequestParameters")
  case some => rfl
  case none => simp [stringProperty, Property.ofType, Function.comp_def]

end Endpoint

namespace Blueprint

open Request

variable {passes : Nat} {d : Document} {b : Blueprint}

-- The way to the value of a parameter leads to a field exactly if the endpoint provides the parameter.
-- It always provides those of its query, unless its group takes on a definition from before.
theorem leadsToField_iff_of_ofDocument_eq_ok (h : ofDocument passes d = .ok b) (lex : Lexicon)
    (s model : Settings.ClassSettings) : ∃ g, Synthesizes passes d g ∧ ∀ e ∈ b.endpoints,
      (∀ n ∈ readNames e,
        (LeadsToField (classOf lex s model e) b.graph e (e.access n) ↔ Provides g e n)) ∧
      (∀ n ∈ queryNames e, n ∈ e.urlParameters.map (·.name)) ∧
      ∀ e', e'.url = e.url → queryNames e' = queryNames e →
        (∀ n ∈ readNames e, e'.access n = e.access n) → urlBody lex e' = urlBody lex e := by
  obtain ⟨g, hs⟩ := exists_synthesizes h
  refine ⟨g, hs, fun e he => ⟨fun n _ => ?_, fun _ => mem_urlParameters_of_mem_queryNames,
    fun _ => urlBody_congr⟩⟩
  rw [endpoints_eq h] at he
  obtain ⟨o, ho, rfl⟩ := List.mem_map.mp he
  rw [access_endpointOf, Provides]
  split
  case isTrue hl =>
    rw [leadsToField_group_iff (plainName_of_mem_nameAll o ho) hl]
    exact (provides_iff_of_describes <| describes_of_mem_additionsOf hs h o ho _ <|
      mem_additionsOf_group hl).trans (if_pos hl ▸ .rfl)
  case isFalse hl =>
    rw [LeadsToField, map_name_fields, mem_names_properties_iff hl]
    exact if_neg hl ▸ .rfl

theorem leadsToField_visitDocument : ∃ b e, ofDocument 3 visitDocument = .ok b ∧ b.endpoints = [e] ∧
    readNames e = ["owner", "limit"] ∧ ∀ n ∈ readNames e,
      LeadsToField (classOf .java (.standard .java .api) (.standard .java .model) e) b.graph e
        (e.access n) := by
  obtain ⟨b, e, h, he, hu, hl, hq, hn, hp⟩ : ∃ b e, ofDocument 3 visitDocument = .ok b ∧
      b.endpoints = [e] ∧ e.url = "/visits/{owner}" ∧ 1 < e.urlParameters.length ∧
      queryNames e = ["limit"] ∧ e.name = "PostVisitsByOwner" ∧
      e.urlParameters.map (·.name) = ["owner", "limit"] := by
    rw [ofDocument, initialGraph, assemble, schemas_visitDocument, operations_visitDocument]
    exact ⟨_, _, rfl, rfl, rfl, by decide, rfl, rfl, rfl⟩
  have hr : readNames e = ["owner", "limit"] := by
    rw [readNames_eq ["owner"] hu (by decide +kernel), hq]
    rfl
  refine ⟨b, e, h, he, hr, fun n hm => ?_⟩
  obtain ⟨g, ⟨created, hs⟩, hg⟩ := leadsToField_iff_of_ofDocument_eq_ok h .java
    (.standard .java .api) (.standard .java .model)
  have hf : g.get? "PostVisitsByOwnerRequestParameters" = none := by
    rw [initialGraph, schemas_visitDocument] at hs
    cases hs
    rfl
  refine ((hg e <| he ▸ List.mem_singleton_self e).left n hm).mpr ?_
  rw [Provides, if_pos hl, hn]
  rw [hr] at hm
  simpa [hf, hp] using hm

-- The group of the pets has a name that is taken, and the owner is no parameter.
def straySlots : Document :=
  let id := mapOf [("name", .str "id"), ("in", .str "path"), ("required", .bool true)]
  let limit := mapOf [("name", .str "limit"), ("in", .str "query")]
  { documentOf [("GetPetsByIdRequestParameters", objectOf [("page", entryOf "type" "integer")])] with
    paths := [
      (.str "/pets/{id}", mapOf [("get", mapOf [("parameters", .seq [id, limit])])]),
      (.str "/owners/{owner}", mapOf [("get", mapOf [])])] }

theorem schemas_straySlots : straySlots.schemas =
    [⟨"GetPetsByIdRequestParameters", [.ofType "page" (.named "integer" false) false]⟩] := by
  with_unfolding_all rfl

theorem operations_straySlots : straySlots.operations =
    [⟨"/pets/{id}", .get, none,
        [⟨"id", .path, true, .named "object" false, []⟩,
          ⟨"limit", .query, false, .named "object" false, []⟩], []⟩,
      ⟨"/owners/{owner}", .get, none, [], []⟩] := by
  with_unfolding_all rfl

-- Both urls are made of values that no field has.
theorem leads_nowhere : ∃ b pets owners, ofDocument 3 straySlots = .ok b ∧
    b.endpoints = [pets, owners] ∧
    readNames pets = ["id", "limit"] ∧ pets.access "id" = ["parameters", "id"] ∧
    readNames owners = ["owner"] ∧ owners.access "owner" = ["owner"] ∧
    ∀ lex s model, ¬LeadsToField (classOf lex s model pets) b.graph pets ["parameters", "id"] ∧
      ¬LeadsToField (classOf lex s model owners) b.graph owners ["owner"] := by
  obtain ⟨b, pets, owners, p, d, h, he, hu, hq, ha, hp, hd, hn, hu', hq', ha', hp'⟩ :
      ∃ b pets owners p d, ofDocument 3 straySlots = .ok b ∧ b.endpoints = [pets, owners] ∧
        pets.url = "/pets/{id}" ∧ queryNames pets = ["limit"] ∧
        pets.access "id" = ["parameters", "id"] ∧ properties pets = [p] ∧
        b.graph.get? p.type.element.name = some d ∧ d.properties.map (·.name) = ["page"] ∧
        owners.url = "/owners/{owner}" ∧ queryNames owners = [] ∧
        owners.access "owner" = ["owner"] ∧ properties owners = [] := by
    rw [ofDocument, initialGraph, assemble, schemas_straySlots, operations_straySlots]
    exact ⟨_, _, _, _, _, rfl, rfl, rfl, rfl, rfl, rfl, rfl, rfl, rfl, rfl, rfl, rfl⟩
  refine ⟨b, pets, owners, h, he, ?_, ha, ?_, ha', fun lex s model => ⟨?_, ?_⟩⟩
  · rw [readNames_eq ["id"] hu (by decide +kernel), hq]
    rfl
  · rw [readNames_eq ["owner"] hu' (by decide +kernel), hq']
    rfl
  · rintro ⟨_, p', hm, _, d', hd', hm'⟩
    rw [hp] at hm
    cases List.mem_singleton.mp hm
    cases hd.symm.trans hd'
    rw [hn] at hm'
    exact absurd hm' (by decide)
  · rw [LeadsToField, map_name_fields, hp']
    exact List.not_mem_nil

end Blueprint

end Classwright
