import Classwright.Proofs.Graph.Distinct
import Classwright.Proofs.Paths
import Classwright.Proofs.Requests

namespace Classwright

open Schema Swagger Yaml DefinitionGraph Endpoint Classes

namespace Code.ClassDecl

-- No field is declared twice, and neither is a parameter of the constructor.
def DeclaresOnce (c : ClassDecl) : Prop :=
  (c.fields.map (·.name)).Nodup ∧ ∀ k ∈ c.constructor, (k.parameters.map (·.name)).Nodup

end Code.ClassDecl

namespace Classes

open Code.ClassDecl

variable {lex : Lexicon} {s model : Settings.ClassSettings} {d : Definition} {e : Endpoint}

theorem declaresOnce_modelClass_iff :
    (Model.classOf lex s d).DeclaresOnce ↔ (d.properties.map (·.name)).Nodup := by
  simp [DeclaresOnce, Model.classOf, Model.fieldOf, Code.Field.make, Code.Field.toParameter,
    Function.comp_def]

theorem declaresOnce_requestClass_iff : (Request.classOf lex s model e).DeclaresOnce ↔
    ((Request.properties e).map (·.name)).Nodup := by
  simp [DeclaresOnce, Request.classOf, Code.Field.make, Code.Field.toParameter, Function.comp_def]

end Classes

namespace Endpoint

variable {o : Named}

theorem name_of_mem_bodyFor {p : Property} (h : p ∈ bodyFor o) : p.name = "body" := by
  obtain ⟨_, _, rfl⟩ := Option.map_eq_some_iff.mp h
  rfl

-- A group is not named like a body, so only a single url parameter can be.
theorem nodup_properties_endpointOf_iff :
    ((Request.properties (endpointOf o)).map (·.name)).Nodup ↔
      ∀ u, urlParametersOf o.operation = [u] → u.name = "body" →
        ∀ p ∈ o.operation.parameters, p.location ≠ .body := by
  have hn : bodyFor o = none ↔ ∀ p ∈ o.operation.parameters, p.location ≠ .body := by
    simp [bodyFor]
  rw [← hn, Request.properties, endpointOf, urlPropertyFor]
  rcases urlParametersOf o.operation with _ | ⟨_, _ | _⟩
  case nil => cases bodyFor o <;> simp
  all_goals cases hf : bodyFor o
  case cons.nil.none  => simp
  case cons.nil.some  => simp [name_of_mem_bodyFor hf, stringProperty, Property.ofType]
  case cons.cons.none => simp
  case cons.cons.some => simp [name_of_mem_bodyFor hf, Property.ofType, groupName]

end Endpoint

-- No mapping of a document has two equal keys; its reader makes sure of that.
def Swagger.Document.IsKeyed (d : Document) : Prop :=
  (Value.map d.definitions).isKeyed ∧ (Value.map d.paths).isKeyed

instance (d : Document) : Decidable d.IsKeyed :=
  inferInstanceAs (Decidable (_ ∧ _))

namespace Blueprint

variable {passes : Nat} {d : Document} {b : Blueprint} {g : DefinitionGraph}

-- No operation gets a group in which two parameters have the same name.
def GroupsDistinctly (g : DefinitionGraph) (d : Document) : Prop :=
  ∀ o ∈ nameAll [] d.operations, ¬g.contains (o.name ++ "RequestParameters") →
    ((urlParametersOf o.operation).map (·.name)).Nodup

theorem isDistinct_of_groupsDistinctly (hk : d.IsKeyed) (hs : Synthesizes passes d g)
    (h : ofDocument passes d = .ok b) (hg : GroupsDistinctly g d) : b.graph.IsDistinct := by
  obtain ⟨created, g₁, more, g₂, hn, hm, hb⟩ := hs.stages h
  obtain ⟨_, hs⟩ := hs
  have hd := (isDistinct_ofDefinitions hk.left).steps (GraphM.settle_ok hs).left
  rw [hb]
  refine .alike (.steps ?_ (GraphM.settle_ok hm).left) <| alike_linked g₂
  refine hd.grown (ofNamed_eq_ok plainName_of_mem_nameAll hn).grown fun a ha hc => ?_
  obtain ⟨o, ho, ha⟩ := List.mem_flatMap.mp ha
  have hf : BringsFields DistinctFields o.operation :=
    bringsFields_of_mem_ofPaths Value.hereditary_isKeyed (fun _ => distinct_fieldsOf) .nil hk.right <|
      operation_mem_of_mem_nameAll ho
  rcases distinct_of_mem_additionsOf hf ha with hf | ⟨he, hu⟩
  · exact hf
  · exact hu ▸ distinct_map_stringProperty_iff.mpr (hg o ho <| he ▸ hc)

theorem groupsDistinctly_of_nodup (hs : Synthesizes passes d g) (h : ofDocument passes d = .ok b)
    (hd : ∀ e ∈ b.graph.definitions, (e.properties.map (·.name)).Nodup) :
    GroupsDistinctly g d := by
  intro o ho hc
  by_cases hl : 1 < (urlParametersOf o.operation).length
  case neg =>
    rcases hu : urlParametersOf o.operation with _ | ⟨_, _ | _⟩
    case nil | cons.nil => simp
    case cons.cons      => simp [hu] at hl
  case pos =>
    obtain ⟨e, he, hf, _⟩ := describes_of_mem_additionsOf hs h o ho _ <| mem_additionsOf_group hl
    have hg : g.get? (o.name ++ "RequestParameters") = none := by simpa [contains] using hc
    have hn : e.properties.map (·.name) = (urlParametersOf o.operation).map (·.name) := by
      simpa [hg, stringProperty, Property.ofType, Function.comp_def] using DeclaredAs.map_name hf
    exact hn ▸ hd e (mem_of_get? he)

-- The classes of all definitions declare their fields once exactly if all groups of url parameters
-- are distinct, and a request does so exactly if its only url parameter has not the name of its body.
theorem declaresOnce_iff_of_ofDocument_eq_ok (hk : d.IsKeyed) (h : ofDocument passes d = .ok b)
    (lex : Lexicon) (model api : Settings.ClassSettings) : ∃ g, Synthesizes passes d g ∧
      ((∀ e ∈ b.graph.definitions, (Model.classOf lex model e).DeclaresOnce) ↔
        GroupsDistinctly g d) ∧
      ((∀ e ∈ b.endpoints, (Request.classOf lex api model e).DeclaresOnce) ↔
        ∀ o ∈ d.operations, ∀ u, urlParametersOf o = [u] → u.name = "body" →
          ∀ p ∈ o.parameters, p.location ≠ .body) := by
  obtain ⟨g, hs⟩ := exists_synthesizes h
  refine ⟨g, hs, ?_, ?_⟩
  · simp only [declaresOnce_modelClass_iff]
    refine ⟨groupsDistinctly_of_nodup hs h, fun hg e he => ?_⟩
    exact (isDistinct_of_groupsDistinctly hk hs h hg _ e <| get?_of_mem he).names
  · simp only [declaresOnce_requestClass_iff, endpoints_eq h, List.forall_mem_map,
      nodup_properties_endpointOf_iff]
    conv_rhs => rw [← @map_operation_nameAll [] d.operations]
    simp only [List.forall_mem_map]

theorem declaresOnce_visitDocument : ∃ b, ofDocument 3 visitDocument = .ok b ∧
    (∀ e ∈ b.graph.definitions,
      (Model.classOf Language.java.lexicon (.standard .java .model) e).DeclaresOnce) ∧
    ∀ e ∈ b.endpoints, (Request.classOf Language.java.lexicon (.standard .java .api)
      (.standard .java .model) e).DeclaresOnce := by
  obtain ⟨b, _, _, _, h, _⟩ := ofDocument_visitDocument
  have hk : visitDocument.IsKeyed := by decide
  obtain ⟨g, _, hm, ha⟩ := declaresOnce_iff_of_ofDocument_eq_ok hk h Language.java.lexicon
    (.standard .java .model) (.standard .java .api)
  refine ⟨b, h, hm.mpr fun o ho _ => ?_, ha.mpr ?_⟩
  · have hu : ∀ o ∈ visitDocument.operations, ((urlParametersOf o).map (·.name)).Nodup := by
      rw [operations_visitDocument]
      decide
    exact hu _ <| operation_mem_of_mem_nameAll ho
  · rw [operations_visitDocument]
    intro o ho u hu
    cases List.mem_singleton.mp ho
    exact absurd (show _ = 1 from congrArg List.length hu) (by decide)

-- Two parameters are told apart by their places only, and a url parameter has the name of a body.
def twiceDocument : Document :=
  let idOfPath := mapOf [("name", .str "id"), ("in", .str "path"), ("required", .bool true)]
  let idOfQuery := mapOf [("name", .str "id"), ("in", .str "query")]
  let bodyOfQuery := mapOf [("name", .str "body"), ("in", .str "query")]
  let note := mapOf [("name", .str "note"), ("in", .str "body"),
    ("schema", entryOf "type" "string")]
  { documentOf [("Pet", objectOf [("name", entryOf "type" "string")])] with
    paths := [
      (.str "/pets/{id}", mapOf [("get", mapOf [("parameters", .seq [idOfPath, idOfQuery])])]),
      (.str "/notes", mapOf [("post", mapOf [("parameters", .seq [bodyOfQuery, note])])])] }

theorem schemas_twiceDocument : twiceDocument.schemas =
    [⟨"Pet", [.ofType "name" (.named "string" false) false]⟩] := by
  with_unfolding_all rfl

theorem operations_twiceDocument : twiceDocument.operations =
    [⟨"/pets/{id}", .get, none,
        [⟨"id", .path, true, .named "object" false, []⟩,
          ⟨"id", .query, false, .named "object" false, []⟩], []⟩,
      ⟨"/notes", .post, none,
        [⟨"body", .query, false, .named "object" false, []⟩,
          ⟨"note", .body, false, .named "string" false, []⟩], []⟩] := by
  with_unfolding_all rfl

theorem declares_twice_twiceDocument : ∃ b, twiceDocument.IsKeyed ∧
    ofDocument 3 twiceDocument = .ok b ∧
    (∃ e ∈ b.graph.definitions, (Model.classOf Language.java.lexicon (.standard .java .model)
      e).fields.map (·.name) = ["id", "id"]) ∧
    ∃ e ∈ b.endpoints, (Request.classOf Language.java.lexicon (.standard .java .api)
      (.standard .java .model) e).fields.map (·.name) = ["body", "body"] := by
  rw [ofDocument, initialGraph, assemble, schemas_twiceDocument, operations_twiceDocument]
  exact ⟨_, by decide, rfl, ⟨_, .tail _ <| .head _, rfl⟩, _, .tail _ <| .head _, rfl⟩

end Blueprint

end Classwright
