import Classwright.Proofs.Frame
import Classwright.Proofs.Stages

namespace Classwright

open Schema Swagger Yaml DefinitionGraph Endpoint

namespace DefinitionGraph

-- A property of a definition as it was declared. Synthesis may give it another type, but not if it is
-- a scalar.
structure DeclaredAs (p q : Property) : Prop where
  name       : p.name = q.name
  required   : p.required = q.required
  default    : p.default = q.default
  enumValues : p.enumValues = q.enumValues
  scalar     : q.type.isScalarElement → unlinkProperty p = unlinkProperty q

namespace DeclaredAs

variable {p q r : Property} {g : DefinitionGraph}

theorem of_unlinkProperty (h : unlinkProperty p = unlinkProperty q) : DeclaredAs p q where
  name       := congrArg (·.name) h
  required   := congrArg (·.required) h
  default    := congrArg (·.default) h
  enumValues := congrArg (·.enumValues) h
  scalar _   := h

theorem of_framed (h : FramedProperty g p q) : DeclaredAs p q where
  name       := h.name
  required   := h.required
  default    := h.default
  enumValues := h.enumValues
  scalar hs  := congrArg unlinkProperty <| h.settled <| .inl hs

theorem trans (h₁ : DeclaredAs p q) (h₂ : DeclaredAs q r) : DeclaredAs p r where
  name       := h₁.name.trans h₂.name
  required   := h₁.required.trans h₂.required
  default    := h₁.default.trans h₂.default
  enumValues := h₁.enumValues.trans h₂.enumValues
  scalar hs  :=
    have ht : q.type = r.type := congrArg (·.type) <| h₂.scalar hs
    (h₁.scalar <| ht ▸ hs).trans <| h₂.scalar hs

theorem map_name {ps qs : List Property} (h : List.Forall₂ DeclaredAs ps qs) :
    ps.map (·.name) = qs.map (·.name) := by
  induction h
  case nil          => rfl
  case cons hp _ ih => rw [List.map_cons, List.map_cons, hp.name, ih]

end DeclaredAs

variable {g g' g'' : DefinitionGraph} {n : String} {fields : List Property}
  {adds : List (String × List Property)} {created : List String} {a : String × List Property}

-- The definition `n` has the given fields, or those that it already had in `g`. It has a table
-- exactly if one of its fields is an `id`.
def Describes (g g' : DefinitionGraph) (n : String) (fields : List Property) : Prop :=
  ∃ d, g'.get? n = some d ∧
    List.Forall₂ DeclaredAs d.properties (((g.get? n).map (·.properties)).getD fields) ∧
    (d.needsTable ↔ ∃ p ∈ d.properties, p.name = "id")

-- There is a definition `n`. If `g` has none, it is made of the given fields.
def Makes (g g' : DefinitionGraph) (n : String) (fields : List Property) : Prop :=
  ∃ d, g'.get? n = some d ∧ (g.get? n = none →
    List.Forall₂ DeclaredAs d.properties fields ∧ (d.needsTable ↔ ∃ p ∈ fields, p.name = "id"))

theorem Describes.makes (h : Describes g g' n fields) : Makes g g' n fields := by
  obtain ⟨d, hd, hf, ht⟩ := h
  refine ⟨d, hd, fun hn => ?_⟩
  rw [hn] at hf
  have hi : "id" ∈ d.properties.map (·.name) ↔ "id" ∈ fields.map (·.name) := by
    rw [DeclaredAs.map_name hf]
    rfl
  exact ⟨hf, ht.trans <| by simpa using hi⟩

theorem Grown.exists_properties (h : g.Grown adds created g') (hn : (adds.map Prod.fst).Nodup)
    (ha : a ∈ adds) : ∃ d, g'.get? a.fst = some d ∧
      d.properties = ((g.get? a.fst).map (·.properties)).getD a.snd := by
  cases hd : g.get? a.fst
  case some d =>
    obtain ⟨tag, hd'⟩ := h.kept _ d hd
    exact ⟨_, hd', rfl⟩
  case none =>
    obtain ⟨tag, hd'⟩ := h.get?_of_mem hn ha <| by simp [contains, hd]
    exact ⟨_, hd', rfl⟩

theorem forall₂_of_alike (h : g'.Alike g) {d : Definition} (hd : g.get? n = some d) :
    ∃ d', g'.get? n = some d' ∧ List.Forall₂ DeclaredAs d'.properties d.properties := by
  obtain ⟨d', hd', hp, _⟩ := h.exists_of_get? hd
  have hf := List.forall₂_map_left_iff.mp <| List.forall₂_map_right_iff.mp <|
    List.forall₂_eq_eq_eq ▸ hp
  exact ⟨d', hd', hf.imp fun _ _ => .of_unlinkProperty⟩

end DefinitionGraph

namespace Blueprint

variable {passes : Nat} {d : Document} {b : Blueprint}

theorem describes_of_mem_additionsOf {g : DefinitionGraph} (hs : Synthesizes passes d g)
    (h : ofDocument passes d = .ok b) : ∀ o ∈ nameAll [] d.operations, ∀ a ∈ additionsOf o,
      Describes g b.graph a.fst a.snd := by
  intro o ho a ha
  obtain ⟨created, g₁, more, g₂, hn, hm, hb⟩ := hs.stages h
  have hg := (ofNamed_eq_ok plainName_of_mem_nameAll hn).grown
  have hu := nodup_additions <| @nodup_nameAll [] d.operations |>.left
  -- The definition is made by the endpoints, its properties get types, and then links.
  obtain ⟨d₁, hd₁, hp⟩ := hg.exists_properties hu <| List.mem_flatMap.mpr ⟨o, ho, ha⟩
  obtain ⟨d₂, hd₂, hf⟩ := (GraphM.settle_ok hm).left.framed _ d₁ hd₁
  obtain ⟨d₃, hd₃, hl⟩ := forall₂_of_alike (alike_linked g₂) hd₂
  rw [← hb] at hd₃
  refine ⟨d₃, hd₃, hp ▸ ?_, ?_⟩
  · exact forall₂_trans hl (hf.properties.imp fun _ _ => .of_framed) fun _ _ _ => .trans
  · simpa [idName] using tabled_of_ofDocument_eq_ok h _ d₃ hd₃

end Blueprint

namespace Endpoint

-- What the endpoint of an operation names: a group of its url parameters, and the types of its body
-- and responses. Inline types are replaced by definitions that have their fields.
structure Shaped (g g' : DefinitionGraph) (o : Named) (e : Endpoint) : Prop where
  urlParameters : e.urlParameters = urlParametersOf o.operation
  group : 1 < e.urlParameters.length →
    e.urlProperty = some (.ofType "parameters" (.named (o.name ++ "RequestParameters") false) true) ∧
      Makes g g' (o.name ++ "RequestParameters") (e.urlParameters.map stringProperty)
  body    : e.body.map (·.type) = (bodySlot? o.operation).map (·.typeFor o.name)
  success : e.success =
    (responseSlot? (successOf? o.operation) "SuccessResponse").map (·.typeFor o.name)
  failure : e.failure =
    (responseSlot? (failureOf? o.operation) "ErrorResponse").map (·.typeFor o.name)
  inline  : ∀ s ∈ slotsOf o.operation, s.isInline →
    (s.typeFor o.name).element = .named (o.name ++ s.ending) false ∧
      Makes g g' (o.name ++ s.ending) s.fields

variable {o : Named} {s : Slot}

theorem element_typeFor (hp : PlainName (o.name ++ s.ending)) (hi : s.isInline) :
    (s.typeFor o.name).element = .named (o.name ++ s.ending) false := by
  rw [Slot.typeFor, if_pos hi, TypeRef.element_withElement_ofName, TypeRef.ofName_eq hp]

theorem mem_additionsOf_group (h : 1 < (urlParametersOf o.operation).length) :
    (o.name ++ "RequestParameters", (urlParametersOf o.operation).map stringProperty) ∈
      additionsOf o := by
  refine List.mem_append_left _ ?_
  rw [groupAdditions]
  rcases hu : urlParametersOf o.operation with _ | ⟨_, _ | _⟩
  case nil | cons.nil => simp [hu] at h
  case cons.cons      => exact List.mem_singleton_self _

theorem mem_additionsOf_slot (hs : s ∈ slotsOf o.operation) (hi : s.isInline) :
    (o.name ++ s.ending, s.fields) ∈ additionsOf o := by
  refine List.mem_append_right _ <| List.mem_flatMap.mpr ⟨s, hs, ?_⟩
  rw [Slot.additions, if_pos hi]
  exact List.mem_singleton_self _

theorem urlProperty_endpointOf (hp : PlainName o.name)
    (h : 1 < (urlParametersOf o.operation).length) : (endpointOf o).urlProperty =
      some (.ofType "parameters" (.named (o.name ++ "RequestParameters") false) true) := by
  have hg : PlainName (groupDefinition o.name) := hp.append <| by decide
  rw [endpointOf, urlPropertyFor]
  rcases hu : urlParametersOf o.operation with _ | ⟨_, _ | _⟩
  case nil | cons.nil => simp [hu] at h
  case cons.cons      =>
    exact congrArg (fun type => some (Property.ofType "parameters" type true)) <|
      TypeRef.ofName_eq hg

end Endpoint

namespace Blueprint

variable {passes : Nat} {d : Document} {b : Blueprint}

-- Every endpoint has the shape that its operation declares.
theorem shaped_of_ofDocument_eq_ok (h : ofDocument passes d = .ok b) :
    ∃ g, Synthesizes passes d g ∧
      List.Forall₂ (Shaped g b.graph) (nameAll [] d.operations) b.endpoints := by
  obtain ⟨g, hs⟩ := exists_synthesizes h
  have hd := describes_of_mem_additionsOf hs h
  refine ⟨g, hs, ?_⟩
  rw [endpoints_eq h, List.forall₂_map_right_iff, List.forall₂_same]
  intro o ho
  have hp := plainName_of_mem_nameAll o ho
  refine ⟨rfl, fun hl => ⟨urlProperty_endpointOf hp hl, ?_⟩, ?_, rfl, rfl, fun s hs hi => ⟨?_, ?_⟩⟩
  · exact hd o ho _ (mem_additionsOf_group hl) |>.makes
  · simp only [endpointOf, bodyFor, bodySlot?, Option.map_map]
    rfl
  · have he := plainName_of_mem_endings _ <| mem_endings_of_mem_slotsOf hs
    exact element_typeFor (hp.append he) hi
  · exact hd o ho _ (mem_additionsOf_slot hs hi) |>.makes

def mapOf (entries : List (String × Value)) : Value :=
  .map <| entries.map fun (key, value) => (.str key, value)

-- The visit of an owner has two parameters in its url, and its body and response are inline.
def visitDocument : Document :=
  let owner := mapOf [("name", .str "owner"), ("in", .str "path"), ("required", .bool true)]
  let limit := mapOf [("name", .str "limit"), ("in", .str "query")]
  let visit := objectOf [("day", entryOf "type" "string"), ("pet", entryOf "$ref" "Pet")]
  let body := mapOf [("name", .str "visit"), ("in", .str "body"), ("schema", visit)]
  let answer := mapOf [("schema", arrayOf <| objectOf [("name", entryOf "type" "string")])]
  { documentOf [("Pet", objectOf [("id", entryOf "type" "integer")])] with
    paths := [(.str "/visits/{owner}", mapOf [("post", mapOf [
      ("parameters", .seq [owner, limit, body]), ("responses", mapOf [("200", answer)])])])] }

theorem schemas_visitDocument : visitDocument.schemas =
    [⟨"Pet", [.ofType "id" (.named "integer" false) false]⟩] := by
  with_unfolding_all rfl

theorem operations_visitDocument : visitDocument.operations =
    [⟨"/visits/{owner}", .post, none,
      [⟨"owner", .path, true, .named "object" false, []⟩,
        ⟨"limit", .query, false, .named "object" false, []⟩,
        ⟨"visit", .body, false, .named "object" false,
          [.ofType "day" (.named "string" false) false, .ofType "pet" (.named "Pet" false) false]⟩],
      [⟨200, some (.holding "array" (.named "object" false) false),
        [.ofType "name" (.named "string" false) false]⟩]⟩] := by
  with_unfolding_all rfl

theorem ofDocument_visitDocument : ∃ b e o s, ofDocument 3 visitDocument = .ok b ∧
    b.endpoints = [e] ∧ nameAll [] visitDocument.operations = [o] ∧ o.name = "PostVisitsByOwner" ∧
    e.urlParameters.map (·.name) = ["owner", "limit"] ∧ s ∈ slotsOf o.operation ∧ s.isInline ∧
    s.ending = "SuccessResponse" ∧ s.fields = [.ofType "name" (.named "string" false) false] := by
  rw [ofDocument, initialGraph, assemble, schemas_visitDocument, operations_visitDocument]
  exact ⟨_, _, _, _, rfl, rfl, rfl, rfl, rfl, List.mem_of_getElem? (i := 1) rfl, rfl, rfl, rfl⟩

theorem shaped_visitDocument : ∃ b e group response, ofDocument 3 visitDocument = .ok b ∧
    b.endpoints = [e] ∧ e.urlParameters.map (·.name) = ["owner", "limit"] ∧
    b.graph.get? "PostVisitsByOwnerRequestParameters" = some group ∧
    List.Forall₂ DeclaredAs group.properties (e.urlParameters.map stringProperty) ∧
    ¬group.needsTable ∧
    b.graph.get? "PostVisitsByOwnerSuccessResponse" = some response ∧
    List.Forall₂ DeclaredAs response.properties [.ofType "name" (.named "string" false) false] := by
  obtain ⟨b, e, o, s, h, he, ho, hn, hl, hs, hi, hse, hsf⟩ := ofDocument_visitDocument
  obtain ⟨g, ⟨created, hg⟩, hf⟩ := shaped_of_ofDocument_eq_ok h
  have hg : g.names = ["Pet"] := by
    rw [initialGraph, schemas_visitDocument] at hg
    cases hg
    rfl
  rw [ho, he] at hf
  have hf := (List.forall₂_cons.mp hf).left
  have hlen : e.urlParameters.length = 2 := by simpa using congrArg List.length hl
  have hfree : ∀ n, n ≠ "Pet" → g.get? n = none := fun n hn =>
    get?_eq_none_iff.mpr <| hg ▸ mt List.mem_singleton.mp hn
  obtain ⟨_, group, hd, hm⟩ := hf.group <| hlen ▸ Nat.one_lt_two
  obtain ⟨_, response, hr, hm'⟩ := hf.inline s hs hi
  rw [hn] at hd hm hr hm'
  rw [hse] at hr hm'
  obtain ⟨hp, ht⟩ := hm <| hfree _ (by decide)
  refine ⟨b, e, group, response, h, he, hl, hd, hp, fun hk => ?_, hr,
    hsf ▸ (hm' <| hfree _ (by decide)).left⟩
  -- Neither of the two is an `id`.
  obtain ⟨_, hp, hi⟩ := ht.mp hk
  obtain ⟨u, hm, rfl⟩ := List.mem_map.mp hp
  have hu : u.name ∈ e.urlParameters.map (·.name) := List.mem_map_of_mem hm
  rw [show u.name = "id" from hi, hl] at hu
  exact absurd hu (by decide)

-- A group with an `id`.
def pagedDocument : Document :=
  let id := mapOf [("name", .str "id"), ("in", .str "path"), ("required", .bool true)]
  let limit := mapOf [("name", .str "limit"), ("in", .str "query")]
  { documentOf [] with
    paths := [(.str "/pets/{id}", mapOf [("get", mapOf [("parameters", .seq [id, limit])])])] }

theorem operations_pagedDocument : pagedDocument.operations =
    [⟨"/pets/{id}", .get, none,
      [⟨"id", .path, true, .named "object" false, []⟩,
        ⟨"limit", .query, false, .named "object" false, []⟩], []⟩] := by
  with_unfolding_all rfl

-- A group of parameters gets a table if it has an `id`.
theorem tabled_pagedDocument : ∃ b e group, ofDocument 3 pagedDocument = .ok b ∧ b.endpoints = [e] ∧
    e.urlParameters.map (·.name) = ["id", "limit"] ∧
    (e.urlProperty.bind fun p => b.graph.get? p.type.element.name) = some group ∧
    group.needsTable := by
  rw [ofDocument, initialGraph, assemble, operations_pagedDocument]
  exact ⟨_, _, _, rfl, rfl, rfl, rfl, rfl⟩

end Blueprint

end Classwright
