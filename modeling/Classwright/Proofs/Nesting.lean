import Classwright.Proofs.Graph.Nesting
import Classwright.Proofs.Table.Flatten

namespace Classwright

open Schema Swagger Yaml DefinitionGraph Endpoint Relation Classes.Table

namespace DefinitionGraph

variable {g g' : DefinitionGraph} {n m : String}

-- A property of `n` leads to the definition `m`, which has no table.
def Leads (g : DefinitionGraph) (n m : String) : Prop :=
  ∃ p ∈ g.propertiesOf n, ¬p.type.isScalarElement ∧ p.type.element.name = m ∧ g.contains m ∧
    ¬g.needsTable m

instance (g : DefinitionGraph) (n m : String) : Decidable (g.Leads n m) :=
  inferInstanceAs (Decidable (∃ p ∈ _, _))

theorem Leads.nests (hf : ∀ n d, g.get? n = some d → ∀ p ∈ d.properties, g.Flat p)
    (h : g.Leads n m) : g.Nests n m := by
  obtain ⟨p, hp, hs, rfl, hc, ht⟩ := h
  have hn := needsSynthesis_iff.mpr ⟨hs, ht⟩
  obtain ⟨d, hd, hpd⟩ := exists_of_mem_propertiesOf hp
  exact ⟨p, hp, .refers hn (hf n d hd p hpd hn) rfl hc⟩

theorem Alike.leads (ha : g'.Alike g) (h : g'.Leads n m) : g.Leads n m := by
  obtain ⟨p, hp, hs, rfl, hc, ht⟩ := h
  obtain ⟨d', hd', hp⟩ := exists_of_mem_propertiesOf hp
  obtain ⟨d, hd, q, hq, hqp⟩ := ha.exists_of_mem hd' hp
  have he : q.type = p.type := congrArg (·.type) hqp
  refine ⟨q, (mem_propertiesOf hd).mpr hq, he ▸ hs, he ▸ rfl, ?_, ?_⟩
  · rwa [← ha.contains_eq]
  · rwa [← ha.needsTable_eq]

theorem Flattens.leads (h : g.Flattens n m) : g.Leads n m := by
  obtain ⟨p, hp, ⟨hs, _, hc, ht⟩, rfl⟩ := h
  exact ⟨p, hp, hs, rfl, hc, ht⟩

end DefinitionGraph

namespace Blueprint

variable {passes : Nat} {d : Document} {b : Blueprint}

-- A property whose name has no slash, and whose type, if it has one to look up, is in the document.
def Traceable (start : DefinitionGraph) (p : Property) : Prop :=
  PlainName p.name ∧ start.Rooted p

instance {start : DefinitionGraph} : DecidablePred (Traceable start) :=
  fun _ => inferInstanceAs (Decidable (_ ∧ _))

structure IsTraceable (d : Document) : Prop where
  schemas : ∀ s ∈ d.schemas, PlainName s.name ∧
    ∀ p ∈ s.properties, Property.Deep (Traceable (initialGraph d)) p
  operations : ∀ o ∈ d.operations, InlineFields (Traceable (initialGraph d)) o

-- All properties that synthesis looks at on the way to a blueprint.
def visits (passes : Nat) (d : Document) : List Visit :=
  let g := initialGraph d
  GraphM.settleVisits passes g.names g ++
    match GraphM.settle passes g.names g with
    | .error .. => []
    | .ok _ g => match ofNamed (nameAll [] d.operations) g with
      | .error .. => []
      | .ok (_, created) g => GraphM.settleVisits passes created g

theorem layered_initialGraph (hd : IsTraceable d) (hn : ∀ n, ¬TransGen (initialGraph d).Nests n n) :
    (initialGraph d).Layered where
  named := wellNamed_ofSchemas fun s hs =>
    ⟨(hd.schemas s hs).left, fun p hp => ((hd.schemas s hs).right p hp).mono fun _ h => h.left⟩
  tabled := .ofSchemas
  rooted := .ofSchemas fun s hs p hp => ((hd.schemas s hs).right p hp).mono fun _ h => h.right
  nested := isWellNested_of_acyclic hn

theorem layered_and_flat_of_assemble {endpoints : List Endpoint} {g' : DefinitionGraph}
    (hd : IsTraceable d) (hn : ∀ n, ¬TransGen (initialGraph d).Nests n n)
    (hv : ∀ v ∈ visits passes d, v.IsHarmless)
    (h : assemble passes d (initialGraph d) = .ok endpoints g') :
    g'.Layered ∧ ∀ n e, g'.get? n = some e → ∀ p ∈ e.properties, g'.Flat p := by
  obtain ⟨created, g₁, h₁, h⟩ := assemble_eq_ok h
  obtain ⟨names, g₂, more, h₂, h₃⟩ := ofOperations_eq_ok h
  rw [visits, h₁] at hv
  simp only [h₂] at hv
  have ⟨hv₁, hv₃⟩ := List.forall_mem_append.mp hv
  have s₁ := (GraphM.settle_ok h₁).left
  have s₃ := (GraphM.settle_ok h₃).left
  have hl₀ := layered_initialGraph hd hn
  have hl₁ := s₁.layered hv₁ hl₀
  have hg := (ofNamed_eq_ok plainName_of_mem_nameAll h₂).grown
  have hl₂ : g₂.Layered := by
    refine Grown.layered hg hl₁ fun a ha => ?_
    obtain ⟨o, ho, ha⟩ := List.mem_flatMap.mp ha
    refine ⟨plainName_of_mem_additionsOf (plainName_of_mem_nameAll o ho) ha,
      not_isBuiltIn_of_mem_additionsOf ha, fun p hp => ?_⟩
    refine (hd.operations o.operation <| operation_mem_of_mem_nameAll ho).of_addition ha p hp |>.mono ?_
    exact fun p h => h.imp_right (·.of_extends s₁.extends)
  refine ⟨s₃.layered hv₃ hl₂, fun n e he p hp => ?_⟩
  refine of_establishes establishes_flat_of_layered (fun n e he p hp => ?_) h₂ hl₂ h₃ hv₃ he hp
  exact establishes_flat_of_layered.of_settle hl₀ h₁ hv₁
    (fun _ _ hm he => absurd (mem_names_of_get? he) hm) he hp

-- In the blueprint, no definition without a table comes back to itself, so the columns of each
-- definition, and what is read from them, come to an end.
theorem acyclic_of_ofDocument_eq_ok (hd : IsTraceable d)
    (hn : ∀ n, ¬TransGen (initialGraph d).Nests n n) (hv : ∀ v ∈ visits passes d, v.IsHarmless)
    (h : ofDocument passes d = .ok b) :
    (∀ n, ¬TransGen b.graph.Leads n n) ∧
      ∀ n e, b.graph.get? n = some e → b.graph.HasFiniteRow n ∧
        errorsOfParts (storedParts b.graph e) = [] := by
  have hr := (isBuilt_of_ofDocument_eq_ok h).resolves
  obtain ⟨endpoints, g, ha, rfl⟩ := assemble_of_ofDocument_eq_ok h
  have ⟨hl, hf⟩ := layered_and_flat_of_assemble hd hn hv ha
  have hw : WellFounded (flip g.linked.Leads) :=
    Subrelation.wf (fun hl => ((alike_linked g).leads hl).nests hf) hl.nested
  have hrow : ∀ n, g.linked.HasFiniteRow n :=
    fun n => (Subrelation.wf (fun h => Flattens.leads h) hw).apply n
  exact ⟨fun _ => not_transGen_of_wellFounded hw,
    fun n e he => ⟨hrow n, (errorsOfParts_storedParts_eq_nil_iff hr he).mpr <| hrow n⟩⟩

-- An address is a reference to a location, but there is a definition `Address`.
def homeDocument : Document :=
  documentOf [("Owner", objectOf [("id", entryOf "type" "integer"),
      ("home", objectOf [("address", entryOf "$ref" "#/definitions/Location")])]),
    ("Address", objectOf [("street", entryOf "type" "string")]),
    ("Location", objectOf [("latitude", entryOf "type" "number")])]

theorem schemas_homeDocument : homeDocument.schemas =
    [⟨"Owner", [.ofType "id" (.named "integer" false) false,
        { Property.ofType "home" (.named "object" false) false with
          fields := [.ofType "address" (.named "Location" false) false] }]⟩,
      ⟨"Address", [.ofType "street" (.named "string" false) false]⟩,
      ⟨"Location", [.ofType "latitude" (.named "number" false) false]⟩] := by
  with_unfolding_all rfl

theorem acyclic_homeDocument : ∃ b, ofDocument 3 homeDocument = .ok b ∧
    b.graph.Leads "Home" "Address" ∧ ∀ n, ¬TransGen b.graph.Leads n n := by
  have hd : IsTraceable homeDocument := by
    refine ⟨?_, by decide⟩
    rw [initialGraph, schemas_homeDocument]
    decide
  have hn : ∀ n, ¬TransGen (initialGraph homeDocument).Nests n n := by
    rw [initialGraph, schemas_homeDocument]
    exact not_transGen_nests <| by decide
  have hv : ∀ v ∈ visits 3 homeDocument, v.IsShallow := by
    simp only [visits, initialGraph, schemas_homeDocument]
    decide
  obtain ⟨b, hb, hl⟩ : ∃ b, ofDocument 3 homeDocument = .ok b ∧ b.graph.Leads "Home" "Address" := by
    rw [ofDocument, initialGraph, schemas_homeDocument]
    exact ⟨_, rfl, by decide⟩
  exact ⟨b, hb, hl, (acyclic_of_ofDocument_eq_ok hd hn (fun v hm => (hv v hm).isHarmless) hb).left⟩

-- The row of a family has a parent. A parent's child and a child's parent are references to a person,
-- but there are definitions of these names.
def familyDocument : Document :=
  documentOf [("Family", objectOf [("id", entryOf "type" "integer"),
      ("parent", entryOf "$ref" "#/definitions/Parent")]),
    ("Parent", objectOf [("child", entryOf "$ref" "#/definitions/Person")]),
    ("Child", objectOf [("parent", entryOf "$ref" "#/definitions/Person")]),
    ("Person", objectOf [("name", entryOf "type" "string")])]

theorem schemas_familyDocument : familyDocument.schemas =
    [⟨"Family", [.ofType "id" (.named "integer" false) false,
        .ofType "parent" (.named "Parent" false) false]⟩,
      ⟨"Parent", [.ofType "child" (.named "Person" false) false]⟩,
      ⟨"Child", [.ofType "parent" (.named "Person" false) false]⟩,
      ⟨"Person", [.ofType "name" (.named "string" false) false]⟩] := by
  with_unfolding_all rfl

-- A reference to a definition that an inline object is given. It leads back to where it stands.
def circleDocument : Document :=
  documentOf [("Owner", objectOf [("address", objectOf [("office",
    entryOf "$ref" "#/definitions/Office")])]),
    ("Office", objectOf [("place", entryOf "$ref" "#/definitions/Address")])]

theorem schemas_circleDocument : circleDocument.schemas =
    [⟨"Owner", [{ Property.ofType "address" (.named "object" false) false with
        fields := [.ofType "office" (.named "Office" false) false] }]⟩,
      ⟨"Office", [.ofType "place" (.named "Address" false) false]⟩] := by
  with_unfolding_all rfl

-- A name with a slash, of which the last part is the name of the owner.
def ownNameDocument : Document :=
  documentOf [("Owner", objectOf [("home/Owner", objectOf [("street", entryOf "type" "string")])])]

theorem schemas_ownNameDocument : ownNameDocument.schemas =
    [⟨"Owner", [{ Property.ofType "home/Owner" (.named "object" false) false with
        fields := [.ofType "street" (.named "string" false) false] }]⟩] := by
  with_unfolding_all rfl

-- What a response holds leads to a definition, and to one that is made of it.
def answerDocument : Document :=
  let answer := objectOf [("address", objectOf [("kind", objectOf [("home",
    entryOf "$ref" "#/definitions/Address")])])]
  let entry (key : String) (value : Value) : Value := .map [(.str key, value)]
  { documentOf [("Pet", objectOf [("id", entryOf "type" "integer")])] with
    paths := [(.str "/homes",
      entry "get" <| entry "responses" <| entry "200" <| entry "schema" answer)] }

theorem schemas_answerDocument : answerDocument.schemas =
    [⟨"Pet", [.ofType "id" (.named "integer" false) false]⟩] := by
  with_unfolding_all rfl

theorem operations_answerDocument : answerDocument.operations =
    [⟨"/homes", .get, none, [], [⟨200, some (.named "object" false),
      [{ Property.ofType "address" (.named "object" false) false with
        fields := [{ Property.ofType "kind" (.named "object" false) false with
          fields := [.ofType "home" (.named "Address" false) false] }] }]⟩]⟩] := by
  with_unfolding_all rfl

-- A circle is closed that the document does not have.
def ClosesCircle (passes : Nat) (d : Document) : Prop :=
  (∀ n, ¬TransGen (initialGraph d).Nests n n) ∧
    ∃ b, ofDocument passes d = .ok b ∧ ∃ n, TransGen b.graph.Leads n n

-- References may be taken for others that lead back, and then the columns of a table do not come to an
-- end. Without that, circles are still closed by names that stand for other definitions, or for none
-- yet.
theorem circles : ClosesCircle 3 familyDocument ∧
    (∃ b d, ofDocument 3 familyDocument = .ok b ∧ b.graph.get? "Family" = some d ∧ d.needsTable ∧
      b.graph.Recurs "Family") ∧
    ClosesCircle 3 circleDocument ∧ ClosesCircle 3 ownNameDocument ∧
    ClosesCircle 5 answerDocument := by
  refine ⟨?_, ?_, ?_, ?_, ?_⟩
  · rw [ClosesCircle, ofDocument, initialGraph, schemas_familyDocument]
    exact ⟨not_transGen_nests <| by decide, _, rfl, "Parent", .head (b := "Child") (by decide) <|
      .single <| by decide⟩
  · rw [ofDocument, initialGraph, schemas_familyDocument]
    exact ⟨_, _, rfl, rfl, rfl, "Parent", .single <| by decide,
      .head (b := "Child") (by decide) <| .single <| by decide⟩
  · rw [ClosesCircle, ofDocument, initialGraph, schemas_circleDocument]
    exact ⟨not_transGen_nests <| by decide, _, rfl, "Office", .head (b := "Place") (by decide) <|
      .single <| by decide⟩
  · rw [ClosesCircle, ofDocument, initialGraph, schemas_ownNameDocument]
    exact ⟨not_transGen_nests <| by decide, _, rfl, "Owner", .single <| by decide⟩
  · rw [ClosesCircle, ofDocument, initialGraph, assemble, schemas_answerDocument,
      operations_answerDocument]
    exact ⟨not_transGen_nests <| by decide, _, rfl, "Kind", .head (b := "Home") (by decide) <|
      .single <| by decide⟩

end Blueprint

end Classwright
