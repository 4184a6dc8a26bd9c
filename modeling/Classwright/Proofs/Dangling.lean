import Classwright.Proofs.Blueprint
import Classwright.Proofs.Closure
import Classwright.Proofs.Graph.Dangling

namespace Classwright.Blueprint

open Schema Swagger DefinitionGraph Endpoint

variable {passes : Nat} {d : Document} {g g₁ g₂ g' : DefinitionGraph} {endpoints : List Endpoint}
  {created : List String} {e : Error} {p : Property}

-- The graph in which synthesis over the definitions of the document ends.
def settledGraph (passes : Nat) (d : Document) : DefinitionGraph :=
  match GraphM.settle passes (initialGraph d).names (initialGraph d) with
  | .ok _ g => g
  | .error _ g => g

-- The graph in which the whole run ends.
def endGraph (passes : Nat) (d : Document) : DefinitionGraph :=
  match assemble passes d (initialGraph d) with
  | .ok _ g => g
  | .error _ g => g

-- The properties that a document puts into the graph: those of its definitions, and those of inline
-- bodies and responses, unless the definition made for them would have the name of another one.
inductive Brings (passes : Nat) (d : Document) : Property → Prop
  | definition {n e p} : (initialGraph d).get? n = some e → p ∈ e.properties → Brings passes d p
  | slot {o : Named} {s : Slot} {p} : o ∈ nameAll [] d.operations → s ∈ slotsOf o.operation →
      s.isInline → ¬(settledGraph passes d).contains (o.name ++ s.ending) → p ∈ s.fields →
      Brings passes d p

-- A type that the document names dangles in the end: that of a property, at any depth, or that of a
-- body or response.
def Dangles (passes : Nat) (d : Document) : Prop :=
  (∃ p q, Brings passes d p ∧ (initialGraph d).StandsIn q p ∧ (endGraph passes d).Dangling q) ∨
    ∃ o ∈ nameAll [] d.operations, ∃ s ∈ slotsOf o.operation, ¬Accepts (endGraph passes d) s

-- Names without slashes, and inline fields only of properties whose type stands for the same thing
-- throughout the run.
def Regular (start : DefinitionGraph) (p : Property) : Prop :=
  PlainName p.name ∧ start.Steady p

instance {start : DefinitionGraph} : DecidablePred (Regular start) :=
  fun _ => inferInstanceAs (Decidable (_ ∧ _))

structure IsRegular (d : Document) : Prop where
  schemas : ∀ s ∈ d.schemas, PlainName s.name ∧
    ∀ p ∈ s.properties, Property.Deep (Regular (initialGraph d)) p
  operations : ∀ o ∈ d.operations, AllFields (Regular (initialGraph d)) o

namespace IsRegular

theorem wellNamed (h : IsRegular d) : (initialGraph d).WellNamed :=
  wellNamed_ofSchemas fun s hs =>
    ⟨(h.schemas s hs).left, fun p hp => ((h.schemas s hs).right p hp).mono fun _ h => h.left⟩

theorem plainFields (h : IsRegular d) :
    ∀ o ∈ d.operations, AllFields (fun p => PlainName p.name) o :=
  fun o ho => (h.operations o ho).mono fun _ h => h.left

end IsRegular

-- Of the properties in the graph, those that the endpoints added are part of the document as well.
theorem originates_of_ofNamed {roots : Property → Prop} {start : DefinitionGraph}
    (h : Originates start roots g)
    (hr : ∀ o ∈ nameAll [] d.operations, ∀ s ∈ slotsOf o.operation, s.isInline →
      ¬g.contains (o.name ++ s.ending) → ∀ p ∈ s.fields, roots p)
    (hn : ofNamed (nameAll [] d.operations) g = .ok (endpoints, created) g') :
    Originates start roots g' := by
  have hg := (ofNamed_eq_ok plainName_of_mem_nameAll hn).grown
  intro n e he p hp
  rcases hg.get?_cases he with ⟨e, _, hd, rfl⟩ | ⟨hc, fields, _, hm, rfl⟩
  · exact (h n e hd p hp).imp_left fun h => ⟨h.left, hg.extends.resolves h.right⟩
  · obtain ⟨o, ho, ha⟩ := List.mem_flatMap.mp hm
    rcases mem_additionsOf ha with ⟨_, hs⟩ | ⟨s, hs, hi, ha⟩
    · exact .inl ⟨(hs p hp).right, by simp [resolves, (hs p hp).left]⟩
    · obtain ⟨rfl, rfl⟩ := Prod.mk.inj ha
      exact .inr ⟨p, hr o ho s hs hi hc p hp, .here⟩

theorem dangles_of_assemble_eq_error (hd : IsRegular d)
    (h : assemble passes d (initialGraph d) = .error e g') (he : e ≠ .unsettled) :
    (∃ n p t, e = .danglingReference n p t) ∧ Dangles passes d := by
  have hend : endGraph passes d = g' := by simp [endGraph, h]
  have hw := hd.wellNamed
  have ho : Originates (initialGraph d) (Brings passes d) (initialGraph d) :=
    fun n e he p hp => .inr ⟨p, .definition he hp, .here⟩
  rw [Dangles, hend]
  rcases assemble_eq_error h with h | ⟨created, g₁, h₁, h⟩
  -- Synthesis over the definitions fails.
  · have hf := (GraphM.settle_error (List.Subset.refl _) h).resolve_left fun h => he h.left
    have ⟨he, p, q, hp, hq, hdang⟩ := ho.exists_of_fails hw (.refl _) hf
    exact ⟨he, .inl ⟨p, q, hp, hq, hdang⟩⟩
  have hset : settledGraph passes d = g₁ := by simp [settledGraph, h₁]
  have s₁ := (GraphM.settle_ok h₁).left
  rcases ofOperations_eq_error h with h | ⟨endpoints, names, g₂, h₂, h⟩
  -- An endpoint names a type that is missing.
  · have hf := ofNamed_eq_error plainName_of_mem_nameAll h
    obtain ⟨s, hs, ha⟩ := hf.slot
    obtain ⟨o, ho, hs⟩ := List.mem_flatMap.mp hs
    exact ⟨hf.dangling, .inr ⟨o, ho, s, hs, ha⟩⟩
  -- Synthesis over what the endpoints added fails.
  · have hg := (ofNamed_eq_ok plainName_of_mem_nameAll h₂).grown
    have hw₂ := wellNamed_of_ofNamed (hw.steps s₁) hd.plainFields h₂
    have hn : names ⊆ g₂.names := by simp [hg.names]
    have hf := (GraphM.settle_error hn h).resolve_left fun h => he h.left
    have ho₂ := originates_of_ofNamed (ho.steps hw (.refl _) s₁)
      (fun o ho s hs hi hc p hp => .slot ho hs hi (hset ▸ hc) hp) h₂
    have ⟨he, p, q, hp, hq, hdang⟩ :=
      ho₂.exists_of_fails hw₂ (hg.extends.trans s₁.extends) hf
    exact ⟨he, .inl ⟨p, q, hp, hq, hdang⟩⟩

-- Going back over the endpoints: definitions keep their properties, and the fields of inline bodies
-- and responses are those of the definitions made for them.
theorem explained_of_ofNamed {start last : DefinitionGraph} (h : AllExplained start last g')
    (hn : ofNamed (nameAll [] d.operations) g = .ok (endpoints, created) g') :
    AllExplained start last g ∧
      ∀ o ∈ nameAll [] d.operations, ∀ s ∈ slotsOf o.operation, s.isInline →
        ¬g.contains (o.name ++ s.ending) → ∀ p ∈ s.fields, Explained start last p := by
  have hg := (ofNamed_eq_ok plainName_of_mem_nameAll hn).grown
  constructor
  · intro n e he p hp
    obtain ⟨tag, he'⟩ := hg.kept n e he
    exact h n _ he' p hp
  · intro o ho s hs hi hc p hp
    have ha : (o.name ++ s.ending, s.fields) ∈ (nameAll [] d.operations).flatMap additionsOf := by
      refine List.mem_flatMap.mpr ⟨o, ho, List.mem_append_right _ ?_⟩
      exact List.mem_flatMap.mpr ⟨s, hs, by simp [Slot.additions, hi]⟩
    have hm : o.name ++ s.ending ∈ created := by
      have := hg.names ▸ contains_iff.mp (hg.there _ ha)
      exact (List.mem_append.mp this).resolve_left <| mt contains_iff.mpr hc
    obtain ⟨fields, tag, hl, he⟩ := hg.made _ hm
    have hf := List.inj_on_of_nodup_map (nodup_additions nodup_nameAll.left)
      (Text.mem_of_lookup hl) ha rfl
    cases (Prod.mk.inj hf).right
    exact h _ _ he p hp

theorem not_dangles_of_assemble_eq_ok (hd : IsRegular d)
    (h : assemble passes d (initialGraph d) = .ok endpoints g') : ¬Dangles passes d := by
  have hend : endGraph passes d = g' := by simp [endGraph, h]
  obtain ⟨created, g₁, h₁, h⟩ := assemble_eq_ok h
  have hset : settledGraph passes d = g₁ := by simp [settledGraph, h₁]
  obtain ⟨names, g₂, more, h₂, h₃⟩ := ofOperations_eq_ok h
  have hw := hd.wellNamed
  have s₁ := (GraphM.settle_ok h₁).left
  have s₃ := (GraphM.settle_ok h₃).left
  have hdone := ofNamed_eq_ok plainName_of_mem_nameAll h₂
  have hx := s₃.extends.trans <| hdone.grown.extends.trans s₁.extends
  -- No type that is made up on the way is called `object`.
  have hobject : g'.contains objectName → (initialGraph d).contains objectName := by
    intro hc
    have hb : IsBuiltIn objectName := by decide
    refine s₁.contains_of_isBuiltIn hb <| hdone.grown.contains_of_isBuiltIn (fun a ha => ?_) hb <|
      s₃.contains_of_isBuiltIn hb hc
    obtain ⟨o, _, ha⟩ := List.mem_flatMap.mp ha
    exact not_isBuiltIn_of_mem_additionsOf ha
  have hsteady : g'.All (initialGraph d).Steady := by
    have h₀ : (initialGraph d).All (initialGraph d).Steady :=
      .ofSchemas fun s hs p hp => ((hd.schemas s hs).right p hp).mono fun _ h => h.right
    refine (hdone.grown.all (h₀.steps (fun _ _ _ => .inl rfl) s₁) (fun _ => id) fun a ha p hp => ?_)
      |>.steps (fun _ _ _ => .inl rfl) s₃
    obtain ⟨o, ho, ha⟩ := List.mem_flatMap.mp ha
    have hf := hd.operations o.operation <| operation_mem_of_mem_nameAll ho
    exact (hf.of_addition ha p hp).mono fun _ h => h.right
  have hsettled : ∀ n e, g'.get? n = some e → ∀ p ∈ e.properties, g'.Settled p :=
    fun n e he p hp => settled_of_ofOperations (hw.steps s₁) hd.plainFields
      (fun n e he p hp => settled_of_settle_names hw h₁ he hp) h he hp
  -- Back from the end of the run, over the endpoints, to its start.
  have hall₃ := allExplained_of_settled hx hobject hsteady hsettled
  have ⟨hall₁, hslots⟩ := explained_of_ofNamed (hall₃.of_steps s₃ (.refl _)) h₂
  have hall := hall₁.of_steps s₁ <| s₃.extends.trans hdone.grown.extends
  rw [Dangles, hend]
  rintro (⟨p, q, hp, hq, hdang⟩ | ⟨o, ho, s, hs, ha⟩)
  · cases hp
    case definition he hp => exact hall _ _ he p hp q hq hdang
    case slot ho hs hi hc hp => exact hslots _ ho _ hs hi (hset ▸ hc) p hp q hq hdang
  · exact ha <| (hdone.accepts s <| List.mem_flatMap.mpr ⟨o, ho, hs⟩).of_extends s₃.extends

-- The check at the end adds nothing to what synthesis and the endpoints report.
theorem ofDocument_eq_ok (hd : IsRegular d)
    (h : assemble passes d (initialGraph d) = .ok endpoints g') :
    ofDocument passes d = .ok ⟨g'.linked, endpoints⟩ := by
  obtain ⟨created, g₁, h₁, h₂⟩ := assemble_eq_ok h
  have hw₁ := hd.wellNamed.steps (GraphM.settle_ok h₁).left
  have hc : g'.verifyClosed = .ok () := verifyClosed_eq_ok_iff.mpr fun e he p hp =>
    resolves_of_settled <| settled_of_ofOperations hw₁ hd.plainFields
      (fun n e he p hp => settled_of_settle_names hd.wellNamed h₁ he hp) h₂ (get?_of_mem he) hp
  rw [ofDocument, h]
  simp [hc, relink_eq_ok_linked, bind, Except.bind, pure, Except.pure]

theorem endGraph_extends (passes : Nat) (d : Document) :
    (endGraph passes d).Extends (initialGraph d) := by
  have hsettle : ∀ {names g g' e}, names ⊆ g.names →
      GraphM.settle passes names g = .error e g' → g'.Extends g := by
    intro names g g' e hn h
    rcases GraphM.settle_error hn h with ⟨_, s⟩ | ⟨us, _, _, _, s, _⟩
    · exact s.extends
    · exact s.extends
  rw [endGraph]
  split
  case h_1 h =>
    obtain ⟨created, g₁, h₁, h⟩ := assemble_eq_ok h
    obtain ⟨names, g₂, more, h₂, h₃⟩ := ofOperations_eq_ok h
    have hg := (ofNamed_eq_ok plainName_of_mem_nameAll h₂).grown.extends
    exact (GraphM.settle_ok h₃).left.extends.trans <| hg.trans (GraphM.settle_ok h₁).left.extends
  case h_2 h =>
    rcases assemble_eq_error h with h | ⟨created, g₁, h₁, h⟩
    · exact hsettle (List.Subset.refl _) h
    have hx₁ := (GraphM.settle_ok h₁).left.extends
    rcases ofOperations_eq_error h with h | ⟨endpoints, names, g₂, h₂, h⟩
    · exact (ofNamed_eq_error plainName_of_mem_nameAll h).grown.trans hx₁
    · have hg := (ofNamed_eq_ok plainName_of_mem_nameAll h₂).grown
      exact (hsettle (by simp [hg.names]) h).trans <| hg.extends.trans hx₁

-- All types can be told from the start.
structure IsClosed (d : Document) : Prop where
  schemas : ∀ s ∈ d.schemas, ∀ p ∈ s.properties, Property.Deep (initialGraph d).Known p
  fields  : ∀ o ∈ d.operations, AllFields (initialGraph d).Known o
  slots   : ∀ o ∈ d.operations, ∀ s ∈ slotsOf o, Accepts (initialGraph d) s

theorem IsClosed.not_dangles (h : IsClosed d) : ¬Dangles passes d := by
  have hx := endGraph_extends passes d
  have hknown : ∀ p q, Property.Deep (initialGraph d).Known p → (initialGraph d).StandsIn q p →
      ¬(endGraph passes d).Dangling q := by
    intro p q hp hq hdang
    have hq := (hq.deep hp).here hdang.left
    exact (hq.of_extends hx).not_dangling hdang
  rintro (⟨p, q, hp, hq, hdang⟩ | ⟨o, ho, s, hs, ha⟩)
  · refine hknown p q ?_ hq hdang
    cases hp
    case definition he hp =>
      obtain ⟨s, hs, _, rfl⟩ := exists_schema_of_get? he
      exact h.schemas s hs p hp
    case slot ho hs _ _ hp =>
      exact (h.fields _ <| operation_mem_of_mem_nameAll ho).of_slot hs p hp
  · exact ha <| (h.slots _ (operation_mem_of_mem_nameAll ho) s hs).of_extends hx

-- A run that ends fails exactly if a type that the document names dangles in the end. In particular
-- it succeeds if all types can be told from the start.
theorem ofDocument_eq_danglingReference_iff (hd : IsRegular d)
    (he : ofDocument passes d ≠ .error .unsettled) :
    ((∃ n p t, ofDocument passes d = .error (.danglingReference n p t)) ↔ Dangles passes d) ∧
      ((∃ b, ofDocument passes d = .ok b) ↔ ¬Dangles passes d) ∧
      (IsClosed d → ∃ b, ofDocument passes d = .ok b) := by
  cases h : assemble passes d (initialGraph d)
  case ok endpoints g' =>
    have hn := not_dangles_of_assemble_eq_ok hd h
    simp [ofDocument_eq_ok hd h, hn]
  case error e g' =>
    have ho : ofDocument passes d = .error e := by simp [ofDocument, h]
    obtain ⟨⟨n, p, t, hnt⟩, hdang⟩ := dangles_of_assemble_eq_error hd h fun h => he <| h ▸ ho
    have hc : ¬IsClosed d := fun hc => hc.not_dangles hdang
    simp [ho, hnt, hdang, hc]

-- The home of a pet is a reference to no definition, but there is a definition `Home`.
def maskedDocument : Document :=
  documentOf [("Pet", objectOf [("home", entryOf "$ref" "#/definitions/Missing")]),
    ("Home", objectOf [("street", entryOf "type" "string")])]

theorem schemas_maskedDocument : maskedDocument.schemas =
    [⟨"Pet", [.ofType "home" (.named "Missing" false) false]⟩,
      ⟨"Home", [.ofType "street" (.named "string" false) false]⟩] := by
  with_unfolding_all rfl

-- No reference at all, but a name with a slash, of which only the last part becomes that of a type.
def pathDocument : Document :=
  documentOf [("Pet", objectOf [("home/place", objectOf [("street", entryOf "type" "string")])])]

theorem schemas_pathDocument : pathDocument.schemas =
    [⟨"Pet", [{ Property.ofType "home/place" (.named "object" false) false with
        fields := [.ofType "street" (.named "string" false) false] }]⟩] := by
  with_unfolding_all rfl

-- No reference either, but an array of arrays, whose items have the name `array`.
def nestedDocument : Document :=
  documentOf [("Pet", objectOf [("rows", arrayOf <| arrayOf <| entryOf "type" "string")])]

theorem schemas_nestedDocument : nestedDocument.schemas =
    [⟨"Pet", [.ofType "rows"
      (.holding "array" (.holding "array" (.named "string" false) false) false) false]⟩] := by
  with_unfolding_all rfl

-- A reference to no definition may be taken for one to a definition that has the name of the
-- property, and names with a slash and arrays of arrays for a reference.
theorem masked_and_mistaken :
    ((∃ s ∈ maskedDocument.schemas, ∃ p ∈ s.properties, p.type = .named "Missing" false) ∧
        ¬(initialGraph maskedDocument).contains "Missing" ∧
        ∃ b, ofDocument 3 maskedDocument = .ok b) ∧
      ((∀ s ∈ pathDocument.schemas, ∀ p ∈ s.properties, Property.Deep (·.isInline) p) ∧
        ofDocument 3 pathDocument = .error (.danglingReference "Pet" "home/place" "place")) ∧
      ofDocument 3 nestedDocument = .error (.danglingReference "Pet" "rows" "array") := by
  refine ⟨⟨?_, ?_, ?_⟩, ⟨?_, ?_⟩, ?_⟩
  · simp [schemas_maskedDocument, Property.ofType]
  · rw [initialGraph, schemas_maskedDocument]
    decide
  · rw [ofDocument, initialGraph, schemas_maskedDocument]
    exact ⟨_, rfl⟩
  · rw [schemas_pathDocument]
    decide
  · rw [ofDocument, initialGraph, schemas_pathDocument]
    rfl
  · rw [ofDocument, initialGraph, schemas_nestedDocument]
    rfl

-- The same reference dangles where nothing masks it.
def lostDocument : Document :=
  let owner := objectOf [("home", entryOf "$ref" "#/definitions/Missing")]
  documentOf [("Pet", objectOf [("owner", owner)])]

theorem schemas_lostDocument : lostDocument.schemas =
    [⟨"Pet", [{ Property.ofType "owner" (.named "object" false) false with
      fields := [.ofType "home" (.named "Missing" false) false] }]⟩] := by
  with_unfolding_all rfl

theorem isRegular_lostDocument : IsRegular lostDocument where
  schemas := by
    simp only [initialGraph, schemas_lostDocument]
    decide
  operations := by
    simp only [initialGraph, schemas_lostDocument]
    decide

theorem dangles_lostDocument : Dangles 3 lostDocument := by
  have h : ofDocument 3 lostDocument = .error (.danglingReference "Owner" "home" "Missing") := by
    rw [ofDocument, initialGraph, schemas_lostDocument]
    rfl
  have he : ofDocument 3 lostDocument ≠ .error .unsettled := by simp [h]
  exact (ofDocument_eq_danglingReference_iff isRegular_lostDocument he).left.mp ⟨_, _, _, h⟩

end Classwright.Blueprint
