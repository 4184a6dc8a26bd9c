import Classwright.Proofs.Blueprint
import Classwright.Proofs.Closure
import Classwright.Proofs.Graph.Shape

namespace Classwright.Blueprint

open Schema Swagger DefinitionGraph Endpoint

variable {passes : Nat} {d : Document} {b : Blueprint}

-- If every step over the definitions is faithful, their properties have their shapes to the end, to
-- any depth. When the endpoints follow, all of them are settled, and nothing touches them any more.
theorem keeps_of_ofDocument_eq_ok (hs : (initialGraph d).Sound)
    (hf : ∀ v ∈ GraphM.settleVisits passes (initialGraph d).names (initialGraph d), v.IsFaithful)
    (h : ofDocument passes d = .ok b) (k : Nat) : Keeps k b.graph (initialGraph d) := by
  obtain ⟨endpoints, g', ha, rfl⟩ := assemble_of_ofDocument_eq_ok h
  obtain ⟨created, g₁, h₁, h⟩ := assemble_eq_ok ha
  have hsettled : ∀ n e, g₁.get? n = some e → ∀ p ∈ e.properties, g₁.Settled p :=
    fun n e he p hp => settled_of_settle_names hs.fullyNamed.toWellNamed h₁ he hp
  have hr := (retains_of_ofOperations h).keeps hsettled k
  have hk := (GraphM.settle_ok h₁).left.keeps hs hf (k := k)
  exact (alike_linked g').keeps k |>.trans <| hr.trans hk

-- The home of a pet gets a definition of its own, and so does the size that it has.
def petDocument : Document :=
  documentOf [("Pet", objectOf [("id", entryOf "type" "string"),
      ("home", entryOf "$ref" "#/definitions/Place")]),
    ("Place", objectOf [("size", objectOf [("rooms", entryOf "type" "integer")])])]

theorem schemas_petDocument : petDocument.schemas =
    [⟨"Pet", [.ofType "id" (.named "string" false) false, .ofType "home" (.named "Place" false) false]⟩,
      ⟨"Place", [{ Property.ofType "size" (.named "object" false) false with
        fields := [.ofType "rooms" (.named "integer" false) false] }]⟩] := by
  with_unfolding_all rfl

theorem keeps_petDocument : ∃ b, ofDocument 3 petDocument = .ok b ∧
    b.graph.names = ["Pet", "Place", "Home", "Size"] ∧
    Keeps 3 b.graph (initialGraph petDocument) := by
  obtain ⟨b, hb, hn⟩ : ∃ b, ofDocument 3 petDocument = .ok b ∧
      b.graph.names = ["Pet", "Place", "Home", "Size"] := by
    rw [ofDocument, initialGraph, schemas_petDocument]
    exact ⟨_, rfl, rfl⟩
  have hs : (initialGraph petDocument).Sound := by
    rw [initialGraph, schemas_petDocument]
    exact sound_ofSchemas <| by decide
  have hv : ∀ v ∈ GraphM.settleVisits 3 (initialGraph petDocument).names (initialGraph petDocument),
      v.IsUndisturbed := by
    simp only [initialGraph, schemas_petDocument]
    decide
  exact ⟨b, hb, hn, keeps_of_ofDocument_eq_ok hs (fun v hv' => (hv v hv').isFaithful) hb 3⟩

-- An address is a reference to a location, but there is a definition `Address`.
def capturedDocument : Document :=
  documentOf [("Owner", objectOf [("address", entryOf "$ref" "#/definitions/Location")]),
    ("Address", objectOf [("street", entryOf "type" "string")]),
    ("Location", objectOf [("latitude", entryOf "type" "number")])]

theorem schemas_capturedDocument : capturedDocument.schemas =
    [⟨"Owner", [.ofType "address" (.named "Location" false) false]⟩,
      ⟨"Address", [.ofType "street" (.named "string" false) false]⟩,
      ⟨"Location", [.ofType "latitude" (.named "number" false) false]⟩] := by
  with_unfolding_all rfl

theorem not_keeps_of_get? {g g' : DefinitionGraph} {e e' : Definition} {n : String} {k : Nat}
    (he : g.get? n = some e) (he' : g'.get? n = some e')
    (h : ¬Field.sameAll (e'.properties.map (g'.field k)) (e.properties.map (g.field k))) :
    ¬Keeps k g' g := by
  intro hk
  obtain ⟨_, hd, hs⟩ := hk n e he
  cases he'.symm.trans hd
  exact h <| sameContent_iff.mp hs

-- A reference to the address that an inline object of the first definition is given.
def madeUpDocument : Document :=
  documentOf [("Owner", objectOf [("address", objectOf [("street", entryOf "type" "string")])]),
    ("Office", objectOf [("place", entryOf "$ref" "#/definitions/Address")])]

theorem schemas_madeUpDocument : madeUpDocument.schemas =
    [⟨"Owner", [{ Property.ofType "address" (.named "object" false) false with
        fields := [.ofType "street" (.named "string" false) false] }]⟩,
      ⟨"Office", [.ofType "place" (.named "Address" false) false]⟩] := by
  with_unfolding_all rfl

-- A definition that has the name of arrays, so that a reference to it looks like one of those.
def arrayDocument : Document :=
  documentOf [("Owner", objectOf [("address", entryOf "$ref" "#/definitions/array")]),
    ("array", objectOf [("street", entryOf "type" "string")])]

theorem schemas_arrayDocument : arrayDocument.schemas =
    [⟨"Owner", [.ofType "address" (.named "array" false) false]⟩,
      ⟨"array", [.ofType "street" (.named "string" false) false]⟩] := by
  with_unfolding_all rfl

-- A property without a name, whose new type is then called like its owner, and that like a scalar.
def namelessDocument : Document :=
  documentOf [("", objectOf [("id", entryOf "type" "string")]),
    ("string", objectOf [("", entryOf "$ref" "#/definitions/Other")]),
    ("Other", objectOf [("", entryOf "$ref" "#/definitions/Other")])]

theorem schemas_namelessDocument : namelessDocument.schemas =
    [⟨"", [.ofType "id" (.named "string" false) false]⟩,
      ⟨"string", [.ofType "" (.named "Other" false) false]⟩,
      ⟨"Other", [.ofType "" (.named "Other" false) false]⟩] := by
  with_unfolding_all rfl

-- A name with a slash, of which only the last part becomes the name of the new type.
def slashDocument : Document :=
  documentOf [("Owner", objectOf [("home/Address", objectOf [("latitude", entryOf "type" "number")])]),
    ("Address", objectOf [("street", entryOf "type" "string")])]

theorem schemas_slashDocument : slashDocument.schemas =
    [⟨"Owner", [{ Property.ofType "home/Address" (.named "object" false) false with
        fields := [.ofType "latitude" (.named "number" false) false] }]⟩,
      ⟨"Address", [.ofType "street" (.named "string" false) false]⟩] := by
  with_unfolding_all rfl

-- A reference may be captured by a definition that has the name of its property. Without that, shapes
-- still change if names or types cannot be told from the start.
theorem changed_shapes : (initialGraph capturedDocument).Sound ∧
    ∀ d ∈ [capturedDocument, madeUpDocument, arrayDocument, namelessDocument, slashDocument],
      ∃ b, ofDocument 3 d = .ok b ∧ ¬Keeps 1 b.graph (initialGraph d) := by
  simp only [List.forall_mem_cons, List.not_mem_nil, false_imp_iff, forall_true_iff, and_true]
  refine ⟨?_, ?_, ?_, ?_, ?_, ?_⟩
  · rw [initialGraph, schemas_capturedDocument]
    exact sound_ofSchemas <| by decide
  · rw [ofDocument, initialGraph, schemas_capturedDocument]
    exact ⟨_, rfl, not_keeps_of_get? (n := "Owner") rfl rfl <| by decide⟩
  · rw [ofDocument, initialGraph, schemas_madeUpDocument]
    exact ⟨_, rfl, not_keeps_of_get? (n := "Office") rfl rfl <| by decide⟩
  · rw [ofDocument, initialGraph, schemas_arrayDocument]
    exact ⟨_, rfl, not_keeps_of_get? (n := "Owner") rfl rfl <| by decide⟩
  · rw [ofDocument, initialGraph, schemas_namelessDocument]
    exact ⟨_, rfl, not_keeps_of_get? (n := "string") rfl rfl <| by decide⟩
  · rw [ofDocument, initialGraph, schemas_slashDocument]
    exact ⟨_, rfl, not_keeps_of_get? (n := "Owner") rfl rfl <| by decide⟩

end Classwright.Blueprint
