import Classwright.Proofs.Built

namespace Classwright

open Schema DefinitionGraph

namespace DefinitionGraph

variable {g g' g'' : DefinitionGraph} {d : Definition} {p p' p'' : Property} {owner name n : String}
  {index : Nat} {created : Option String} {vs : List Visit}

-- A property of `g` that is the same as before but for its type and its inline fields, and these too
-- stay if it was settled from the start.
structure FramedProperty (g : DefinitionGraph) (p' p : Property) : Prop where
  name       : p'.name = p.name
  required   : p'.required = p.required
  default    : p'.default = p.default
  enumValues : p'.enumValues = p.enumValues
  refersTo   : p'.refersTo = p.refersTo
  array      : p.type.isArray → p.type.items?.isSome → p'.type.isArray ∧ p'.type.items?.isSome
  settled    : p.type.isScalarElement ∨ g.needsTable p.type.element.name → p' = p

-- A definition of `g` that is the same as before but for the types of its properties, and whether it
-- is marked as part of its owner's table.
structure FramedDefinition (g : DefinitionGraph) (d' d : Definition) : Prop where
  name       : d'.name = d.name
  tag        : d'.tag = d.tag
  edges      : d'.edges = d.edges
  needsTable : d'.needsTable = d.needsTable
  properties : List.Forall₂ (FramedProperty g) d'.properties d.properties

def Framed (g' g : DefinitionGraph) : Prop :=
  ∀ n d, g.get? n = some d → ∃ d', g'.get? n = some d' ∧ FramedDefinition g d' d

theorem FramedProperty.refl (g : DefinitionGraph) (p : Property) : FramedProperty g p p where
  name       := rfl
  required   := rfl
  default    := rfl
  enumValues := rfl
  refersTo   := rfl
  array      := .intro
  settled _  := rfl

theorem FramedProperty.trans (ht : ∀ n, g.needsTable n → g'.needsTable n)
    (h₁ : FramedProperty g' p'' p') (h₂ : FramedProperty g p' p) : FramedProperty g p'' p where
  name       := h₁.name.trans h₂.name
  required   := h₁.required.trans h₂.required
  default    := h₁.default.trans h₂.default
  enumValues := h₁.enumValues.trans h₂.enumValues
  refersTo   := h₁.refersTo.trans h₂.refersTo
  array ha hi := have ⟨ha, hi⟩ := h₂.array ha hi; h₁.array ha hi
  settled hs := by
    cases h₂.settled hs
    exact h₁.settled <| hs.imp_right (ht _)

namespace Framed

theorem refl (g : DefinitionGraph) : g.Framed g :=
  fun _ d hd => ⟨d, hd, rfl, rfl, rfl, rfl, List.forall₂_same.mpr fun p _ => .refl g p⟩

theorem needsTable (h : g'.Framed g) (ht : g.needsTable n) : g'.needsTable n := by
  obtain ⟨d, hd⟩ := exists_of_contains <| contains_of_needsTable ht
  obtain ⟨d', hd', hf⟩ := h n d hd
  rw [needsTable_of_get? hd', hf.needsTable, ← needsTable_of_get? hd, ht]

theorem trans (h₁ : g''.Framed g') (h₂ : g'.Framed g) : g''.Framed g := by
  intro n d hd
  obtain ⟨d', hd', hf⟩ := h₂ n d hd
  obtain ⟨d'', hd'', hf'⟩ := h₁ n d' hd'
  refine ⟨d'', hd'', hf'.name.trans hf.name, hf'.tag.trans hf.tag, hf'.edges.trans hf.edges,
    hf'.needsTable.trans hf.needsTable, ?_⟩
  exact forall₂_trans hf'.properties hf.properties fun _ _ _ => .trans fun _ => h₂.needsTable

end Framed

-- A step changes one property, which is neither a scalar nor leads to a definition with a table.
theorem Gives.framedProperty {shape : List Property} (h : g.Gives owner index p shape name) :
    FramedProperty g (retarget name p) p where
  name       := rfl
  required   := rfl
  default    := rfl
  enumValues := rfl
  refersTo   := rfl
  array ha hi := by
    rw [retarget]
    cases ht : p.type
    case named => simp [ht, TypeRef.items?] at hi
    case holding m _ _ =>
      have hm : m = arrayName := by simpa [ht, TypeRef.isArray, TypeRef.name] using ha
      simp [TypeRef.withElement, TypeRef.isArray, TypeRef.name, TypeRef.items?, hm]
  settled hs := by
    exact absurd hs <| not_or.mpr <| needsSynthesis_iff.mp h.needs

theorem Step.framed (s : g.Step owner index g' created) : g'.Framed g := by
  cases s
  case idle => exact .refl g
  case give p shape name hg =>
    intro n d hd
    refine ⟨_, get?_give_of_some hd, by simp, by simp, by simp, by simp, ?_⟩
    exact hg.forall₂_given hd (fun q _ => .refl g q) hg.framedProperty

theorem Steps.framed (s : g.Steps vs g') : g'.Framed g := by
  induction s
  case refl        => exact .refl _
  case step s _ ih => exact ih.trans s.framed

-- No definition with a table is marked as part of an owner's.
def WellMarked (g : DefinitionGraph) : Prop :=
  ∀ n d, g.get? n = some d → ¬(d.needsTable ∧ d.sharesTable)

theorem wellMarked_ofSchemas {schemas : List ObjectSchema} : (ofSchemas schemas).WellMarked := by
  intro n d hd
  obtain ⟨s, _, _, rfl⟩ := exists_schema_of_get? hd
  simp [Definition.make]

theorem Step.wellMarked (s : g.Step owner index g' created) (h : g.WellMarked) : g'.WellMarked := by
  cases s
  case idle => exact h
  case give hg =>
    intro n d' hd'
    rcases get?_give_cases hg.contains_owner hd' with ⟨d, hd, rfl⟩ | ⟨_, rfl, rfl⟩
    · rw [Definition.needsTable_given, Definition.sharesTable_given]
      have := h n d hd
      split <;> simp_all
    · simp

end DefinitionGraph

variable {passes : Nat} {schemas : List ObjectSchema} {g' : DefinitionGraph} {created : List String}

-- New definitions follow the old ones, which are framed. In the end, as in the beginning, those with
-- an `id` are those with a table, and none of these is marked as part of another's table.
theorem framed_of_settle_ofSchemas
    (h : GraphM.settle passes (ofSchemas schemas).names (ofSchemas schemas) = .ok created g') :
    g'.names = (ofSchemas schemas).names ++ created ∧ g'.names.Nodup ∧
      g'.Framed (ofSchemas schemas) ∧
      ∀ n d, g'.get? n = some d →
        (d.needsTable ↔ ∃ p ∈ d.properties, p.name = "id") ∧ ¬(d.needsTable ∧ d.sharesTable) := by
  obtain ⟨s, hn, _⟩ := GraphM.settle_ok h
  refine ⟨hn, nodup_names, s.framed, fun n d hd => ⟨?_, ?_⟩⟩
  · simpa [idName] using Tabled.ofSchemas.steps s n d hd
  · exact s.preserves (fun s h => s.wellMarked h) wellMarked_ofSchemas n d hd

-- The address of an order becomes a definition, and the rest of the order stays.
theorem framed_orderDocument : ∃ created g',
    GraphM.settle 3 (ofSchemas Blueprint.orderDocument.schemas).names
      (ofSchemas Blueprint.orderDocument.schemas) = .ok created g' ∧
    g'.names = ["Order", "Item", "Customer"] ++ created ∧ created = ["Address"] ∧
    g'.Framed (ofSchemas Blueprint.orderDocument.schemas) := by
  obtain ⟨created, g', h, hc⟩ : ∃ created g', GraphM.settle 3
      (ofSchemas Blueprint.orderDocument.schemas).names
      (ofSchemas Blueprint.orderDocument.schemas) = .ok created g' ∧ created = ["Address"] := by
    rw [Blueprint.schemas_orderDocument]
    exact ⟨_, _, rfl, rfl⟩
  have ⟨hn, _, hf, _⟩ := framed_of_settle_ofSchemas h
  have ho : (ofSchemas Blueprint.orderDocument.schemas).names = ["Order", "Item", "Customer"] := by
    rw [Blueprint.schemas_orderDocument]
    rfl
  exact ⟨created, g', h, ho ▸ hn, hc, hf⟩

end Classwright
