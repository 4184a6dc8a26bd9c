import Classwright.Proofs.Built
import Classwright.Proofs.Table.Storage
import Mathlib.Logic.Relation

namespace Classwright

open Schema Classes.Table

namespace DefinitionGraph

variable {g : DefinitionGraph} {d : Definition} {p : Property} {n m : String}

-- A property that is stored as the fields of the definition that it leads to.
def Spreads (g : DefinitionGraph) (p : Property) : Prop :=
  ¬p.type.isScalarElement ∧ ¬p.type.isArray ∧ g.contains p.type.element.name ∧
    ¬g.needsTable p.type.element.name

-- The fields of `m` are stored in the columns of `n`.
def Flattens (g : DefinitionGraph) (n m : String) : Prop :=
  ∃ p ∈ g.propertiesOf n, g.Spreads p ∧ p.type.element.name = m

instance : Decidable (g.Spreads p) :=
  inferInstanceAs <| Decidable (_ ∧ _)

instance : Decidable (g.Flattens n m) :=
  inferInstanceAs <| Decidable (∃ _ ∈ _, _)

-- Following the definitions that are stored in the columns of `n` comes to an end.
def HasFiniteRow (g : DefinitionGraph) (n : String) : Prop :=
  Acc (fun m n => g.Flattens n m) n

-- The columns of `n` lead to a definition that is stored in its own columns.
def Recurs (g : DefinitionGraph) (n : String) : Prop :=
  ∃ m, Relation.ReflTransGen g.Flattens n m ∧ Relation.TransGen g.Flattens m m

theorem Flattens.contains (h : g.Flattens n m) : g.contains m := by
  obtain ⟨p, _, ⟨_, _, hc, _⟩, rfl⟩ := h
  exact hc

theorem Recurs.of_flattens (hf : g.Flattens n m) (h : g.Recurs m) : g.Recurs n :=
  have ⟨k, hm, hk⟩ := h
  ⟨k, .head hf hm, hk⟩

theorem HasFiniteRow.not_recurs (h : g.HasFiniteRow n) : ¬g.Recurs n := by
  induction h
  case intro n _ ih =>
    rintro ⟨m, hn, hm⟩
    cases hn.cases_head
    case inl he =>
      subst he
      obtain ⟨k, hk, hr⟩ := Relation.TransGen.head'_iff.mp hm
      exact ih k hk ⟨n, hr, hm⟩
    case inr hk =>
      obtain ⟨k, hk, hr⟩ := hk
      exact ih k hk ⟨m, hr, hm⟩

end DefinitionGraph

namespace Classes.Table

open DefinitionGraph

variable {g : DefinitionGraph} {d : Definition} {p : Property} {n owner : String} {depth : Nat}
  {e : Error}

theorem storageOf_of_spreads (h : g.Spreads p) (hd : g.get? p.type.element.name = some d) :
    storageOf g depth owner p = match depth with
      | 0         => .unresolved (.endlessColumns d.name)
      | depth + 1 => .flattened d.name (d.properties.map fun f => (f, storageOf g depth d.name f)) := by
  obtain ⟨hs, ha, _, ht⟩ := h
  rw [needsTable_of_get? hd] at ht
  simp only [TypeRef.isScalarElement, TypeRef.isNative, Bool.or_eq_true, not_or,
    Option.not_isSome_iff_eq_none] at hs
  cases depth
  all_goals
    rw [storageOf]
    simp only [hs, hd, if_neg ha, if_neg ht, Bool.false_eq_true, if_false]

theorem errors_storageOf_zero (h : g.Spreads p) :
    (storageOf g 0 owner p).errors = [.endlessColumns p.type.element.name] := by
  obtain ⟨d, hd⟩ := exists_of_contains h.right.right.left
  rw [storageOf_of_spreads h hd, name_of_get? hd]
  rfl

theorem errors_storageOf_succ (h : g.Spreads p) : (storageOf g (depth + 1) owner p).errors =
    (g.propertiesOf p.type.element.name).flatMap fun f =>
      (storageOf g depth p.type.element.name f).errors := by
  obtain ⟨d, hd⟩ := exists_of_contains h.right.right.left
  simp [storageOf_of_spreads h hd, name_of_get? hd, Storage.errors, errorsOfParts_eq_flatMap,
    propertiesOf, hd, List.flatMap_map]

theorem errors_tableStorage : (tableStorage owner p d).errors = [] := by
  simp only [tableStorage]
  split
  case isTrue  => split <;> rfl
  case isFalse => split <;> rfl

-- A type that resolves is at fault only if its fields are to be stored.
theorem errors_storageOf_of_not_spreads (hr : g.resolves p.type) (h : ¬g.Spreads p) :
    (storageOf g depth owner p).errors = [] := by
  have hs : ∀ d, p.type.element.primitive? = none → ¬p.type.element.isEnum →
      g.get? p.type.element.name = some d → ¬d.needsTable → p.type.isArray := by
    intro d hp he hd ht
    by_contra ha
    refine h ⟨?_, ha, contains_of_get? hd, needsTable_of_get? hd ▸ ht⟩
    simp [TypeRef.isScalarElement, TypeRef.isNative, hp, he]
  fun_cases storageOf
  case case6 element he hp hd =>
    simp only [resolves, TypeRef.isScalarElement, TypeRef.isNative, contains] at hr
    simp_all [element]
  case case7                     => exact errors_tableStorage
  case case9 he hp _ hd ht ha    => exact absurd (hs _ hp he hd ht) ha
  case case10 he hp _ hd ht ha _ => exact absurd (hs _ hp he hd ht) ha
  all_goals rfl

variable (hr : ∀ n d, g.get? n = some d → ∀ p ∈ d.properties, g.resolves p.type)
include hr

-- If all types resolve, nothing but endless columns is in the way of a storage.
theorem exists_endlessColumns_of_mem_errors (hp : g.resolves p.type)
    (he : e ∈ (storageOf g depth owner p).errors) : ∃ n, e = .endlessColumns n := by
  have hs : g.Spreads p := by
    by_contra hs
    simp [errors_storageOf_of_not_spreads hp hs] at he
  induction depth generalizing owner p
  case zero =>
    rw [errors_storageOf_zero hs] at he
    exact ⟨_, List.mem_singleton.mp he⟩
  case succ depth ih =>
    rw [errors_storageOf_succ hs] at he
    obtain ⟨f, hf, he⟩ := List.mem_flatMap.mp he
    obtain ⟨d, hd, hf⟩ := exists_of_mem_propertiesOf hf
    have hp := hr _ d hd f hf
    by_cases hs : g.Spreads f
    case pos => exact ih hp he hs
    case neg => simp [errors_storageOf_of_not_spreads hp hs] at he

omit hr in
-- Without errors, the storage holds all that is ever stored for the property.
theorem hasFiniteRow_of_errors_eq_nil (hs : g.Spreads p)
    (h : (storageOf g depth owner p).errors = []) : g.HasFiniteRow p.type.element.name := by
  induction depth generalizing owner p
  case zero => simp [errors_storageOf_zero hs] at h
  case succ depth ih =>
    rw [errors_storageOf_succ hs, List.flatMap_eq_nil_iff] at h
    refine .intro _ fun m hm => ?_
    obtain ⟨f, hf, hs, rfl⟩ := hm
    exact ih hs <| h f hf

-- The definitions on the way to a property are distinct, so there are no more of them than the graph
-- has. If all of them were seen, the next one is among them, and leads to itself.
theorem errors_eq_nil_of_not_recurs (seen : List String) (hs : g.Spreads p)
    (hn : ¬g.Recurs p.type.element.name) (hd : seen.Nodup) (hg : seen ⊆ g.names)
    (hw : ∀ n ∈ seen, Relation.TransGen g.Flattens n p.type.element.name)
    (hl : g.size ≤ depth + seen.length) : (storageOf g depth owner p).errors = [] := by
  induction depth generalizing owner p seen
  all_goals
    have hc := contains_iff.mp hs.right.right.left
    have hm : p.type.element.name ∉ seen := fun hm => hn ⟨_, .refl, hw _ hm⟩
    have hd' : (p.type.element.name :: seen).Nodup := List.nodup_cons.mpr ⟨hm, hd⟩
    have hg' : p.type.element.name :: seen ⊆ g.names := List.cons_subset.mpr ⟨hc, hg⟩
  case zero =>
    have := hd'.length_le_of_subset hg'
    rw [size_eq_length_names] at hl
    simp only [List.length_cons] at this
    omega
  case succ depth ih =>
    rw [errors_storageOf_succ hs]
    refine List.flatMap_eq_nil_iff.mpr fun f hf => ?_
    obtain ⟨d, hd, hfd⟩ := exists_of_mem_propertiesOf hf
    by_cases hfs : g.Spreads f
    case neg => exact errors_storageOf_of_not_spreads (hr _ d hd f hfd) hfs
    have hff : g.Flattens p.type.element.name f.type.element.name := ⟨f, hf, hfs, rfl⟩
    refine ih _ hfs (mt (.of_flattens hff) hn) hd' hg' (fun n hn => ?_) (by simp; omega)
    cases List.mem_cons.mp hn
    case inl he => exact he ▸ .single hff
    case inr hn => exact (hw n hn).tail hff

-- The columns of a row end, and are found without errors, if no definition recurs in them.
theorem errorsOfParts_eq_nil_of_not_recurs (hd : g.get? n = some d) (h : ¬g.Recurs n) :
    errorsOfParts (storedParts g d) = [] := by
  rw [errorsOfParts_storedParts, List.flatMap_eq_nil_iff]
  intro p hp
  by_cases hs : g.Spreads p
  case neg => exact errors_storageOf_of_not_spreads (hr n d hd p hp) hs
  have hf : g.Flattens n p.type.element.name := ⟨p, (mem_propertiesOf hd).mpr hp, hs, rfl⟩
  exact errors_eq_nil_of_not_recurs hr [] hs (mt (.of_flattens hf) h) .nil (by simp)
    (by simp) (by simp)

omit hr in
theorem hasFiniteRow_of_errorsOfParts_eq_nil (hd : g.get? n = some d)
    (h : errorsOfParts (storedParts g d) = []) : g.HasFiniteRow n := by
  rw [errorsOfParts_storedParts, List.flatMap_eq_nil_iff] at h
  refine .intro n fun m hm => ?_
  obtain ⟨p, hp, hs, rfl⟩ := hm
  exact hasFiniteRow_of_errors_eq_nil hs <| h p <| (mem_propertiesOf hd).mp hp

theorem hasFiniteRow_iff (hd : g.get? n = some d) : g.HasFiniteRow n ↔ ¬g.Recurs n where
  mp  := HasFiniteRow.not_recurs
  mpr := fun h => hasFiniteRow_of_errorsOfParts_eq_nil hd <| errorsOfParts_eq_nil_of_not_recurs hr hd h

theorem errorsOfParts_storedParts_eq_nil_iff (hd : g.get? n = some d) :
    errorsOfParts (storedParts g d) = [] ↔ g.HasFiniteRow n where
  mp  := hasFiniteRow_of_errorsOfParts_eq_nil hd
  mpr := fun h => errorsOfParts_eq_nil_of_not_recurs hr hd h.not_recurs

theorem exists_endlessColumns_of_mem_errorsOfParts (hd : g.get? n = some d)
    (he : e ∈ errorsOfParts (storedParts g d)) : ∃ n, e = .endlessColumns n := by
  rw [errorsOfParts_storedParts] at he
  obtain ⟨p, hp, he⟩ := List.mem_flatMap.mp he
  exact exists_endlessColumns_of_mem_errors hr (hr n d hd p hp) he

end Classes.Table

-- The items of an order are found by the key that they hold.
theorem Blueprint.storageOf_orderItems : storageOf orderGraph orderGraph.size "Order"
    orderGraph.definitions[0].properties[3] = .navigation "Item" "Order" := by
  rw [storageOf]
  rfl

end Classwright
