import Classwright.Proofs.Graph.Endpoint
import Classwright.Proofs.Graph.Link
import Classwright.Proofs.Swagger.Fields

namespace Classwright

open Schema Swagger Yaml DefinitionGraph

namespace Schema.Property

-- A property lists its values if its element is an enumeration, and so do all fields of its inline
-- objects. Only an array that does not tell what it holds may lack them.
inductive Listed : Property → Prop
  | intro {p} : (p.type.element.isEnum → p.enumValues.isSome ∨ p.type = .named arrayName true) →
      (∀ f ∈ p.fields, Listed f) → Listed p

namespace Listed

variable {p f : Property} {n : String}

theorem field (h : Listed p) (hf : f ∈ p.fields) : Listed f := by
  cases h
  case intro h => exact h f hf

theorem isSome_choices_or (h : Listed p) (he : p.type.element.isEnum) :
    p.choices.isSome ∨ p.type = .named arrayName true := by
  cases h
  case intro h _ => simpa [choices, he] using h he

theorem isSome_choices (h : Listed p) (he : p.type.element.isEnum) (ha : ¬p.type.isArray) :
    p.choices.isSome :=
  (h.isSome_choices_or he).resolve_right fun ht => ha <| by simp [ht, TypeRef.isArray, TypeRef.name]

-- A new type is no enumeration.
theorem retarget : Listed (retarget n p) :=
  .intro (by simp [TypeRef.ofName, TypeRef.make, TypeRef.isEnum]) (by simp)

theorem iff_unlinkProperty : Listed (unlinkProperty p) ↔ Listed p where
  mp  | .intro h hf => .intro h hf
  mpr | .intro h hf => .intro h hf

end Listed

end Schema.Property

namespace Schema

variable {schema : Value} {p : Property}

-- Does a schema list values?
def listsValues (schema : Value) : Bool :=
  ((schema.get? "enum").bind Value.seq?).isSome

-- A schema is a reference, or tells on the spot whether it is an enumeration. An array holds what its
-- items are, or objects, unless it is an array only by the end of a path.
theorem TypeRef.ofSchema_cases (schema : Value) :
    (∃ reference, ofSchema schema = .named reference false) ∨
      (∃ items, schema.get? "items" = some items ∧
        ofSchema schema = .holding arrayName (ofSchema items) (listsValues schema)) ∨
      ofSchema schema = .holding arrayName (.named objectName false) (listsValues schema) ∨
      ∃ name, ofSchema schema = .named name (listsValues schema) := by
  have ha : resolveReference arrayName = arrayName := by decide
  have ho : resolveReference objectName = objectName := by decide
  rw [ofSchema]
  split
  case h_1 => exact .inl ⟨_, rfl⟩
  case h_2 =>
    dsimp only
    split
    case isFalse => exact .inr <| .inr <| .inr ⟨_, rfl⟩
    case isTrue hn =>
      rw [eq_of_beq hn]
      split
      case h_1 items hi => exact .inr <| .inl ⟨items, hi, by simp [make, ha, listsValues]⟩
      case h_2          => exact .inr <| .inr <| .inl <| by simp [make, ofName, ha, ho, listsValues]

-- An enumeration lists its values, wherever its type comes from.
theorem listsValues_of_isEnum (h : (TypeRef.ofSchema schema).isEnum) : listsValues schema := by
  rcases TypeRef.ofSchema_cases schema with ⟨_, ht⟩ | ⟨_, _, ht⟩ | ht | ⟨_, ht⟩ <;>
    simp_all [TypeRef.isEnum]

theorem isSome_enumValuesOf (he : (TypeRef.ofSchema schema).element.isEnum) :
    (enumValuesOf (elementSchema schema)).isSome ∨
      TypeRef.ofSchema schema = .named arrayName true := by
  rw [enumValuesOf, Option.isSome_map, elementSchema]
  rcases TypeRef.ofSchema_cases schema with ⟨_, ht⟩ | ⟨items, hi, ht⟩ | ht | ⟨name, ht⟩ <;>
    simp only [ht, TypeRef.element, TypeRef.isEnum, beq_self_eq_true, if_true] at he
  case inr.inl =>
    refine .inl ?_
    simp only [ht, hi, TypeRef.isArray, TypeRef.name, beq_self_eq_true, if_true, Option.getD_some]
    exact listsValues_of_isEnum he
  case inr.inr.inr =>
    simp only [ht, TypeRef.isArray, TypeRef.name, beq_iff_eq, he]
    split
    case isTrue hn  => exact .inr <| hn ▸ rfl
    case isFalse hn => exact .inl he
  all_goals contradiction

theorem listed_of_mem_fieldsOf (h : p ∈ fieldsOf schema) : p.Listed := by
  fun_induction fieldsOf schema generalizing p
  case case1 ih =>
    obtain ⟨⟨entry, hm⟩, _, hp⟩ := List.mem_filterMap.mp h
    obtain ⟨name, _, rfl⟩ := Option.map_eq_some_iff.mp hp
    exact .intro isSome_enumValuesOf fun f hf => ih entry hm hf
  case case2 => contradiction

end Schema

namespace Swagger

-- The fields that an operation brings along list their values.
def ListsFields (o : Operation) : Prop :=
  (∀ p ∈ o.parameters, ∀ f ∈ p.fields, f.Listed) ∧ ∀ r ∈ o.responses, ∀ f ∈ r.fields, f.Listed

theorem listsFields_of_mem_ofPaths {paths : List (Value × Value)} {o : Operation}
    (h : o ∈ Operation.ofPaths paths) : ListsFields o := by
  have hV : Hereditary fun _ => True := by constructor <;> simp
  have hb : BringsFields (∀ f ∈ ·, f.Listed) o :=
    bringsFields_of_mem_ofPaths hV (fun _ _ _ => listed_of_mem_fieldsOf) (List.forall_mem_nil _) trivial h
  exact hb

end Swagger

namespace Endpoint

variable {o : Named} {s : Slot} {a : String × List Property}

theorem listed_of_mem_slotsOf (ho : ListsFields o.operation) (h : s ∈ slotsOf o.operation) :
    ∀ f ∈ s.fields, f.Listed := by
  rcases exists_of_mem_slotsOf h with ⟨p, hp, hf⟩ | ⟨r, hr, hf⟩
  · exact hf ▸ ho.left p hp
  · exact hf ▸ ho.right r hr

theorem listed_stringProperty {u : UrlParameter} : (stringProperty u).Listed :=
  .intro (by simp [stringProperty, Property.ofType, TypeRef.ofName, TypeRef.make, TypeRef.isEnum,
    TypeRef.element]) nofun

theorem listed_of_mem_additionsOf (ho : ListsFields o.operation) (h : a ∈ additionsOf o) :
    ∀ f ∈ a.snd, f.Listed := by
  rcases List.mem_append.mp h with h | h
  · intro f hf
    obtain ⟨u, rfl⟩ := (mem_groupAdditions h).right f hf
    exact listed_stringProperty
  · obtain ⟨s, hs, h⟩ := List.mem_flatMap.mp h
    exact (mem_slotAdditions h).right ▸ listed_of_mem_slotsOf ho hs

end Endpoint

namespace DefinitionGraph

variable {g g' : DefinitionGraph} {owner : String} {index : Nat} {created : Option String}
  {vs : List Visit} {adds : List (String × List Property)} {names : List String}

-- All enumerations of the graph list their values.
def IsListed (g : DefinitionGraph) : Prop :=
  ∀ n d, g.get? n = some d → ∀ p ∈ d.properties, p.Listed

theorem isListed_ofDefinitions (definitions : List (Value × Value)) :
    (ofSchemas <| ObjectSchema.ofDefinitions definitions).IsListed := by
  intro n d hd
  obtain ⟨s, hs, _, rfl⟩ := exists_schema_of_get? hd
  obtain ⟨⟨key, schema⟩, _, hs⟩ := List.mem_filterMap.mp hs
  obtain ⟨_, _, rfl⟩ := Option.map_eq_some_iff.mp hs
  exact fun p hp => listed_of_mem_fieldsOf hp

namespace IsListed

theorem step (h : g.IsListed) (s : g.Step owner index g' created) : g'.IsListed := by
  cases s
  case idle => exact h
  case give p shape name hg =>
    obtain ⟨e, he, hp⟩ := hg.found
    have hs : ∀ q ∈ shape, q.Listed := by
      intro q hq
      rcases shape?_cases hg.made with ⟨_, rfl⟩ | ⟨_, n, d, hd, rfl, _⟩
      · exact (h owner e he p <| List.mem_of_getElem? hp).field hq
      · exact h n d hd q hq
    intro n d' hd' q hq
    rcases get?_give_cases hg.contains_owner hd' with ⟨d, hd, rfl⟩ | ⟨_, rfl, rfl⟩
    · rcases hg.mem_given hd hq with hq | ⟨rfl, _⟩
      · exact h n d hd q hq
      · exact .retarget
    · exact hs q hq

theorem steps (h : g.IsListed) (s : g.Steps vs g') : g'.IsListed :=
  s.preserves (fun s h => h.step s) h

theorem grown (h : g.IsListed) (hg : g.Grown adds names g')
    (ha : ∀ a ∈ adds, ∀ p ∈ a.snd, p.Listed) : g'.IsListed := by
  intro n d' hd' p hp
  rcases hg.get?_cases hd' with ⟨d, _, hd, rfl⟩ | ⟨_, fields, _, hm, rfl⟩
  · exact h n d hd p hp
  · exact ha _ hm p hp

theorem alike (h : g.IsListed) (ha : g'.Alike g) : g'.IsListed := by
  intro n d' hd' p hp
  obtain ⟨d, hd, q, hq, he⟩ := ha.exists_of_mem hd' hp
  exact Property.Listed.iff_unlinkProperty.mp <| he ▸ Property.Listed.iff_unlinkProperty.mpr
    (h n d hd q hq)

end IsListed

end DefinitionGraph

end Classwright
