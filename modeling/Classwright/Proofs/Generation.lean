import Classwright.Output
import Classwright.Proofs.Table.Class

namespace Classwright

open Schema Settings Swagger Yaml DefinitionGraph Classes Classes.Table

namespace Reported

-- A result without its value.
def outcome {α : Type} (x : Reported α) : Except Error Unit :=
  x.result.map fun _ => ()

variable {α β : Type} {x : Reported α} {f : α → Reported β} {o : Except Error Unit}

theorem outcome_bind (h : ∀ a, (f a).outcome = o) :
    (x >>= f).outcome = x.outcome.bind fun _ => o := by
  change (x.bind f).outcome = _
  rw [outcome, outcome, result_bind]
  cases x.result
  case error => rfl
  case ok a  => exact h a

theorem exists_eq_ok_iff : (∃ a, x.result = .ok a) ↔ x.outcome = .ok () := by
  rw [outcome]
  cases x.result <;> simp [Except.map]

theorem outcome_eq_error {e : Error} (h : x.result = .error e) : x.outcome = .error e := by
  rw [outcome, h]
  rfl

end Reported

namespace GeneratedFile

variable {g : DefinitionGraph} {s : LanguageSettings} {d : Definition} {ds : List Definition}
  {files : List GeneratedFile}

theorem ofDefinition_eq_ok (h : g.IsLinked) (hd : d ∈ g.definitions)
    (hf : (ofDefinition s g d).result = .ok files) :
    files = ofClass s.language.lexicon (s.kind .model) d.tag
        (Model.classOf s.language.lexicon (s.kind .model) d) ::
      if d.needsTable then [ofClass s.language.lexicon (s.kind .database) d.tag
        (linkedClass s.language.lexicon (s.kind .model) (s.kind .database) g d)] else [] := by
  rw [ofDefinition] at hf
  split at hf
  case isFalse ht =>
    cases hf
    rw [if_neg ht]
  case isTrue ht =>
    simp only [bind, Reported.result_bind] at hf
    cases hc : (classOf s.language.lexicon (s.kind .model) (s.kind .database) g d).result <;>
      rw [hc] at hf <;> cases hf
    rw [if_pos ht, eq_linkedClass_of_result_eq_ok h (get?_of_mem hd) hc]

theorem ofDefinitions_cons_eq_ok (hf : (ofDefinitions s g (d :: ds)).result = .ok files) :
    ∃ own more, (ofDefinition s g d).result = .ok own ∧ (ofDefinitions s g ds).result = .ok more ∧
      files = own ++ more := by
  simp only [ofDefinitions, bind, Reported.result_bind] at hf
  cases h₁ : (ofDefinition s g d).result <;> rw [h₁] at hf
  case error => cases hf
  case ok own =>
    cases h₂ : (ofDefinitions s g ds).result <;> simp only [Except.bind, h₂] at hf <;> cases hf
    exact ⟨own, _, rfl, rfl, rfl⟩

theorem exists_of_mem_ofDefinitions (hf : (ofDefinitions s g ds).result = .ok files) (hd : d ∈ ds) :
    ∃ own, (ofDefinition s g d).result = .ok own ∧ own ⊆ files := by
  induction ds generalizing files
  case nil => contradiction
  case cons d' ds ih =>
    obtain ⟨own, more, h₁, h₂, rfl⟩ := ofDefinitions_cons_eq_ok hf
    rcases List.mem_cons.mp hd with rfl | hd
    · exact ⟨own, h₁, List.subset_append_left own more⟩
    · obtain ⟨own', h', hs⟩ := ih h₂ hd
      exact ⟨own', h', List.subset_append_of_subset_right own hs⟩

-- What is in the way of the classes of a definition.
def errorsOf (g : DefinitionGraph) (d : Definition) : List Error :=
  if d.needsTable then errorsOfParts (storedParts g d) else []

theorem outcome_ofDefinition (h : g.IsLinked) (hd : d ∈ g.definitions) :
    (ofDefinition s g d).outcome = firstOf (errorsOf g d) := by
  rw [ofDefinition, errorsOf]
  split
  case isFalse => rfl
  case isTrue =>
    rw [Reported.outcome_bind (o := .ok ()) fun _ => rfl, Reported.outcome,
      result_classOf h (get?_of_mem hd)]
    cases firstOf (errorsOfParts (storedParts g d)) <;> rfl

theorem outcome_ofDefinitions (h : g.IsLinked) (hd : ∀ d ∈ ds, d ∈ g.definitions) :
    (ofDefinitions s g ds).outcome = firstOf (ds.flatMap (errorsOf g)) := by
  induction ds
  case nil => rfl
  case cons d ds ih =>
    have ⟨hd, hds⟩ := List.forall_mem_cons.mp hd
    have hr := ih hds
    rw [ofDefinitions, List.flatMap_cons, firstOf_append, ← outcome_ofDefinition (s := s) h hd, ← hr]
    refine Reported.outcome_bind fun files => ?_
    rw [Reported.outcome_bind (o := .ok ()) fun _ => rfl]
    cases (ofDefinitions s g ds).outcome <;> rfl

end GeneratedFile

namespace Blueprint

open GeneratedFile

variable {passes : Nat} {d : Document} {b : Blueprint}

theorem filesOf_eq_ok {s : LanguageSettings} {files : List GeneratedFile}
    (hf : (b.filesOf s).result = .ok files) :
    ∃ classes, (ofDefinitions s b.graph b.graph.definitions).result = .ok classes ∧
      files = classes ++ (if b.graph.definitions.any (·.needsTable) then
          ofInterfaces s.language.lexicon (s.kind .database) else []) ++
        b.endpoints.map (ofEndpoint s) := by
  simp only [filesOf, bind, Reported.result_bind] at hf
  cases h : (ofDefinitions s b.graph b.graph.definitions).result <;>
    simp only [Except.bind, h] at hf <;> cases hf
  exact ⟨_, rfl, rfl⟩

theorem outcome_filesOf (h : b.graph.IsLinked) (s : LanguageSettings) :
    (b.filesOf s).outcome = firstOf (b.graph.definitions.flatMap (errorsOf b.graph)) := by
  rw [filesOf, Reported.outcome_bind (o := .ok ()) fun _ => rfl,
    outcome_ofDefinitions h fun _ => id]
  cases firstOf (b.graph.definitions.flatMap (errorsOf b.graph)) <;> rfl

-- The files of a blueprint are generated, in any language, exactly if the rows of all tables are
-- finite. A row without end is all that can be at fault: neither the storage of a property nor a
-- lookup asks for a definition that does not exist.
theorem generates_of_ofDocument_eq_ok (h : ofDocument passes d = .ok b) (s : LanguageSettings) :
    ((∃ files, (b.filesOf s).result = .ok files) ↔
        ∀ e ∈ b.graph.definitions, e.needsTable → b.graph.HasFiniteRow e.name) ∧
      (∀ x, (b.filesOf s).result = .error x → ∃ n, x = .endlessColumns n) ∧
      ∀ e ∈ b.graph.definitions, (∃ found, lookups b.graph e = .ok found) ∧
        ∀ depth, ∀ p ∈ e.properties, ∀ x ∈ (storageOf b.graph depth e.name p).errors,
          ∃ n, x = .endlessColumns n := by
  have ⟨hr, hl, _⟩ := isBuilt_of_ofDocument_eq_ok h
  refine ⟨?_, fun x hx => ?_, fun e he => ⟨⟨_, lookups_of_isLinked hl <| get?_of_mem he⟩, ?_⟩⟩
  · rw [Reported.exists_eq_ok_iff, outcome_filesOf hl, firstOf_eq_ok_iff, List.flatMap_eq_nil_iff]
    refine forall₂_congr fun e he => ?_
    rw [errorsOf, ← errorsOfParts_storedParts_eq_nil_iff hr (get?_of_mem he)]
    split <;> simp_all
  · have hx := mem_of_firstOf_eq_error <| outcome_filesOf hl s ▸ Reported.outcome_eq_error hx
    obtain ⟨e, he, hx⟩ := List.mem_flatMap.mp hx
    rw [errorsOf] at hx
    split at hx
    case isTrue  => exact exists_endlessColumns_of_mem_errorsOfParts hr (get?_of_mem he) hx
    case isFalse => contradiction
  · exact fun depth p hp x hx =>
      exists_endlessColumns_of_mem_errors hr (hr _ e (get?_of_mem he) p hp) hx

theorem generates_orderDocument :
    ∃ files, ((⟨orderGraph, []⟩ : Blueprint).filesOf <| .standard .kotlin).result = .ok files := by
  refine (generates_of_ofDocument_eq_ok ofDocument_orderDocument _).left.mpr fun e he _ => ?_
  have h : orderGraph.definitions.flatMap (fun e => errorsOfParts (storedParts orderGraph e)) = [] := by
    decide +kernel
  exact hasFiniteRow_of_errorsOfParts_eq_nil (get?_of_mem he) <| List.flatMap_eq_nil_iff.mp h e he

end Blueprint

end Classwright
