import Classwright.Proofs.Table.Flatten

namespace Classwright

namespace Code.ClassDecl

variable {c : ClassDecl} {i : Import} {is : List Import}

theorem exists_addImports_eq (c : ClassDecl) (is : List Import) :
    ∃ is', c.addImports is = { c with imports := is' } := by
  rw [addImports]
  induction is generalizing c
  case nil => exact ⟨_, rfl⟩
  case cons i is ih =>
    obtain ⟨is', h⟩ := ih (c.addImport i)
    refine ⟨is', h.trans ?_⟩
    rw [addImport]
    split <;> rfl

@[simp] theorem name_addImports : (c.addImports is).name = c.name := by
  obtain ⟨_, h⟩ := exists_addImports_eq c is
  rw [h]

@[simp] theorem package_addImports : (c.addImports is).package = c.package := by
  obtain ⟨_, h⟩ := exists_addImports_eq c is
  rw [h]

theorem mem_imports_addImport {j : Import} :
    i ∈ (c.addImport j).imports ↔ i ∈ c.imports ∨ i = j ∧ i.name ≠ c.name := by
  simp only [addImport, Bool.or_eq_true, beq_iff_eq, List.contains_iff_mem]
  split <;> grind

-- All imports are added but those that have the name of the class.
theorem mem_imports_addImports :
    i ∈ (c.addImports is).imports ↔ i ∈ c.imports ∨ i ∈ is ∧ i.name ≠ c.name := by
  induction is generalizing c
  case nil => simp [addImports]
  case cons j is ih =>
    have hn : (c.addImport j).name = c.name := @name_addImports c [j]
    rw [show c.addImports (j :: is) = (c.addImport j).addImports is from rfl, ih, hn,
      mem_imports_addImport]
    grind

@[simp] theorem fields_addImports : (c.addImports is).fields = c.fields := by
  obtain ⟨_, h⟩ := exists_addImports_eq c is
  rw [h]

@[simp] theorem enums_addImports : (c.addImports is).enums = c.enums := by
  obtain ⟨_, h⟩ := exists_addImports_eq c is
  rw [h]

@[simp] theorem constants_addImports : (c.addImports is).constants = c.constants := by
  obtain ⟨_, h⟩ := exists_addImports_eq c is
  rw [h]

@[simp] theorem constructor_addImports : (c.addImports is).constructor = c.constructor := by
  obtain ⟨_, h⟩ := exists_addImports_eq c is
  rw [h]

@[simp] theorem methods_addImports : (c.addImports is).methods = c.methods := by
  obtain ⟨_, h⟩ := exists_addImports_eq c is
  rw [h]

end Code.ClassDecl

namespace Classes.Table

open Schema Code Settings DefinitionGraph

variable {g : DefinitionGraph} {d : Definition} {n : String} {edge : Edge}
  {lex : Lexicon} {model database : ClassSettings} {seen : List (String × List String)}
  {m : Method} {ms rest : List Method} {columns : List Column}
  {readings : List (String × Reading)} {ctx : ClassContext}

-- The lookup for an edge, if its owner exists.
def lookupOf? (g : DefinitionGraph) (d : Definition) (edge : Edge) : Option Lookup :=
  (g.get? edge.definition).bind fun owner => lookup? d owner edge

theorem lookups_eq_ok (h : ∀ edge ∈ d.edges, g.contains edge.definition) :
    lookups g d = .ok (d.edges.filterMap (lookupOf? g d)) := by
  rw [lookups]
  generalize d.edges = edges at h ⊢
  induction edges
  case nil => rfl
  case cons edge edges ih =>
    have ⟨he, hes⟩ := List.forall_mem_cons.mp h
    obtain ⟨owner, ho⟩ := exists_of_contains he
    rw [List.foldr_cons, ih hes, require_eq_ok_iff.mpr ho, List.filterMap_cons]
    cases hl : lookup? d owner edge <;>
      simp [lookupOf?, ho, hl, bind, Except.bind, pure, Except.pure]

theorem lookups_of_isLinked (h : g.IsLinked) (hd : g.get? n = some d) :
    lookups g d = .ok (d.edges.filterMap (lookupOf? g d)) :=
  lookups_eq_ok fun _ he => contains_of_mem_edges h hd he

-- The table class of a definition in a linked graph.
def linkedClass (lex : Lexicon) (model database : ClassSettings) (g : DefinitionGraph)
    (d : Definition) : ClassDecl :=
  classWith lex model database g d (d.edges.filterMap (lookupOf? g d))

@[simp] theorem name_linkedClass :
    (linkedClass lex model database g d).name = tableClassName d.name := by
  simp [linkedClass, classWith, ClassDecl.make, ClassContext.className]

theorem result_classOf (h : g.IsLinked) (hd : g.get? n = some d) :
    (classOf lex model database g d).result = (firstOf <| errorsOfParts <| storedParts g d).map
      fun _ => linkedClass lex model database g d := by
  simp only [classOf, bind, Reported.result_bind, result_surveyParts, Reported.ofExcept,
    lookups_of_isLinked h hd]
  cases firstOf (errorsOfParts (storedParts g d)) <;> rfl

theorem result_classOf_eq_ok (h : g.IsLinked) (hd : g.get? n = some d)
    (he : errorsOfParts (storedParts g d) = []) :
    (classOf lex model database g d).result = .ok (linkedClass lex model database g d) := by
  rw [result_classOf h hd, he]
  rfl

theorem eq_linkedClass_of_result_eq_ok {c : ClassDecl} (h : g.IsLinked) (hd : g.get? n = some d)
    (hc : (classOf lex model database g d).result = .ok c) : c = linkedClass lex model database g d := by
  rw [result_classOf h hd] at hc
  cases hf : firstOf (errorsOfParts (storedParts g d)) <;> simp_all [Except.map]

-- Methods are kept unless their signature is taken by an earlier one.
theorem mem_distinctMethods : m ∈ distinctMethods lex seen ms ↔
    m.signature lex ∉ seen ∧ ms.find? (·.signature lex == m.signature lex) = some m := by
  induction ms generalizing seen
  case nil => simp [distinctMethods]
  case cons m' ms ih =>
    rw [distinctMethods, List.find?_cons]
    split
    case isTrue hs =>
      rw [ih]
      grind
    case isFalse hs =>
      rw [List.mem_cons, ih]
      grind

theorem nodup_distinctMethods : ((distinctMethods lex seen ms).map (·.signature lex)).Nodup := by
  induction ms generalizing seen
  case nil => simp [distinctMethods]
  case cons m ms ih =>
    rw [distinctMethods]
    split
    case isTrue => exact ih
    case isFalse =>
      refine List.nodup_cons.mpr ⟨fun hm => ?_, ih⟩
      obtain ⟨m', hm', he⟩ := List.mem_map.mp hm
      exact (mem_distinctMethods.mp hm').left <| he ▸ List.mem_cons_self

-- Each signature is kept once.
theorem exists_mem_distinctMethods (h : m ∈ ms) (hs : m.signature lex ∉ seen) :
    ∃ m' ∈ distinctMethods lex seen ms, m'.signature lex = m.signature lex := by
  obtain ⟨m', hm'⟩ : ∃ m', ms.find? (·.signature lex == m.signature lex) = some m' :=
    Option.isSome_iff_exists.mp <| List.find?_isSome.mpr ⟨m, h, by simp⟩
  have he : m'.signature lex = m.signature lex := by simpa using List.find?_some hm'
  exact ⟨m', mem_distinctMethods.mpr ⟨he ▸ hs, he ▸ hm'⟩, he⟩

-- Methods of distinct signatures that come first are all kept.
theorem prefix_distinctMethods (hn : (ms.map (·.signature lex)).Nodup)
    (hs : ∀ m ∈ ms, m.signature lex ∉ seen) : ms <+: distinctMethods lex seen (ms ++ rest) := by
  induction ms generalizing seen
  case nil => exact List.nil_prefix
  case cons m ms ih =>
    obtain ⟨hm, hms⟩ := List.nodup_cons.mp hn
    have ⟨hs, hss⟩ := List.forall_mem_cons.mp hs
    rw [List.cons_append, distinctMethods, if_neg (by simpa using hs), List.prefix_cons_inj]
    refine ih hms fun m' hm' hc => ?_
    cases List.mem_cons.mp hc
    case inl he => exact hm <| List.mem_map.mpr ⟨m', hm', he⟩
    case inr hc => exact hss m' hm' hc

-- The names of the methods that every table class has.
def basicNames : List String := [
  "createTable", "readFromDb", "insertOrUpdate", "batchInsertOrUpdate", "deleteById",
  "readListFromDb", "select", "selectAll", "selectById"]

theorem map_name_basicMethods (ctx : ClassContext) (columns : List Column)
    (readings : List (String × Reading)) :
    (ctx.basicMethods columns readings).map (·.name) = basicNames :=
  rfl

theorem nodup_signature_basicMethods :
    ((ctx.basicMethods columns readings).map (·.signature lex)).Nodup := by
  have h : basicNames.Nodup := by decide
  refine List.Nodup.of_map Prod.fst ?_
  rw [List.map_map]
  exact h

theorem methods_classWith {ls : List Lookup} :
    (classWith lex model database g d ls).methods = distinctMethods lex []
      (ClassContext.basicMethods ⟨lex, d⟩ (Table.columns lex g d) (Table.readings g d) ++
        ls.map (ClassContext.lookupMethod ⟨lex, d⟩)) := by
  simp [classWith]

theorem mem_methods_of_mem_basicMethods (h : m ∈ ClassContext.basicMethods ⟨lex, d⟩
      (Table.columns lex g d) (Table.readings g d)) :
    m ∈ (linkedClass lex model database g d).methods := by
  rw [linkedClass, methods_classWith]
  exact (prefix_distinctMethods nodup_signature_basicMethods <| by simp).subset h

-- Every method that is called for is declared, or another one of its signature.
theorem exists_mem_methods {m : Method} (h : m ∈ ClassContext.basicMethods ⟨lex, d⟩
      (Table.columns lex g d) (Table.readings g d) ++
      (d.edges.filterMap (lookupOf? g d)).map (ClassContext.lookupMethod ⟨lex, d⟩)) :
    ∃ m' ∈ (linkedClass lex model database g d).methods, m'.signature lex = m.signature lex := by
  rw [linkedClass, methods_classWith]
  exact exists_mem_distinctMethods h List.not_mem_nil

end Classes.Table

end Classwright
