import Classwright.Classes.Model
import Classwright.Classes.Request
import Classwright.Proofs.Table.Class

namespace Classwright

open Schema Code Settings Classes Classes.Table

namespace Code

@[simp] theorem TypeExpr.namedTypes_setNullable {t : TypeExpr} {nullable : Bool} :
    (t.setNullable nullable).namedTypes = t.namedTypes := by
  cases t <;> rfl

-- The names in the types of the parameters and of the result. A hash code has a type of the language.
def Method.typeNames (m : Method) : List String :=
  m.parameters.flatMap (·.type.namedTypes) ++
    if m.name = "hashCode" then [] else m.returns.namedTypes

theorem Method.typeNames_subset {m : Method} :
    m.typeNames ⊆ m.parameters.flatMap (·.type.namedTypes) ++ m.returns.namedTypes := by
  rw [typeNames]
  split <;> simp

namespace ClassDecl

-- The names in the types of all members.
def typeNames (c : ClassDecl) : List String :=
  (c.constants ++ c.fields).flatMap (·.type.namedTypes) ++
    c.constructor.toList.flatMap (·.parameters.flatMap (·.type.namedTypes)) ++
    c.methods.flatMap (·.typeNames)

@[simp] theorem typeNames_addImports {c : ClassDecl} {is : List Import} :
    (c.addImports is).typeNames = c.typeNames := by
  simp [typeNames]

end ClassDecl

end Code

namespace Classes

variable {lex : Lexicon} {s model database : ClassSettings} {d : Definition} {e : Endpoint}
  {p : Property} {owner n : String} {g : DefinitionGraph} {ls : List Table.Lookup}

-- A property is declared with its own enumeration, or else with the type that it leads to.
theorem of_mem_namedTypes_declaredType (h : n ∈ (declaredType owner p).namedTypes) :
    p.choices.isSome ∧ n = enumName owner p.name ∨
      p.choices = none ∧ ¬p.type.element.isNative ∧ n = p.type.element.name := by
  have he : n ∈ (elementType p.type.element).namedTypes →
      ¬p.type.element.isNative ∧ n = p.type.element.name := by
    rw [elementType, TypeRef.isNative]
    split <;> simp_all [TypeExpr.namedTypes]
  rw [declaredType, TypeExpr.namedTypes_setNullable] at h
  cases hc : p.choices
  all_goals
    simp only [hc] at h
    split at h <;> simp_all [TypeExpr.namedTypes]

-- A class that holds what its constructor takes mentions no other types if its methods mention none.
theorem exists_of_mem_typeNames {c : ClassDecl} {fields : List Code.Field} {name : String}
    (hc : c.constants = []) (hf : c.fields = fields)
    (hk : c.constructor = some ⟨name, fields.map (·.toParameter)⟩)
    (hm : ∀ m ∈ c.methods, m.typeNames = []) (h : n ∈ c.typeNames) :
    ∃ f ∈ fields, n ∈ f.type.namedTypes := by
  simp only [ClassDecl.typeNames, hc, hf, hk, List.mem_append] at h
  rcases h with (h | h) | h
  · simpa using h
  · simpa [Code.Field.toParameter] using h
  · obtain ⟨m, hmm, h⟩ := List.mem_flatMap.mp h
    simp [hm m hmm] at h

theorem exists_of_mem_typeNames_modelClass (h : n ∈ (Model.classOf lex s d).typeNames) :
    ∃ p ∈ d.properties, n ∈ (declaredType d.name p).namedTypes := by
  have hm : ∀ m ∈ Model.equalsMethod lex d :: (Model.hashCodeMethod? lex d).toList,
      m.typeNames = [] := by
    refine List.forall_mem_cons.mpr ⟨List.subset_nil.mp Method.typeNames_subset, fun m hm => ?_⟩
    rw [Model.hashCodeMethod?] at hm
    split at hm
    case isTrue => simp at hm
    case isFalse =>
      obtain ⟨_, _, rfl⟩ := Option.map_eq_some_iff.mp <| Option.mem_toList.mp hm
      simp [Method.typeNames, Method.make]
  rw [Model.classOf, ClassDecl.typeNames_addImports] at h
  obtain ⟨f, hf, h⟩ := exists_of_mem_typeNames rfl rfl rfl hm h
  obtain ⟨p, hp, rfl⟩ := List.mem_map.mp hf
  exact ⟨p, hp, h⟩

theorem exists_of_mem_typeNames_requestClass (h : n ∈ (Request.classOf lex s model e).typeNames) :
    ∃ p ∈ Request.properties e, n ∈ (declaredType (requestClassName e.name) p).namedTypes := by
  have hm : ∀ m ∈ Request.methods lex s e, m.typeNames = [] := by
    simp [Request.methods, Request.accessor, Method.typeNames, Method.make, TypeExpr.namedTypes]
  rw [Request.classOf, ClassDecl.typeNames_addImports] at h
  obtain ⟨f, hf, h⟩ := exists_of_mem_typeNames rfl rfl rfl hm h
  obtain ⟨p, hp, rfl⟩ := List.mem_map.mp hf
  exact ⟨p, hp, h⟩

theorem typeNames_method_subset {name : String} {parameters : List Code.Parameter}
    {returns : TypeExpr} {body : List Statement} :
    (ClassContext.method name parameters returns body).typeNames ⊆
      databaseType :: parameters.flatMap (·.type.namedTypes) ++ returns.namedTypes :=
  Method.typeNames_subset

theorem typeNames_subset_of_mem_basicMethods {m : Method}
    (h : m ∈ ClassContext.basicMethods ⟨lex, d⟩ (columns lex g d) (readings g d)) :
    m.typeNames ⊆ [d.name, databaseType, rowType] := by
  simp only [ClassContext.basicMethods, List.mem_cons, List.not_mem_nil, or_false] at h
  rcases h with rfl | rfl | rfl | rfl | rfl | rfl | rfl | rfl | rfl <;>
    refine List.Subset.trans typeNames_method_subset ?_ <;>
    simp [Code.Parameter.make, ClassContext.model, ClassContext.models, ClassContext.id,
      TypeExpr.setNullable, TypeExpr.namedTypes]

theorem typeNames_subset_of_mem_methods {m : Method}
    (h : m ∈ (Table.classWith lex model database g d ls).methods) :
    m.typeNames ⊆ [d.name, databaseType, rowType] := by
  rw [methods_classWith] at h
  rcases List.mem_append.mp <| List.mem_of_find?_eq_some (mem_distinctMethods.mp h).right with h | h
  · exact typeNames_subset_of_mem_basicMethods h
  · obtain ⟨l, _, rfl⟩ := List.mem_map.mp h
    refine List.Subset.trans typeNames_method_subset ?_
    simp [Code.Parameter.make, ClassContext.model, ClassContext.models, TypeExpr.namedTypes]

-- All constants of a table class are texts, and there are no objects of it.
theorem typeNames_tableClass_subset :
    (Table.classWith lex model database g d ls).typeNames ⊆ [d.name, databaseType, rowType] := by
  intro n h
  rcases List.mem_append.mp h with h | h
  · refine absurd h ?_
    simp [classWith, ClassDecl.make, ClassContext.constants, Code.Field.constant, TypeExpr.namedTypes]
  · obtain ⟨m, hm, h⟩ := List.mem_flatMap.mp h
    exact typeNames_subset_of_mem_methods hm h

end Classes

end Classwright
