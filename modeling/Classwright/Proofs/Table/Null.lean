import Classwright.Classes.Model
import Classwright.Language.All
import Classwright.Proofs.Table.Presence

namespace Classwright

open Schema

namespace Template

variable {slots : Slots} {c : Char} {cs value : List Char} {skip length : Nat} {template code : String}

-- Characters that code is put together with; no name or literal has one of them.
def marks : List Char := ['(', '[', ' ', '!']

def isMarked (code : String) : Bool := code.toList.any marks.contains

theorem isMarked_iff : isMarked code ↔ ∃ c ∈ code.toList, c ∈ marks := by
  simp [isMarked]

theorem mem_drop_takeWhile {p : Char → Bool} (hp : p c) (hn : c ∉ cs.takeWhile p) (hc : c ∈ cs) :
    c ∈ cs.drop ((cs.takeWhile p).length + 1) := by
  induction cs
  case nil => cases hc
  case cons d cs ih =>
    by_cases hd : p d
    case pos =>
      rw [List.takeWhile_cons_of_pos hd, List.mem_cons, not_or] at hn
      rw [List.takeWhile_cons_of_pos hd]
      exact ih hn.right <| (List.mem_cons.mp hc).resolve_left hn.left
    case neg =>
      rw [List.takeWhile_cons_of_neg hd]
      exact (List.mem_cons.mp hc).resolve_left fun h => hd (h ▸ hp)

-- A slot is its name and the brace behind it.
theorem mem_drop_of_slot?_eq_some (h : slot? slots cs = some (length, value)) (hb : c ≠ '}')
    (hn : ∀ slot ∈ slots, c ∉ slot.fst.toList) (hc : c ∈ cs) : c ∈ cs.drop length := by
  simp only [slot?, Option.ite_none_right_eq_some, Option.map_eq_some_iff, Prod.mk.injEq] at h
  obtain ⟨_, _, hs, rfl, -⟩ := h
  refine mem_drop_takeWhile (by simpa) ?_ hc
  obtain ⟨_, _, rfl, -⟩ := List.lookup_eq_some_iff.mp hs
  simpa using hn _ <| List.mem_append_right _ List.mem_cons_self

-- Filling replaces nothing but braces and the names of slots.
theorem mem_fillChars (hb : c ≠ '{' ∧ c ≠ '}') (hn : ∀ slot ∈ slots, c ∉ slot.fst.toList)
    (h : c ∈ cs.drop skip) : c ∈ fillChars slots skip cs := by
  fun_induction fillChars
  case case1    => simp at h
  case case2 ih => exact ih h
  case case3 cs hc length value hs ih =>
    have hm : c ∈ cs := by simpa [hb.left, beq_iff_eq.mp hc] using h
    exact List.mem_append_right _ <| ih <| mem_drop_of_slot?_eq_some hs hb.right hn hm
  case case4 ih | case5 ih => exact List.mem_cons.mpr <| (List.mem_cons.mp h).imp_right ih

theorem isMarked_fill (h : isMarked template) (hn : ∀ slot ∈ slots, ¬isMarked slot.fst) :
    isMarked (fill template slots) := by
  obtain ⟨c, hc, hm⟩ := isMarked_iff.mp h
  have hb : c ≠ '{' ∧ c ≠ '}' := by
    constructor <;> rintro rfl <;> exact absurd hm (by decide)
  refine isMarked_iff.mpr ⟨c, ?_, hm⟩
  rw [fill, String.toList_ofList]
  exact mem_fillChars hb (fun slot hs hc => hn slot hs <| isMarked_iff.mpr ⟨c, hc, hm⟩) hc

end Template

open Template

namespace Lexicon

variable {lex : Lexicon} {className method value : String} {args : List String}

-- All expressions by which a value is read have a mark, which the null literal has not.
structure MarksReadings (lex : Lexicon) : Prop where
  rowGetter     : ∀ primitive, isMarked (lex.table.rowGetters.get primitive)
  enumFromValue : isMarked lex.table.enumFromValue
  split         : isMarked lex.table.split
  nullGuard     : isMarked lex.table.nullGuard
  construct     : isMarked lex.construct
  assertion     : ∀ template ∈ lex.nonNullAssertion, isMarked template
  nullLiteral   : ¬isMarked lex.nullLiteral

theorem isMarked_staticCall : isMarked (lex.staticCall className method args) :=
  isMarked_iff.mpr ⟨'(', by simp [staticCall, String.toList_append], by decide⟩

theorem MarksReadings.assertNonNull (h : lex.MarksReadings) (hv : isMarked value) :
    isMarked (lex.assertNonNull value) := by
  rw [Lexicon.assertNonNull]
  split
  case h_1 ha => exact isMarked_fill (h.assertion _ ha) (by simp; decide)
  case h_2    => exact hv

end Lexicon

theorem Language.marksReadings_lexicon : ∀ language : Language, language.lexicon.MarksReadings
  | .java | .kotlin | .typescript | .python => {
      rowGetter     := fun primitive => by cases primitive <;> decide +kernel
      enumFromValue := by decide +kernel
      split         := by decide +kernel
      nullGuard     := by decide +kernel
      construct     := by decide +kernel
      assertion     := by decide +kernel
      nullLiteral   := by decide +kernel }

-- The properties whose type has no place in a table.
inductive DefinitionGraph.Omits (g : DefinitionGraph) (p : Property) : Prop
  | enumArray : p.type.isArray → p.type.element.isEnum → Omits g p
  | primitiveArray {primitive} : p.type.isArray → p.type.element.primitive? = some primitive →
    primitive ≠ .string → Omits g p
  | objectArray : p.type.isArray → p.type.element.primitive? = none →
    ¬g.needsTable p.type.element.name → Omits g p
  | targetId {target} : ¬p.type.isArray → ¬p.type.isScalarElement →
    g.get? p.type.element.name = some target → target.needsTable →
    Classes.Table.idType? target = none → Omits g p

namespace Classes.Table

open DefinitionGraph Code Settings

variable {g : DefinitionGraph} {d : Definition} {n owner path table : String} {p : Property}
  {ps : List Property} {s : Storage} {lex : Lexicon} {id : Primitive} {depth : Nat}
  {reading : Reading} {required : Bool} {cell : Cell} {object : String × List (String × Reading)}
  {model : ClassSettings}

section

variable (h : lex.MarksReadings)
include h

theorem isMarked_cell : isMarked (cell.print lex table) :=
  isMarked_fill (h.rowGetter cell.primitive) (by simp; decide)

theorem isMarked_presentIf (hr : isMarked (reading.print lex table)) :
    isMarked ((Reading.presentIf required reading).print lex table) := by
  rw [Reading.presentIf]
  split
  case isTrue  => exact h.assertNonNull hr
  case isFalse => exact hr

-- What is stored is read by code.
theorem isMarked_readingOf (he : s.errors = []) (hs : ¬∃ why, s = .unsupported why) :
    isMarked ((readingOf id path owner p s).print lex table) := by
  cases s
  case unsupported why => exact absurd ⟨why, rfl⟩ hs
  case unresolved      => cases he
  case stringList      => exact isMarked_presentIf h <| isMarked_fill h.split (by simp; decide)
  case foreignKey      => exact isMarked_presentIf h Lexicon.isMarked_staticCall
  case idList          => exact Lexicon.isMarked_staticCall
  case navigation      => exact Lexicon.isMarked_staticCall
  case scalar =>
    refine isMarked_presentIf h ?_
    split
    case isTrue  => exact isMarked_fill h.enumFromValue (by simp; decide)
    case isFalse => exact isMarked_cell h
  case flattened =>
    simp only [readingOf, Reading.print]
    split
    case h_1 => exact isMarked_fill h.nullGuard (by simp; decide)
    case h_2 => exact isMarked_fill h.construct (by simp; decide)

theorem print_readingOf_eq_nullLiteral_iff (he : s.errors = []) :
    (readingOf id path owner p s).print lex table = lex.nullLiteral ↔
      ∃ why, s = .unsupported why where
  mp  := fun hp => by_contra fun hs => h.nullLiteral <| hp ▸ isMarked_readingOf h he hs
  mpr := by
    rintro ⟨_, rfl⟩
    rfl

end

theorem omits_of_storageOf_eq_unsupported {why : Unstored} :
    storageOf g depth owner p = .unsupported why → g.Omits p := by
  fun_cases storageOf <;> intro h
  case case1 he ha            => exact .enumArray ha he
  case case5 hp _ ha hs       => exact .primitiveArray (by simpa using ha) ‹_› hs
  case case8 hp target hd ht ha => exact .objectArray ha hp (needsTable_of_get? hd ▸ ht)
  case case7 element he hp target hd ht =>
    have hs : ¬p.type.isScalarElement := by
      simp_all [TypeRef.isScalarElement, TypeRef.isNative, element]
    rw [tableStorage] at h
    split_ifs at h with ha
    split at h
    case h_1    => cases h
    case h_2 hi => exact .targetId ha hs hd ht hi
  all_goals cases h

theorem storageOf_eq_unsupported_of_omits (h : g.Omits p)
    (he : (storageOf g depth owner p).errors = []) :
    ∃ why, storageOf g depth owner p = .unsupported why := by
  by_cases hc : p.type.element.isEnum
  all_goals cases h
  case pos.targetId hs _ _ _ => simp [TypeRef.isScalarElement, hc] at hs
  case neg.enumArray hn      => exact absurd hn hc
  case neg.primitiveArray ha hs hp =>
    exact ⟨.primitiveArray, by simp [storageOf, ha, hc, hp, hs]⟩
  case neg.objectArray ha hp ht =>
    cases hd : g.get? p.type.element.name
    case none => simp [storageOf, hc, hp, hd, Storage.errors] at he
    case some target =>
      rw [needsTable_of_get? hd] at ht
      exact ⟨.objectArray, by simp [storageOf, ha, hc, hp, hd, ht]⟩
  case neg.targetId target ha hs hd ht hi =>
    have hp : p.type.element.primitive? = none := by
      simp_all [TypeRef.isScalarElement, TypeRef.isNative]
    exact ⟨.targetId, by simp [storageOf, ha, hc, hp, hd, ht, tableStorage, hi]⟩
  -- Whatever else an array is, its items are an enumeration.
  all_goals exact ⟨.enumArray, by simp [storageOf, *]⟩

mutual

-- The objects that a reading builds, each with the readings of its fields.
def Reading.objects : Reading → List (String × List (String × Reading))
  | .object definition fields _ => (definition, fields) :: objectsOfFields fields
  | .present reading            => reading.objects
  | _                           => []

def objectsOfFields : List (String × Reading) → List (String × List (String × Reading))
  | []                   => []
  | (_, reading) :: rest => reading.objects ++ objectsOfFields rest

end

@[simp] theorem objects_presentIf :
    (Reading.presentIf required reading).objects = reading.objects := by
  rw [Reading.presentIf]
  split <;> rfl

-- The reading of a property is null exactly if there is no place for it.
def Rebuilds (lex : Lexicon) (g : DefinitionGraph) (p : Property) (field : String × Reading) : Prop :=
  field.fst = p.name ∧ ∀ table, field.snd.print lex table = lex.nullLiteral ↔ g.Omits p

-- The constructor of an object is given a reading for each property, and its parameter for a property
-- takes null exactly if the property is not required.
def IsRebuilt (lex : Lexicon) (g : DefinitionGraph) (model : ClassSettings)
    (object : String × List (String × Reading)) : Prop :=
  ∃ d k, g.get? object.fst = some d ∧ (Model.classOf lex model d).constructor = some k ∧
    k.parameters.map (fun q => (q.name, q.type.isNullable)) =
      d.properties.map (fun p => (p.name, !p.required)) ∧
    List.Forall₂ (Rebuilds lex g) d.properties object.snd

theorem isNullable_declaredType : (declaredType owner p).isNullable = !p.required := by
  rw [declaredType, elementType]
  split_ifs <;> try split
  all_goals rfl

theorem isRebuilt_of_forall₂ (hd : g.get? n = some d) (hn : object.fst = n)
    (h : List.Forall₂ (Rebuilds lex g) d.properties object.snd) : IsRebuilt lex g model object := by
  refine ⟨d, _, hn ▸ hd, by rw [Model.classOf, ClassDecl.constructor_addImports], ?_, h⟩
  simp [Model.fieldOf, Field.toParameter, Field.make, isNullable_declaredType]

theorem rebuilds_readingOf (h : lex.MarksReadings) (he : (storageOf g depth owner p).errors = []) :
    Rebuilds lex g p (p.name, readingOf id path owner p (storageOf g depth owner p)) := by
  refine ⟨rfl, fun table => (print_readingOf_eq_nullLiteral_iff h he).trans ⟨?_, ?_⟩⟩
  · exact fun ⟨_, hs⟩ => omits_of_storageOf_eq_unsupported hs
  · exact fun ho => storageOf_eq_unsupported_of_omits ho he

theorem rebuilds_fieldReadings (h : lex.MarksReadings)
    (he : ∀ p ∈ ps, (storageOf g depth owner p).errors = []) :
    List.Forall₂ (Rebuilds lex g) ps
      (fieldReadings id path owner (ps.map fun p => (p, storageOf g depth owner p))) := by
  induction ps
  case nil => exact .nil
  case cons p ps ih =>
    have ⟨hp, hps⟩ := List.forall_mem_cons.mp he
    exact .cons (rebuilds_readingOf h hp) (ih hps)

theorem isRebuilt_of_mem_objectsOfFields {f : Property → Storage}
    (h : ∀ p ∈ ps, ∀ o ∈ (readingOf id path owner p (f p)).objects, IsRebuilt lex g model o)
    (ho : object ∈ objectsOfFields (fieldReadings id path owner (ps.map fun p => (p, f p)))) :
    IsRebuilt lex g model object := by
  induction ps
  case nil => cases ho
  case cons p ps ih =>
    have ⟨hp, hps⟩ := List.forall_mem_cons.mp h
    rcases List.mem_append.mp ho with ho | ho
    · exact hp _ ho
    · exact ih hps ho

theorem objects_readingOf_tableStorage :
    (readingOf id path owner p (tableStorage owner p d)).objects = [] := by
  rw [tableStorage]
  split
  case isTrue  => split <;> rfl
  case isFalse => split <;> simp [readingOf, Reading.objects]

-- Only the definitions that are stored in the columns of their owner are built, one level after another.
theorem isRebuilt_of_mem_objects (h : lex.MarksReadings) :
    (storageOf g depth owner p).errors = [] →
      object ∈ (readingOf id path owner p (storageOf g depth owner p)).objects →
      IsRebuilt lex g model object := by
  fun_induction storageOf generalizing path object <;> intro he ho
  case case10 target hd _ _ depth ih =>
    have he : ∀ f ∈ target.properties, (storageOf g depth target.name f).errors = [] := by
      simpa [Storage.errors, errorsOfParts_eq_flatMap] using he
    rcases List.mem_cons.mp ho with rfl | ho
    · exact isRebuilt_of_forall₂ hd (name_of_get? hd) <| rebuilds_fieldReadings h he
    · exact isRebuilt_of_mem_objectsOfFields (fun f hf _ => ih f (he f hf)) ho
  case case2 =>
    simp only [readingOf, objects_presentIf] at ho
    split at ho <;> cases ho
  case case7 => simp [objects_readingOf_tableStorage] at ho
  all_goals simp [readingOf, Reading.objects] at ho

end Classes.Table

namespace Blueprint

open Settings Classes Classes.Table

variable {passes : Nat} {document : Swagger.Document} {b : Blueprint} {d : Definition} {n : String}

-- A table whose columns come to an end has a class that reads its rows. Of every object that is built
-- for a row, the properties that are given null by a literal are those that have no place in a table.
theorem isRebuilt_of_ofDocument_eq_ok (h : ofDocument passes document = .ok b)
    (hd : b.graph.get? n = some d) (hn : ¬b.graph.Recurs n) (language : Language)
    (model database : ClassSettings) :
    ∃ c, (Table.classOf language.lexicon model database b.graph d).result = .ok c ∧
      ClassContext.readFromDb ⟨language.lexicon, d⟩ (readings b.graph d) ∈ c.methods ∧
      ∀ object ∈ (d.name, readings b.graph d) :: objectsOfFields (readings b.graph d),
        IsRebuilt language.lexicon b.graph model object := by
  have ⟨hr, hk, _⟩ := isBuilt_of_ofDocument_eq_ok h
  have he := errorsOfParts_eq_nil_of_not_recurs hr hd hn
  have hm := language.marksReadings_lexicon
  refine ⟨_, result_classOf_eq_ok hk hd he, ?_, ?_⟩
  · exact mem_methods_of_mem_basicMethods <| by simp [ClassContext.basicMethods]
  · have hs : ∀ p ∈ d.properties, (storageOf b.graph b.graph.size d.name p).errors = [] := by
      simpa [errorsOfParts_storedParts] using he
    rintro object (_ | ⟨_, ho⟩)
    case head =>
      exact isRebuilt_of_forall₂ hd (DefinitionGraph.name_of_get? hd) <| rebuilds_fieldReadings hm hs
    case tail =>
      exact isRebuilt_of_mem_objectsOfFields (fun p hp _ => isRebuilt_of_mem_objects hm (hs p hp)) ho

-- A shop has a place for all of its properties, and for those of its address.
theorem isRebuilt_shopDocument : ∃ d, shopGraph.get? "Shop" = some d ∧
    (∀ object ∈ ("Shop", readings shopGraph d) :: objectsOfFields (readings shopGraph d),
      IsRebuilt .kotlin shopGraph (.standard .kotlin .model) object) ∧
    ∀ d ∈ shopGraph.definitions, ∀ p ∈ d.properties, ¬shopGraph.Omits p := by
  have hd : shopGraph.get? "Shop" = some shopGraph.definitions[0] := rfl
  have he : errorsOfParts (storedParts shopGraph shopGraph.definitions[0]) = [] := by decide +kernel
  have hn := (hasFiniteRow_of_errorsOfParts_eq_nil hd he).not_recurs
  obtain ⟨_, _, _, ho⟩ := isRebuilt_of_ofDocument_eq_ok ofDocument_shopDocument hd hn .kotlin
    (.standard .kotlin .model) (.standard .kotlin .database)
  refine ⟨_, hd, ho, fun d hd p hp h => ?_⟩
  have ha : ∀ d ∈ shopGraph.definitions, ∀ p ∈ d.properties, ¬p.type.isArray := by decide
  have hi : ∀ d ∈ shopGraph.definitions, d.needsTable → idType? d ≠ none := by decide
  cases h
  case targetId _ _ _ hd ht h => exact hi _ (DefinitionGraph.mem_of_get? hd) ht h
  all_goals exact ha d hd p hp ‹_›

-- A stall that has to have sizes, which are numbers.
def stallDocument : Swagger.Document :=
  documentOf [("Stall", requiring ["sizes"]
    [("id", entryOf "type" "integer"), ("sizes", arrayOf <| entryOf "type" "integer")])]

theorem schemas_stallDocument : stallDocument.schemas =
    [⟨"Stall", [.ofType "id" (.named "integer" false) false,
      .ofType "sizes" (.holding "array" (.named "integer" false) false) true]⟩] := by
  with_unfolding_all rfl

def stallGraph : DefinitionGraph where
  definitions := [.make "Stall" [.ofType "id" (.named "integer" false) false,
    .ofType "sizes" (.holding "array" (.named "integer" false) false) true]]
  nodup := by decide

theorem ofDocument_stallDocument : ofDocument 3 stallDocument = .ok ⟨stallGraph, []⟩ := by
  rw [ofDocument, initialGraph, schemas_stallDocument]
  rfl

-- The sizes have no place in the table, so the stall gets null for them, which its constructor does not
-- take.
theorem stall_reads_null : ofDocument 3 stallDocument = .ok ⟨stallGraph, []⟩ ∧
    ¬stallGraph.Recurs "Stall" ∧
    ∃ d, stallGraph.get? "Stall" = some d ∧ d.needsTable ∧
      ∃ p ∈ d.properties, p.required ∧ ¬(declaredType "Stall" p).isNullable ∧
        ∃ field ∈ readings stallGraph d, field.fst = p.name ∧
          field.snd.print .kotlin "StallTableSchema" = Lexicon.kotlin.nullLiteral := by
  have hd : stallGraph.get? "Stall" = some stallGraph.definitions[0] := rfl
  have he : errorsOfParts (storedParts stallGraph stallGraph.definitions[0]) = [] := by decide +kernel
  have hn := (hasFiniteRow_of_errorsOfParts_eq_nil hd he).not_recurs
  let sizes := stallGraph.definitions[0].properties[1]
  have hs : storageOf stallGraph stallGraph.size "Stall" sizes = .unsupported .primitiveArray := by
    rw [storageOf]
    rfl
  have hp : sizes ∈ stallGraph.definitions[0].properties := List.getElem_mem _
  have hm := mem_readings hp hs
  exact ⟨ofDocument_stallDocument, hn, _, hd, rfl, sizes, hp, rfl, by decide, _, hm, rfl, rfl⟩

end Blueprint

end Classwright
