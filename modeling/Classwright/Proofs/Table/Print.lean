import Classwright.Language.All
import Classwright.Proofs.Table.Class
import Classwright.Proofs.Text.Template

namespace Classwright

namespace Text

-- Texts that stand in another one, each behind those before it.
def InOrder : List String → String → Prop
  | [], _               => True
  | text :: texts, whole => ∃ before rest, whole = before ++ text ++ rest ∧ InOrder texts rest

variable {text whole whole' before after : String} {texts texts' items : List String}

theorem inOrder_nil : InOrder [] whole :=
  trivial

theorem inOrder_self : InOrder [text] text :=
  ⟨"", "", by simp, trivial⟩

theorem InOrder.behind (h : InOrder texts whole) : InOrder texts (before ++ whole) := by
  cases texts
  case nil => trivial
  case cons =>
    obtain ⟨before', rest, rfl, h⟩ := h
    exact ⟨before ++ before', rest, by simp [String.append_assoc], h⟩

theorem InOrder.append (h : InOrder texts whole) (h' : InOrder texts' whole') :
    InOrder (texts ++ texts') (whole ++ whole') := by
  induction texts generalizing whole
  case nil => exact h'.behind
  case cons ih =>
    obtain ⟨before, rest, rfl, h⟩ := h
    exact ⟨before, rest ++ whole', by simp [String.append_assoc], ih h⟩

theorem InOrder.ahead (h : InOrder texts whole) : InOrder texts (whole ++ after) := by
  simpa using h.append <| @inOrder_nil after

theorem InOrder.trans (h : InOrder texts text) (ht : InOrder [text] whole) : InOrder texts whole := by
  obtain ⟨before, rest, rfl, -⟩ := ht
  exact h.behind.ahead

end Text

open Text

namespace Template

variable {slots : Slots} {key value template : String}

-- The scan of a template comes to a slot of that name.
def HasSlot (key template : String) : Prop :=
  ∃ before ∈ template.toList.inits, ClosesBraces before ∧
    before ++ '{' :: (key.toList ++ ['}']) <+: template.toList

instance : Decidable (HasSlot key template) :=
  inferInstanceAs <| Decidable (∃ _ ∈ _, _)

theorem inOrder_fill (h : HasSlot key template) (hn : '}' ∉ key.toList)
    (hv : slots.lookup key = some value) : InOrder [value] (fill template slots) := by
  obtain ⟨before, -, hc, rest, ht⟩ := h
  have hb : Fills slots before (fillChars slots 0 before) := fills_iff.mpr rfl
  have ht : template.toList = before ++ '{' :: (key.toList ++ '}' :: rest) := by simp [← ht]
  rw [fill, ht, hb.fillChars_append hc, fillChars_slot hn <| by rwa [String.ofList_toList]]
  refine ⟨.ofList (fillChars slots 0 before), .ofList (fillChars slots 0 rest), ?_, trivial⟩
  simp [String.ofList_append, String.append_assoc]

end Template

open Template

namespace Lexicon

variable {lex : Lexicon} {className method item : String} {args : List (String × String)}
  {texts texts' items : List String}

-- What a value is read with has a place for that value.
structure ShowsReadings (lex : Lexicon) : Prop where
  rowGetter     : ∀ primitive, HasSlot "column" (lex.table.rowGetters.get primitive)
  enumFromValue : HasSlot "value" lex.table.enumFromValue
  split         : HasSlot "value" lex.table.split
  nullGuard     : HasSlot "value" lex.table.nullGuard
  construct     : HasSlot "args" lex.construct
  assertion     : ∀ template ∈ lex.nonNullAssertion, HasSlot "value" template

theorem inOrder_commaList_cons (h : InOrder texts item) (h' : InOrder texts' (commaList items)) :
    InOrder (texts ++ texts') (commaList (item :: items)) := by
  cases items
  case nil => simpa [commaList] using h.append h'
  case cons => simpa [commaList, String.append_assoc] using h.append <| h'.behind

theorem inOrder_staticCall (h : InOrder texts (commaList items)) :
    InOrder texts (lex.staticCall className method items) :=
  h.behind.ahead

theorem ShowsReadings.inOrder_assertNonNull (h : lex.ShowsReadings) (hi : InOrder texts item) :
    InOrder texts (lex.assertNonNull item) := by
  rw [assertNonNull]
  split
  case h_1 ha => exact hi.trans <| inOrder_fill (h.assertion _ ha) (by decide) rfl
  case h_2    => exact hi

-- An argument as it stands in a call, with its name where the language wants it.
def argument (lex : Lexicon) (arg : String × String) : String :=
  if lex.namedArguments then arg.fst ++ "=" ++ arg.snd else arg.snd

theorem inOrder_argument {name : String} (h : InOrder texts item) :
    InOrder texts (lex.argument (name, item)) := by
  rw [argument]
  split
  · exact h.behind
  · exact h

theorem ShowsReadings.inOrder_constructObject (h : lex.ShowsReadings)
    (ha : InOrder texts (commaList (args.map lex.argument))) :
    InOrder texts (lex.constructObject className args) :=
  ha.trans <| inOrder_fill h.construct (by decide) rfl

end Lexicon

theorem Language.showsReadings_lexicon : ∀ language : Language, language.lexicon.ShowsReadings
  | .java | .kotlin | .typescript | .python => {
      rowGetter     := fun primitive => by cases primitive <;> decide +kernel
      enumFromValue := by decide +kernel
      split         := by decide +kernel
      nullGuard     := by decide +kernel
      construct     := by decide +kernel
      assertion     := by decide +kernel }

namespace Classes.Table

open Schema Settings

mutual

-- The cells that a reading takes values from, in order. A guard only asks whether there is a value, and
-- the id by which the rows of another table are found belongs to the row as a whole.
def Reading.cells : Reading → List Cell
  | .value cell               => [cell]
  | .choice _ _ cell          => [cell]
  | .strings cell             => [cell]
  | .object _ fields _        => cellsOfFields fields
  | .found _ .byId key        => [key]
  | .found _ .byIdList key    => [key]
  | .found _ (.byOwner _) _   => []
  | .present reading          => reading.cells
  | .null                     => []

def cellsOfFields : List (String × Reading) → List Cell
  | []                   => []
  | (_, reading) :: rest => reading.cells ++ cellsOfFields rest

end

mutual

-- The cells that a reading only asks about: guards, and ids that the rows of other tables carry.
def Reading.checks : Reading → List Cell
  | .object _ fields guard  => guard.toList ++ checksOfFields fields
  | .found _ (.byOwner _) key => [key]
  | .present reading        => reading.checks
  | _                       => []

def checksOfFields : List (String × Reading) → List Cell
  | []                   => []
  | (_, reading) :: rest => reading.checks ++ checksOfFields rest

end

-- A text that takes no values from the current row but those of the given cells: all else is the same
-- whichever class holds the constants of the columns.
inductive ReadsOnly (lex : Lexicon) (cells : List Cell) : (String → String) → Prop
  | text (s : String) : ReadsOnly lex cells fun _ => s
  | cell {c} : c ∈ cells → ReadsOnly lex cells fun table => c.print lex table
  | append {f f'} : ReadsOnly lex cells f → ReadsOnly lex cells f' →
      ReadsOnly lex cells fun table => f table ++ f' table

mutual

-- A reading, and all readings inside it.
def Reading.parts : Reading → List Reading
  | .object definition fields guard => .object definition fields guard :: partsOfFields fields
  | .present reading                => .present reading :: reading.parts
  | reading                         => [reading]

def partsOfFields : List (String × Reading) → List Reading
  | []                   => []
  | (_, reading) :: rest => reading.parts ++ partsOfFields rest

end

-- The object of a row, built from the readings of its table.
def rowReading (g : DefinitionGraph) (d : Definition) : Reading :=
  .object d.name (readings g d) none

variable {lex : Lexicon} {table definition : String} {texts : List String} {cell : Cell}
  {fields : List (String × Reading)} {guard : Option Cell} {model database : ClassSettings}
  {g : DefinitionGraph} {d : Definition} {p : Property} {r : Reading} {id : Primitive}
  {storage : Storage}
  {path owner : String} {parts : List (Property × Storage)}

theorem fieldReadings_eq_map : fieldReadings id path owner parts =
    parts.map fun part => (part.fst.name, readingOf id path owner part.fst part.snd) := by
  induction parts
  case nil         => rfl
  case cons _ _ ih => rw [fieldReadings, ih, List.map_cons]

theorem mem_readings (hp : p ∈ d.properties) (hs : storageOf g g.size d.name p = storage) :
    (p.name, readingOf (idType d) "" d.name p storage) ∈ readings g d := by
  subst hs
  rw [readings, fieldReadings_eq_map, storedParts, List.map_map]
  exact List.mem_map.mpr ⟨p, hp, rfl⟩

theorem mem_partsOfFields : r ∈ partsOfFields (fieldReadings id path owner parts) ↔
    ∃ part ∈ parts, r ∈ (readingOf id path owner part.fst part.snd).parts := by
  induction parts
  case nil     => simp [fieldReadings, partsOfFields]
  case cons ih => simp [fieldReadings, partsOfFields, ih]

-- The reading of a property is a part of that of the row.
theorem readingOf_mem_parts (hp : p ∈ d.properties) (hs : storageOf g g.size d.name p = storage) :
    readingOf (idType d) "" d.name p storage ∈ (rowReading g d).parts := by
  subst hs
  refine .tail _ <| mem_partsOfFields.mpr ⟨_, List.mem_map_of_mem hp, ?_⟩
  cases readingOf (idType d) "" d.name p (storageOf g g.size d.name p) <;> exact .head _

-- What is printed for an object is the call of its constructor, behind its guard if it has one.
theorem print_object : (Reading.object definition fields guard).print lex table =
    guard.elim (lex.constructObject definition <| Reading.printFields lex table fields) fun cell =>
      fill lex.table.nullGuard [("check", cell.print lex table),
        ("value", lex.constructObject definition <| Reading.printFields lex table fields)] := by
  cases guard <;> rfl

theorem printFields_eq_map :
    Reading.printFields lex table fields = fields.map fun f => (f.fst, f.snd.print lex table) := by
  induction fields
  case nil         => rfl
  case cons _ _ ih => rw [Reading.printFields, ih, List.map_cons]

-- The text of a cell has the constant of the column in it.
theorem inOrder_cell (h : lex.ShowsReadings) :
    InOrder [table ++ "." ++ columnConstant cell.column] (cell.print lex table) :=
  inOrder_fill (h.rowGetter _) (by decide) rfl

theorem inOrder_object (h : lex.ShowsReadings) (hf : InOrder texts <| Lexicon.commaList <|
    (Reading.printFields lex table fields).map lex.argument) :
    InOrder texts ((Reading.object definition fields guard).print lex table) := by
  rw [print_object]
  cases guard
  case none => exact h.inOrder_constructObject hf
  case some =>
    exact (h.inOrder_constructObject hf).trans <| inOrder_fill h.nullGuard (by decide) rfl

mutual

-- What is printed for a reading has the texts of its cells in it, in order.
theorem inOrder_cells (h : lex.ShowsReadings) : ∀ r : Reading,
    InOrder (r.cells.map (·.print lex table)) (r.print lex table)
  | .value _            => inOrder_self
  | .choice ..          => inOrder_fill h.enumFromValue (by decide) rfl
  | .strings _          => inOrder_fill h.split (by decide) rfl
  | .object _ fields _  => inOrder_object h <| inOrder_cellsOfFields h fields
  | .found _ .byId _ | .found _ .byIdList _ =>
    Lexicon.inOrder_staticCall <| Lexicon.inOrder_commaList_cons inOrder_nil inOrder_self
  | .found _ (.byOwner _) _ | .null => inOrder_nil
  | .present reading    => h.inOrder_assertNonNull <| inOrder_cells h reading

theorem inOrder_cellsOfFields (h : lex.ShowsReadings) : ∀ fields : List (String × Reading),
    InOrder ((cellsOfFields fields).map (·.print lex table))
      (Lexicon.commaList <| (Reading.printFields lex table fields).map lex.argument)
  | [] => inOrder_nil
  | (_, reading) :: rest => by
    rw [cellsOfFields, List.map_append, Reading.printFields, List.map_cons]
    exact Lexicon.inOrder_commaList_cons (Lexicon.inOrder_argument <| inOrder_cells h reading) <|
      inOrder_cellsOfFields h rest

end

mutual

-- What is printed for a reading has the texts of all readings inside it in it.
theorem inOrder_parts (h : lex.ShowsReadings) : ∀ reading : Reading, ∀ r ∈ reading.parts,
    InOrder [r.print lex table] (reading.print lex table)
  | .object _ fields _ => List.forall_mem_cons.mpr
    ⟨inOrder_self, fun r hr => inOrder_object h <| inOrder_partsOfFields h fields r hr⟩
  | .present reading => List.forall_mem_cons.mpr
    ⟨inOrder_self, fun r hr => h.inOrder_assertNonNull <| inOrder_parts h reading r hr⟩
  | .value _ | .choice .. | .strings _ | .found .. | .null =>
    List.forall_mem_singleton.mpr inOrder_self

theorem inOrder_partsOfFields (h : lex.ShowsReadings) :
    ∀ fields : List (String × Reading), ∀ r ∈ partsOfFields fields, InOrder [r.print lex table]
      (Lexicon.commaList <| (Reading.printFields lex table fields).map lex.argument)
  | [], _, hr => nomatch hr
  | (name, reading) :: rest, r, hr => by
    rw [Reading.printFields, List.map_cons]
    rcases List.mem_append.mp hr with hr | hr
    · have hp : InOrder [r.print lex table] (lex.argument (name, reading.print lex table)) :=
        Lexicon.inOrder_argument <| inOrder_parts h reading r hr
      exact Lexicon.inOrder_commaList_cons hp inOrder_nil
    · exact Lexicon.inOrder_commaList_cons inOrder_nil <| inOrder_partsOfFields h rest r hr

end

variable {cells : List Cell} {values : List (String × (String → String))} {f : String → String}

-- The slots that a template is filled with when a class holds the constants.
def slotsAt (values : List (String × (String → String))) (table : String) : Slots :=
  values.map fun v => (v.fst, v.snd table)

theorem lookup_slotsAt {key : String} :
    (slotsAt values table).lookup key = (values.lookup key).map (· table) := by
  induction values
  case nil => rfl
  case cons v values ih =>
    rw [slotsAt, List.map_cons, List.lookup_cons, List.lookup_cons]
    split
    · rfl
    · exact ih

theorem startsNoSlot_slotsAt {cs : List Char} (table' : String)
    (h : StartsNoSlot (slotsAt values table) cs) : StartsNoSlot (slotsAt values table') cs := by
  intro name rest hs hn
  have hl := h name rest hs hn
  rw [lookup_slotsAt, Option.map_eq_none_iff] at hl ⊢
  exact hl

-- Where the scan of a template comes to slots does not depend on their values.
theorem readsOnly_fillChars (h : ∀ v ∈ values, ReadsOnly lex cells v.snd) (cs : List Char) :
    ReadsOnly lex cells fun table => .ofList (fillChars (slotsAt values table) 0 cs) := by
  by_cases ho : '{' ∈ cs
  case neg =>
    simp only [fillChars_of_not_mem ho]
    exact .text _
  case pos =>
    obtain ⟨before, rest, rfl, hb⟩ := List.eq_append_cons_of_mem ho
    simp only [fillChars_append_of_not_mem hb, String.ofList_append]
    refine .append (.text _) ?_
    rcases startsNoSlot_or (slotsAt values "") rest with hs | ⟨name, _, rest, rfl, hn, hv⟩
    · simp only [fillChars_brace <| startsNoSlot_slotsAt _ hs, String.ofList_cons]
      exact .append (.text _) <| readsOnly_fillChars h rest
    · rw [lookup_slotsAt, Option.map_eq_some_iff] at hv
      obtain ⟨f, hf, -⟩ := hv
      have hv : ∀ table, (slotsAt values table).lookup (.ofList name) = some (f table) :=
        fun table => by rw [lookup_slotsAt, hf, Option.map_some]
      have hm : (.ofList name, f) ∈ values := by
        obtain ⟨_, _, rfl, -⟩ := List.lookup_eq_some_iff.mp hf
        simp
      simp only [fillChars_slot hn <| hv _, String.ofList_append, String.ofList_toList]
      exact .append (h _ hm) <| readsOnly_fillChars h rest
termination_by cs.length

theorem readsOnly_fill {template : String} (values : List (String × (String → String)))
    (h : ∀ v ∈ values, ReadsOnly lex cells v.snd) :
    ReadsOnly lex cells fun table => fill template (slotsAt values table) :=
  readsOnly_fillChars h template.toList

theorem readsOnly_commaList (items : List (String → String)) (h : ∀ f ∈ items, ReadsOnly lex cells f) :
    ReadsOnly lex cells fun table => Lexicon.commaList (items.map (· table)) := by
  induction items
  case nil => exact .text _
  case cons f items ih =>
    have ⟨hf, hi⟩ := List.forall_mem_cons.mp h
    cases items
    case nil => simpa [Lexicon.commaList] using hf
    case cons =>
      simpa [Lexicon.commaList, String.append_assoc] using hf.append <| .append (.text ", ") <| ih hi

theorem readsOnly_staticCall {className method : String} (h : ReadsOnly lex cells f) :
    ReadsOnly lex cells fun table => lex.staticCall className method ["db", f table] := by
  have ha : ∀ f' ∈ [fun _ => "db", f], ReadsOnly lex cells f' := by simpa using ⟨.text _, h⟩
  exact .append (.append (.text _) <| readsOnly_commaList _ ha) <| .text _

theorem readsOnly_assertNonNull (h : ReadsOnly lex cells f) :
    ReadsOnly lex cells fun table => lex.assertNonNull (f table) := by
  unfold Lexicon.assertNonNull
  split
  case h_1 => exact readsOnly_fill [("value", f)] <| List.forall_mem_singleton.mpr h
  case h_2 => exact h

theorem readsOnly_argument {name : String} (h : ReadsOnly lex cells f) :
    ReadsOnly lex cells fun table => lex.argument (name, f table) := by
  by_cases hn : lex.namedArguments
  case pos =>
    simp only [Lexicon.argument, hn, if_true]
    exact .append (.text _) h
  case neg => simpa [Lexicon.argument, hn] using h

theorem readsOnly_object (hg : guard.toList ⊆ cells)
    (hf : ∀ field ∈ fields, ReadsOnly lex cells fun table => field.snd.print lex table) :
    ReadsOnly lex cells fun table => (Reading.object definition fields guard).print lex table := by
  let args := fields.map fun field table => lex.argument (field.fst, field.snd.print lex table)
  have ha : ∀ f ∈ args, ReadsOnly lex cells f :=
    List.forall_mem_map.mpr fun field hm => readsOnly_argument <| hf field hm
  have hl : ReadsOnly lex cells fun table =>
      Lexicon.commaList <| (Reading.printFields lex table fields).map lex.argument := by
    simpa [args, printFields_eq_map, Function.comp_def] using readsOnly_commaList args ha
  have hb : ReadsOnly lex cells fun table =>
      lex.constructObject definition <| Reading.printFields lex table fields :=
    readsOnly_fill [("class", fun _ => definition), ("args", _)] <| by simpa using ⟨.text _, hl⟩
  simp only [print_object]
  cases guard
  case none => exact hb
  case some cell =>
    have hc : ReadsOnly lex cells fun table => cell.print lex table := .cell <| by simpa using hg
    exact readsOnly_fill [("check", _), ("value", _)] <| by simpa using ⟨hc, hb⟩

mutual

-- What is printed for a reading takes no values from the row but its cells and those that it only
-- asks about.
theorem readsOnly_print : ∀ r : Reading, r.cells ++ r.checks ⊆ cells →
    ReadsOnly lex cells fun table => r.print lex table
  | .value cell, h => .cell <| h <| by simp [Reading.cells]
  | .choice owner property cell, h => by
    have hc : ReadsOnly lex cells fun table => cell.print lex table :=
      .cell <| h <| by simp [Reading.cells]
    exact readsOnly_fill [("type", fun _ => _), ("value", _)] <| by simpa using ⟨.text _, hc⟩
  | .strings cell, h => by
    have hc : ReadsOnly lex cells fun table => cell.print lex table :=
      .cell <| h <| by simp [Reading.cells]
    exact readsOnly_fill [("value", _)] <| List.forall_mem_singleton.mpr hc
  | .object _ fields guard, h => by
    simp only [Reading.cells, Reading.checks, List.append_subset] at h
    exact readsOnly_object h.right.left <|
      readsOnly_printFields fields <| List.append_subset.mpr ⟨h.left, h.right.right⟩
  | .found _ .byId key, h | .found _ .byIdList key, h | .found _ (.byOwner _) key, h =>
    readsOnly_staticCall <| .cell <| h <| by simp [Reading.cells, Reading.checks]
  | .present reading, h => readsOnly_assertNonNull <| readsOnly_print reading h
  | .null, _ => .text _

theorem readsOnly_printFields : ∀ fields : List (String × Reading),
    cellsOfFields fields ++ checksOfFields fields ⊆ cells →
    ∀ field ∈ fields, ReadsOnly lex cells fun table => field.snd.print lex table
  | [], _, _, hm => nomatch hm
  | (name, reading) :: rest, h, field, hm => by
    simp only [cellsOfFields, checksOfFields, List.append_subset] at h
    rcases List.mem_cons.mp hm with rfl | hm
    · exact readsOnly_print reading <| List.append_subset.mpr ⟨h.left.left, h.right.left⟩
    · exact readsOnly_printFields rest
        (List.append_subset.mpr ⟨h.left.right, h.right.right⟩) field hm

end

-- The method of a table class that rebuilds the object of a row.
theorem exists_readFromDb : ∃ m ∈ (linkedClass lex model database g d).methods,
    m.name = "readFromDb" ∧ m.body = [ClassContext.answer ⟨lex, d⟩ <|
      (rowReading g d).print lex (linkedClass lex model database g d).name] := by
  have hm : ClassContext.readFromDb ⟨lex, d⟩ (readings g d) ∈
      ClassContext.basicMethods ⟨lex, d⟩ (columns lex g d) (readings g d) := by
    simp [ClassContext.basicMethods]
  refine ⟨_, mem_methods_of_mem_basicMethods hm, rfl, ?_⟩
  rw [name_linkedClass]
  rfl

end Classes.Table

end Classwright
