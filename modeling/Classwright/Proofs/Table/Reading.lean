import Classwright.Proofs.Table.Class
import Classwright.Proofs.Table.Print

namespace Classwright

namespace Classes.Table

open Schema Code Settings Template DefinitionGraph

variable {g : DefinitionGraph} {d : Definition} {n owner path : String} {p : Property} {s : Storage}
  {parts : List (Property × Storage)} {lex : Lexicon} {source : Source} {id : Primitive}
  {model database : ClassSettings} {reading : Reading} {required : Bool} {w : Warning}

@[simp] theorem cells_presentIf : (Reading.presentIf required reading).cells = reading.cells := by
  rw [Reading.presentIf]
  split <;> rfl

theorem isSome_columnType?_iff {isEnum : Bool} {typeName : String} :
    (columnType? isEnum typeName).isSome ↔ isEnum ∨ (Primitive.ofName? typeName).isSome := by
  cases isEnum <;> simp [columnType?]

-- Scalars always have a column type: enumerations list their values, and others are native.
theorem isSome_columnType?_of_isEnum (hp : p.Listed) (he : p.type.element.isEnum)
    (ha : ¬p.type.isArray) : (columnType? p.choices.isSome p.type.element.name).isSome :=
  isSome_columnType?_iff.mpr <| .inl <| hp.isSome_choices he ha

theorem isSome_columnType?_of_primitive? {primitive : Primitive}
    (h : p.type.element.primitive? = some primitive) :
    (columnType? false p.type.element.name).isSome :=
  isSome_columnType?_iff.mpr <| .inr <| Option.isSome_iff_exists.mpr ⟨_, h⟩

theorem exists_columnType?_name (id : Primitive) : ∃ t, columnType? false id.name = some t :=
  Option.isSome_iff_exists.mp <| isSome_columnType?_iff.mpr <| .inr <| by
    simp [Primitive.ofName?_name]

theorem names_columnsOf_scalar {primitive : Primitive} {isEnum : Bool}
    (h : (columnType? isEnum p.type.element.name).isSome) :
    (columnsOf lex path source p (.scalar primitive isEnum)).map (·.name) =
      (readingOf id path owner p (.scalar primitive isEnum)).cells.map (·.column) := by
  obtain ⟨t, ht⟩ := Option.isSome_iff_exists.mp h
  simp only [columnsOf, ownColumn?, ht, readingOf, cells_presentIf]
  split <;> rfl

theorem names_columnsOfParts
    (h : ∀ part ∈ parts, ∀ source, (columnsOf lex path source part.fst part.snd).map (·.name) =
      (readingOf id path owner part.fst part.snd).cells.map (·.column)) :
    (columnsOfParts lex path source parts).map (·.name) =
      (cellsOfFields (fieldReadings id path owner parts)).map (·.column) := by
  induction parts
  case nil => rfl
  case cons part parts ih =>
    have ⟨hp, hps⟩ := List.forall_mem_cons.mp h
    simp [columnsOfParts, fieldReadings, cellsOfFields, hp, ih hps]

-- The fields of a definition in the graph, as parts of a storage, list their values.
theorem listed_of_mem_parts (hl : g.IsListed) (hd : g.get? n = some d)
    (hp : parts.map Prod.fst = d.properties) {part : Property × Storage} (hm : part ∈ parts) :
    part.fst.Listed :=
  hl n d hd part.fst <| hp ▸ List.mem_map_of_mem hm

-- By the way a property is stored, its columns are those that are read. Columns and readings of a
-- definition without a table are both prefixed by the names on the way to it.
theorem StoredAs.names_columnsOf (hl : g.IsListed) (h : StoredAs g owner p s) (hp : p.Listed) :
    (columnsOf lex path source p s).map (·.name) =
      (readingOf id path owner p s).cells.map (·.column) := by
  induction h generalizing path source
  case choice he ha =>
    exact names_columnsOf_scalar <| isSome_columnType?_of_isEnum hp he ha
  case native hn =>
    exact names_columnsOf_scalar <| isSome_columnType?_of_primitive? hn
  case flattened hd hps _ ih =>
    exact names_columnsOfParts fun part hm source => ih part hm (listed_of_mem_parts hl hd hps hm)
  case foreignKey id _ _ =>
    obtain ⟨t, ht⟩ := exists_columnType?_name id
    simp [columnsOf, ownColumn?, ht, readingOf, Reading.cells]
  all_goals simp [columnsOf, ownColumn?, readingOf, Reading.cells]

theorem names_columns (lex : Lexicon) (hl : g.IsListed) (hd : g.get? n = some d) :
    (columns lex g d).map (·.name) = (cellsOfFields (readings g d)).map (·.column) := by
  refine names_columnsOfParts fun part hm source => ?_
  obtain ⟨p, hp, rfl⟩ := List.mem_map.mp hm
  exact storedAs_storageOf.names_columnsOf hl <| hl n d hd p hp

-- No property is left out because its type has no column type.
theorem StoredAs.ne_noColumnType {o name : String} (hl : g.IsListed) (h : StoredAs g owner p s)
    (hp : p.Listed) (hw : w ∈ (survey owner p s).warnings) : w ≠ .noColumnType o name := by
  induction h
  case choice he ha =>
    simp [survey, isSome_columnType?_of_isEnum hp he ha] at hw
  case native hn =>
    simp [survey, isSome_columnType?_of_primitive? hn] at hw
  case flattened hd hps _ ih =>
    rw [survey] at hw
    obtain ⟨part, hm, hw⟩ := exists_of_mem_warnings_surveyParts hw
    exact ih part hm (listed_of_mem_parts hl hd hps hm) hw
  case unsupported =>
    simp only [survey, List.mem_singleton] at hw
    simp [hw]
  all_goals simp [survey] at hw

-- Each column has a constant that holds its name.
theorem exists_constant {ls : List Lookup} {column : Column} (h : column ∈ columns lex g d) :
    ∃ f ∈ (classWith lex model database g d ls).constants, f.name = columnConstant column.name ∧
      f.default = some (lex.stringLiteral column.name) := by
  rw [classWith, ClassDecl.constants_addImports]
  exact ⟨_, List.mem_cons_of_mem _ <| List.mem_map_of_mem h, rfl, rfl⟩

end Classes.Table

namespace Blueprint

open Settings Text Template DefinitionGraph Classes Classes.Table

variable {passes : Nat} {document : Swagger.Document} {b : Blueprint} {d : Definition} {n : String}

-- A table whose columns come to an end has a class that reads exactly the columns that it writes, in
-- the same order. The values are taken one behind the other from the current row, each by the constant
-- that the class has for its column, and nothing else is taken from it but what is asked for by guards
-- and navigations. No column was left out for lack of a column type.
theorem stored_eq_columns (h : ofDocument passes document = .ok b) (hd : b.graph.get? n = some d)
    (hn : ¬b.graph.Recurs n) (language : Language) (model database : ClassSettings) :
    let lex := language.lexicon
    let cells := cellsOfFields (readings b.graph d)
    ∃ c, (classOf lex model database b.graph d).result = .ok c ∧ c.name = tableClassName n ∧
      cells.map (·.column) = (columns lex b.graph d).map (·.name) ∧
      (∀ cell ∈ cells, ∃ f ∈ c.constants, f.name = columnConstant cell.column ∧
        f.default = some (lex.stringLiteral cell.column) ∧
        cell.print lex c.name = fill (lex.table.rowGetters.get cell.primitive)
          [("row", "row"), ("column", c.name ++ "." ++ f.name)] ∧
        InOrder [c.name ++ "." ++ f.name] (cell.print lex c.name)) ∧
      (∃ m ∈ c.methods, m.name = "readFromDb" ∧
        m.body = [ClassContext.answer ⟨lex, d⟩ <| (rowReading b.graph d).print lex c.name]) ∧
      InOrder (cells.map (·.print lex c.name)) ((rowReading b.graph d).print lex c.name) ∧
      ReadsOnly lex (cells ++ checksOfFields (readings b.graph d))
        (fun table => (rowReading b.graph d).print lex table) ∧
      ∀ w ∈ (classOf lex model database b.graph d).warnings, ∀ owner name,
        w ≠ .noColumnType owner name := by
  intro lex cells
  have ⟨hr, hk, hl⟩ := isBuilt_of_ofDocument_eq_ok h
  have hs : cells.map (·.column) = (columns lex b.graph d).map (·.name) :=
    (names_columns lex hl hd).symm
  have hv := language.showsReadings_lexicon
  refine ⟨linkedClass lex model database b.graph d, ?_, ?_, hs, ?_, exists_readFromDb,
    inOrder_cells hv (rowReading b.graph d), readsOnly_print _ ?_, ?_⟩
  · rw [result_classOf hk hd, errorsOfParts_eq_nil_of_not_recurs hr hd hn]
    rfl
  · rw [name_linkedClass, name_of_get? hd]
  · intro cell hc
    obtain ⟨column, hm, he⟩ := List.mem_map.mp <| hs ▸ List.mem_map_of_mem hc
    obtain ⟨f, hf, hfn, hfd⟩ := exists_constant hm
    rw [he] at hfn hfd
    refine ⟨f, hf, hfn, hfd, ?_⟩
    rw [hfn]
    exact ⟨rfl, inOrder_cell hv⟩
  · simp [rowReading, Reading.cells, Reading.checks, cells]
  · intro w hw owner name
    rw [classOf] at hw
    rcases Reported.mem_warnings_bind hw with hw | ⟨_, hw⟩
    · obtain ⟨part, hm, hw⟩ := exists_of_mem_warnings_surveyParts hw
      obtain ⟨p, hp, rfl⟩ := List.mem_map.mp hm
      exact storedAs_storageOf.ne_noColumnType hl (hl n d hd p hp) hw
    · rcases Reported.mem_warnings_bind hw with hw | ⟨_, hw⟩ <;> contradiction

theorem stored_orderDocument : ∃ d c value, orderGraph.get? "Order" = some d ∧
    (classOf .kotlin (.standard .kotlin .model) (.standard .kotlin .database) orderGraph d).result =
      .ok c ∧
    (columns .kotlin orderGraph d).map (·.name) = ["id", "address_street", "buyer"] ∧
    (∃ m ∈ c.methods, m.body = [ClassContext.answer ⟨.kotlin, d⟩ value]) ∧
    InOrder ["row.getLong(OrderTableSchema.ID_FIELD)",
      "row.getString(OrderTableSchema.ADDRESS_STREET_FIELD)",
      "row.getString(OrderTableSchema.BUYER_FIELD)"] value := by
  have hd : orderGraph.get? "Order" = some orderGraph.definitions[0] := rfl
  have he : errorsOfParts (storedParts orderGraph orderGraph.definitions[0]) = [] := by decide +kernel
  have hn := (hasFiniteRow_of_errorsOfParts_eq_nil hd he).not_recurs
  obtain ⟨c, hc, hn, hs, _, ⟨m, hm, _, hb⟩, hv, _⟩ := stored_eq_columns ofDocument_orderDocument
    hd hn .kotlin (.standard .kotlin .model) (.standard .kotlin .database)
  refine ⟨_, c, _, hd, hc, hs.symm.trans ?_, ⟨m, hm, hb⟩, ?_⟩
  · decide +kernel
  · have hp : (cellsOfFields (readings orderGraph orderGraph.definitions[0])).map
        (·.print .kotlin (tableClassName "Order")) =
      ["row.getLong(OrderTableSchema.ID_FIELD)",
        "row.getString(OrderTableSchema.ADDRESS_STREET_FIELD)",
        "row.getString(OrderTableSchema.BUYER_FIELD)"] := by
      decide +kernel
    rw [← hp, ← hn]
    exact hv

end Blueprint

end Classwright
