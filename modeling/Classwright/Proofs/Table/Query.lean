import Classwright.Proofs.Table.Key

namespace Classwright

open Schema Code Settings Template

namespace Classes.Table

open DefinitionGraph

variable {g : DefinitionGraph} {n : String} {d o : Definition} {p : Property} {lex : Lexicon}
  {model database : ClassSettings} {m : Method} {edge : Edge} {l : Lookup} {condition : Condition}
  {own other : List String} {column : String}

-- The rows of `n` have a column.
def Keeps (g : DefinitionGraph) (n column : String) : Prop :=
  ∃ x : Leaf, g.KeptAt n x.fst x.snd ∧ columnName x.snd = column

theorem keeps_of_hasColumn (hd : g.get? n = some d) (hp : p ∈ d.properties) (hc : g.hasColumn n p) :
    Keeps g n (Naming.snake p.name) := by
  obtain ⟨i, hi⟩ := List.mem_iff_getElem?.mp hp
  exact ⟨([i], [p.name]), .column hd hi hc, columnName_singleton _⟩

def columnNames (lex : Lexicon) (g : DefinitionGraph) (d : Definition) : List String :=
  (columns lex g d).map (·.name)

theorem mem_columnNames_iff (lex : Lexicon) (hl : g.IsListed) (hd : g.get? n = some d)
    (he : errorsOfParts (storedParts g d) = []) : column ∈ columnNames lex g d ↔ Keeps g n column := by
  simp only [columnNames, map_name_columns lex hl hd, List.mem_map, mem_leaves_iff hd he, Keeps]

-- The columns that a condition names are among those of its own table, and of the table that it asks
-- for a row that leads there.
def Condition.IsDeclared (own other : List String) : Condition → Prop
  | .holds column     => column ∈ own
  | .listed           => idName ∈ own
  | .namedBy _ column => idName ∈ own ∧ column ∈ other ∧ idName ∈ other

-- A method that deletes the rows that meet a condition, or answers with them, or with the first of them.
def ClassContext.Poses (ctx : ClassContext) (m : Method) (condition : Condition) : Prop :=
  ∃ parameter,
    m.body = [ctx.execute (Sql.deleteWhere ctx.table condition) [parameter]] ∨
    m.body = [ctx.answer (ctx.selected condition parameter)] ∨
    m.body = [ctx.answer (fill ctx.lex.table.firstOrNull
      [("value", ctx.selected condition parameter)])]

-- The methods of the table class of `d` that ask for rows, each with its condition and the definition
-- whose table the condition names besides.
inductive Asks (lex : Lexicon) (g : DefinitionGraph) (d : Definition) :
    Method → Condition → Definition → Prop
  | deleteById : Asks lex g d (ClassContext.deleteById ⟨lex, d⟩) (.holds idName) d
  | selectById : Asks lex g d (ClassContext.selectById ⟨lex, d⟩) (.holds idName) d
  | lookup {edge : Edge} {o : Definition} {l : Lookup} : edge ∈ d.edges →
    g.get? edge.definition = some o → lookup? d o edge = some l →
    Asks lex g d (ClassContext.lookupMethod ⟨lex, d⟩ l) l.condition o

theorem Asks.poses (h : Asks lex g d m condition o) : ClassContext.Poses ⟨lex, d⟩ m condition := by
  cases h
  case deleteById       => exact ⟨idName, .inl rfl⟩
  case selectById       => exact ⟨idName, .inr <| .inr rfl⟩
  case lookup _ l _ _ _ => exact ⟨l.parameter, .inr <| .inl rfl⟩

-- The methods that write or read whole rows, or are given a condition.
def plainNames : List String := [
  "createTable", "readFromDb", "insertOrUpdate", "batchInsertOrUpdate", "readListFromDb", "select",
  "selectAll"]

structure NamesColumns (lex : Lexicon) (model database : ClassSettings) (g : DefinitionGraph)
    (d : Definition) : Prop where
  key  : keyNames lex g d = [idName]
  asks : ∀ m ∈ (linkedClass lex model database g d).methods, ∀ condition o,
    Asks lex g d m condition o → condition.IsDeclared (columnNames lex g d) (columnNames lex g o)

-- The property of an edge has a column in the table where the lookup for the edge asks for it.
def KeepsLink (g : DefinitionGraph) (d o : Definition) (edge : Edge) : Prop :=
  match edge.relationship with
  | .oneToN   => True
  | .nToOne   => Keeps g d.name (Naming.snake edge.property)
  | .oneToOne => Keeps g o.name (Naming.snake edge.property) ∧ Keeps g o.name idName

structure KeepsKeys (lex : Lexicon) (model database : ClassSettings) (g : DefinitionGraph)
    (d : Definition) : Prop where
  key   : (keyProperties g d).length = 1
  links : ∀ edge ∈ d.edges, ∀ o l, g.get? edge.definition = some o → lookup? d o edge = some l →
    ClassContext.lookupMethod ⟨lex, d⟩ l ∈ (linkedClass lex model database g d).methods →
    KeepsLink g d o edge

theorem isDeclared_iff_of_lookup? (h : lookup? d o edge = some l) :
    l.condition.IsDeclared own other ↔ match edge.relationship with
      | .oneToN   => idName ∈ own
      | .nToOne   => Naming.snake edge.property ∈ own
      | .oneToOne => idName ∈ own ∧ Naming.snake edge.property ∈ other ∧ idName ∈ other := by
  cases hr : edge.relationship <;> simp only [lookup?, hr] at h
  case oneToN => cases h; rfl
  case nToOne => cases h; rfl
  case oneToOne =>
    split at h
    case isTrue  => obtain ⟨_, _, rfl⟩ := Option.map_eq_some_iff.mp h; rfl
    case isFalse => cases h

-- A lookup asks for a row of its owner only if that has a table.
theorem needsTable_of_lookup? (h : lookup? d o edge = some l) (hr : edge.relationship = .oneToOne) :
    o.needsTable := by
  by_contra hn
  simp [lookup?, hr, hn] at h

-- What a method asks for, if it asks for anything but whole rows.
theorem exists_asks (hm : m ∈ (linkedClass lex model database g d).methods)
    (hn : m.name ∉ plainNames) : ∃ condition o, Asks lex g d m condition o := by
  rw [linkedClass, methods_classWith] at hm
  rcases List.mem_append.mp <| List.mem_of_find?_eq_some (mem_distinctMethods.mp hm).right with hm | hm
  · simp only [ClassContext.basicMethods, List.mem_cons, List.not_mem_nil, or_false] at hm
    rcases hm with rfl | rfl | rfl | rfl | rfl | rfl | rfl | rfl | rfl
    all_goals first
      | exact absurd (List.mem_of_elem_eq_true rfl) hn
      | exact ⟨_, _, .deleteById⟩
      | exact ⟨_, _, .selectById⟩
  · obtain ⟨l, hl, rfl⟩ := List.mem_map.mp hm
    obtain ⟨edge, he, hl⟩ := List.mem_filterMap.mp hl
    obtain ⟨o, ho, hl⟩ := Option.bind_eq_some_iff.mp hl
    exact ⟨_, _, .lookup he ho hl⟩

section

variable (hl : g.IsListed)
  (he : ∀ n d, g.get? n = some d → d.needsTable → errorsOfParts (storedParts g d) = [])
include hl he

theorem isDeclared_iff_keepsLink (hd : g.get? d.name = some d) (ht : d.needsTable)
    (hi : idName ∈ columnNames lex g d) (ho : g.get? o.name = some o) (h : lookup? d o edge = some l) :
    l.condition.IsDeclared (columnNames lex g d) (columnNames lex g o) ↔ KeepsLink g d o edge := by
  rw [isDeclared_iff_of_lookup? h, KeepsLink]
  cases hr : edge.relationship
  case oneToN   => simp [hi]
  case nToOne   => exact mem_columnNames_iff lex hl hd <| he _ d hd ht
  case oneToOne =>
    have ho' := he _ o ho <| needsTable_of_lookup? h hr
    simp only [hi, mem_columnNames_iff lex hl ho ho', true_and]

-- The statements of a table class name nothing but columns of their tables if the table has one `id`,
-- and the lookups find the properties that they ask for.
theorem namesColumns_iff (hg : g.Tabled) (hd : g.get? d.name = some d) (ht : d.needsTable) :
    NamesColumns lex model database g d ↔ KeepsKeys lex model database g d := by
  have hk := keyNames_eq lex hg hl hd <| he _ d hd ht
  have hi : keyNames lex g d = [idName] → idName ∈ columnNames lex g d := fun h => by
    have : idName ∈ keyNames lex g d := h ▸ List.mem_singleton_self _
    exact (List.filter_sublist.map _).subset this
  constructor
  · intro h
    refine ⟨by simpa using congrArg List.length <| hk.symm.trans h.key, ?_⟩
    intro edge hedge o l ho hlo hm
    have ho' := (name_of_get? ho).symm ▸ ho
    exact (isDeclared_iff_keepsLink hl he hd ht (hi h.key) ho' hlo).mp <|
      h.asks _ hm _ _ <| .lookup hedge ho hlo
  · intro h
    obtain ⟨p, hp⟩ := List.length_eq_one_iff.mp h.key
    have hm : p ∈ keyProperties g d := hp ▸ List.mem_singleton_self _
    have hn : p.name = idName := (by simpa using (List.mem_filter.mp hm).right :
      p.name = idName ∧ g.hasColumn d.name p).left
    have hk : keyNames lex g d = [idName] := by rw [hk, hp, List.map_singleton, hn]
    refine ⟨hk, fun m hm condition o ha => ?_⟩
    cases ha
    case deleteById => exact hi hk
    case selectById => exact hi hk
    case lookup edge l hedge ho hlo =>
      have ho' := (name_of_get? ho).symm ▸ ho
      exact (isDeclared_iff_keepsLink hl he hd ht (hi hk) ho' hlo).mpr <|
        h.links edge hedge o l ho hlo hm

end

end Classes.Table

namespace Blueprint

open Swagger DefinitionGraph Classes Classes.Table

variable {passes : Nat} {document : Document} {b : Blueprint} {d : Definition}

-- The key of a table has no other name than `id`. The statements of a table class name nothing but
-- columns that are declared exactly if there is one property `id` with a column, and if the properties
-- that lead to the table, or back from it, have columns where they are asked for.
theorem namesColumns_iff_of_ofDocument_eq_ok (h : ofDocument passes document = .ok b)
    (hf : ∀ d ∈ b.graph.definitions, d.needsTable → b.graph.HasFiniteRow d.name)
    (hd : d ∈ b.graph.definitions) (ht : d.needsTable) (lex : Lexicon)
    (model database : ClassSettings) :
    (∃ m ∈ (linkedClass lex model database b.graph d).methods, m.name = "createTable" ∧
        m.body = [ClassContext.execute ⟨lex, d⟩ (Sql.createTable (tableName d.name)
          ((columns lex b.graph d).map (·.definition))) []]) ∧
      keyNames lex b.graph d = (keyProperties b.graph d).map (·.name) ∧
      (∀ m ∈ (linkedClass lex model database b.graph d).methods, m.name ∉ plainNames →
        ∃ condition o, Asks lex b.graph d m condition o ∧ ClassContext.Poses ⟨lex, d⟩ m condition) ∧
      (NamesColumns lex model database b.graph d ↔ KeepsKeys lex model database b.graph d) := by
  have ⟨hr, _, hl⟩ := isBuilt_of_ofDocument_eq_ok h
  have hg := tabled_of_ofDocument_eq_ok h
  have he : ∀ n d, b.graph.get? n = some d → d.needsTable →
      errorsOfParts (storedParts b.graph d) = [] := fun n d hd ht => by
    refine (errorsOfParts_storedParts_eq_nil_iff hr hd).mpr ?_
    exact name_of_get? hd ▸ hf d (mem_of_get? hd) ht
  have hd := get?_of_mem hd
  refine ⟨⟨ClassContext.createTable ⟨lex, d⟩ (columns lex b.graph d), ?_, rfl, rfl⟩,
    keyNames_eq lex hg hl hd <| he _ d hd ht, fun _ hm hn => ?_, namesColumns_iff hl he hg hd ht⟩
  · exact mem_methods_of_mem_basicMethods <| by simp [ClassContext.basicMethods]
  · obtain ⟨condition, o, ha⟩ := exists_asks hm hn
    exact ⟨condition, o, ha, ha.poses⟩

-- Items are looked up by their foreign key, and customers by the column of the orders that they place.
theorem namesColumns_orderDocument : ofDocument 3 orderDocument = .ok ⟨orderGraph, []⟩ ∧
    ∀ d ∈ orderGraph.definitions, d.needsTable →
      NamesColumns .kotlin (.standard .kotlin .model) (.standard .kotlin .database) orderGraph d := by
  have he : ∀ d ∈ orderGraph.definitions, d.needsTable →
      errorsOfParts (storedParts orderGraph d) = [] := by
    intro d hd ht
    simp only [orderGraph, List.mem_cons, List.not_mem_nil, or_false] at hd
    rcases hd with rfl | rfl | rfl | rfl
    case inr.inr.inr => cases ht
    all_goals decide +kernel
  have hf : ∀ d ∈ orderGraph.definitions, d.needsTable → orderGraph.HasFiniteRow d.name :=
    fun d hd ht => hasFiniteRow_of_errorsOfParts_eq_nil (get?_of_mem hd) <| he d hd ht
  have hk : ∀ d ∈ orderGraph.definitions, d.needsTable →
      (keyProperties orderGraph d).length = 1 := by
    decide
  have hid : Keeps orderGraph "Order" (Naming.snake "id") :=
    keeps_of_hasColumn (p := orderGraph.definitions[0].properties[0]) rfl (List.getElem_mem _) rfl
  have hbuyer : Keeps orderGraph "Order" (Naming.snake "buyer") :=
    keeps_of_hasColumn (p := orderGraph.definitions[0].properties[2]) rfl (List.getElem_mem _) rfl
  have horder : Keeps orderGraph "Item" (Naming.snake "orderId") :=
    keeps_of_hasColumn (p := orderGraph.definitions[1].properties[1]) rfl (List.getElem_mem _) rfl
  refine ⟨ofDocument_orderDocument, fun d hd ht => ?_⟩
  refine (namesColumns_iff_of_ofDocument_eq_ok ofDocument_orderDocument hf hd ht .kotlin
    (.standard .kotlin .model) (.standard .kotlin .database)).right.right.right.mpr ⟨hk d hd ht, ?_⟩
  intro edge hedge o l ho _ _
  simp only [orderGraph, List.mem_cons, List.not_mem_nil, or_false] at hd
  rcases hd with rfl | rfl | rfl | rfl
  · cases List.mem_singleton.mp hedge
    trivial
  · cases List.mem_singleton.mp hedge
    exact horder
  · cases List.mem_singleton.mp hedge
    cases (show orderGraph.get? "Order" = some orderGraph.definitions[0] from rfl).symm.trans ho
    exact ⟨hbuyer, hid⟩
  · cases ht

-- A definition with a table, since it has an `id`, that has no column for it.
def codesDocument : Document :=
  documentOf [("Pet", objectOf [("id", arrayOf (entryOf "type" "integer")),
    ("name", entryOf "type" "string")])]

theorem schemas_codesDocument : codesDocument.schemas =
    [⟨"Pet", [.ofType "id" (.holding "array" (.named "integer" false) false) false,
      .ofType "name" (.named "string" false) false]⟩] := by
  with_unfolding_all rfl

def codesGraph : DefinitionGraph where
  definitions := [.make "Pet" [.ofType "id" (.holding "array" (.named "integer" false) false) false,
    .ofType "name" (.named "string" false) false]]
  nodup := by decide

theorem ofDocument_codesDocument : ofDocument 3 codesDocument = .ok ⟨codesGraph, []⟩ := by
  rw [ofDocument, initialGraph, schemas_codesDocument]
  rfl

-- Its rows are deleted by a column that they do not have.
theorem asks_for_undeclared_key : ∃ b d, ofDocument 3 codesDocument = .ok b ∧
    b.graph.definitions = [d] ∧ d.needsTable ∧ b.graph.HasFiniteRow d.name ∧
    keyNames .kotlin b.graph d = [] ∧
    ∃ m ∈ (linkedClass .kotlin (.standard .kotlin .model) (.standard .kotlin .database)
        b.graph d).methods,
      Asks .kotlin b.graph d m (.holds idName) d ∧
      ¬(Condition.holds idName).IsDeclared (columnNames .kotlin b.graph d)
        (columnNames .kotlin b.graph d) := by
  have hd : codesGraph.get? "Pet" = some codesGraph.definitions[0] := rfl
  have he : errorsOfParts (storedParts codesGraph codesGraph.definitions[0]) = [] := by decide +kernel
  have hc : columnNames .kotlin codesGraph codesGraph.definitions[0] = ["name"] := by decide +kernel
  have hk : keyNames .kotlin codesGraph codesGraph.definitions[0] = [] :=
    keyNames_eq .kotlin (tabled_of_ofDocument_eq_ok ofDocument_codesDocument)
      (isBuilt_of_ofDocument_eq_ok ofDocument_codesDocument).listed hd he
  refine ⟨_, codesGraph.definitions[0], ofDocument_codesDocument, rfl, rfl,
    hasFiniteRow_of_errorsOfParts_eq_nil hd he, hk, _, ?_, .deleteById, ?_⟩
  · exact mem_methods_of_mem_basicMethods <| by simp [ClassContext.basicMethods]
  · rw [hc, Condition.IsDeclared]
    decide

end Blueprint

end Classwright
