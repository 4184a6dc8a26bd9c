import Classwright.Proofs.Table.Leaf

namespace Classwright

open Schema Swagger DefinitionGraph

namespace Classes.Table

variable {g : DefinitionGraph} {d : Definition} {n : String}

theorem toLower_tableName (name : String) : (tableName name).toLower = tableName name :=
  Naming.toLower_eq_self Naming.not_isUpper_of_mem_snake

theorem toLower_columnName (names : List String) :
    (columnName names).toLower = columnName names := by
  refine Naming.toLower_eq_self ?_
  induction names
  case nil => simp [columnName]
  case cons name names ih =>
    cases names
    case nil =>
      rw [columnName_singleton]
      exact Naming.not_isUpper_of_mem_snake
    case cons =>
      intro c hc
      rw [columnName_cons <| List.cons_ne_nil _ _, String.toList_append, String.toList_append] at hc
      rcases List.mem_append.mp hc with hc | hc
      · rcases List.mem_append.mp hc with hc | hc
        · exact Naming.not_isUpper_of_mem_snake c hc
        · cases List.mem_singleton.mp hc
          decide
      · exact ih c hc

-- The columns of a row are distinct exactly if no two leaves join to the same name.
theorem nodup_columns_iff (lex : Lexicon) (hl : g.IsListed) (hd : g.get? n = some d)
    (he : errorsOfParts (storedParts g d) = []) :
    ((columns lex g d).map (·.name.toLower)).Nodup ↔
      ∀ x y : Leaf, g.KeptAt n x.fst x.snd → g.KeptAt n y.fst y.snd →
        columnName x.snd = columnName y.snd → x.fst = y.fst := by
  have hn : (columns lex g d).map (·.name.toLower) = (leaves g d).map fun x => columnName x.snd := by
    have := congrArg (List.map String.toLower) <| map_name_columns lex hl hd
    simpa [Function.comp_def, toLower_columnName] using this
  have hp := nodup_leaves (g := g) (d := d)
  have hm : ∀ {x}, x ∈ leaves g d ↔ g.KeptAt n x.fst x.snd := mem_leaves_iff hd he
  rw [hn, List.nodup_map_iff_inj_on hp.of_map]
  constructor
  · exact fun h x y hx hy hxy => congrArg Prod.fst <| h x (hm.mpr hx) y (hm.mpr hy) hxy
  · exact fun h x hx y hy hxy =>
      List.inj_on_of_nodup_map hp hx hy <| h x y (hm.mp hx) (hm.mp hy) hxy

end Classes.Table

namespace Blueprint

open Classes Classes.Table

variable {passes : Nat} {document : Document} {b : Blueprint}

-- A table is created without a duplicate exactly if no two of its leaves join to the same name, and no
-- two tables are the same exactly if no two definitions with a table have the same words in their names.
theorem distinct_iff_of_ofDocument_eq_ok (h : ofDocument passes document = .ok b) (lex : Lexicon) :
    (∀ d ∈ b.graph.definitions, d.needsTable → b.graph.HasFiniteRow d.name →
        (((columns lex b.graph d).map (·.name.toLower)).Nodup ↔
          ∀ x y : Leaf, b.graph.KeptAt d.name x.fst x.snd → b.graph.KeptAt d.name y.fst y.snd →
            columnName x.snd = columnName y.snd → x.fst = y.fst)) ∧
      (((b.graph.definitions.filter (·.needsTable)).map fun d => (tableName d.name).toLower).Nodup ↔
        ∀ d ∈ b.graph.definitions, ∀ e ∈ b.graph.definitions, d.needsTable → e.needsTable →
          Naming.snake d.name = Naming.snake e.name → d.name = e.name) := by
  have ⟨hr, _, hl⟩ := isBuilt_of_ofDocument_eq_ok h
  constructor
  · intro d hd _ hf
    have hd := get?_of_mem hd
    exact nodup_columns_iff lex hl hd <| (errorsOfParts_storedParts_eq_nil_iff hr hd).mpr hf
  · have hn : (b.graph.definitions.filter (·.needsTable)).Nodup :=
      (b.graph.nodup.of_map _).filter _
    simp only [toLower_tableName]
    rw [List.nodup_map_iff_inj_on hn]
    simp only [List.mem_filter]
    constructor
    · exact fun h d hd e he htd hte hs => congrArg (·.name) <| h d ⟨hd, htd⟩ e ⟨he, hte⟩ hs
    · intro h d ⟨hd, htd⟩ e ⟨he, hte⟩ hs
      exact List.inj_on_of_nodup_map b.graph.nodup hd he <| h d hd e he htd hte hs

-- The leaves of an order, of which one belongs to its address, and the tables are all told apart.
theorem distinct_orderDocument :
    (∀ x y : Leaf, orderGraph.KeptAt "Order" x.fst x.snd → orderGraph.KeptAt "Order" y.fst y.snd →
        columnName x.snd = columnName y.snd → x.fst = y.fst) ∧
      orderGraph.KeptAt "Order" [1, 0] ["address", "street"] ∧
      ((orderGraph.definitions.filter (·.needsTable)).map fun d =>
        (tableName d.name).toLower).Nodup := by
  have hd : orderGraph.get? "Order" = some orderGraph.definitions[0] := rfl
  have he : errorsOfParts (storedParts orderGraph orderGraph.definitions[0]) = [] := by decide +kernel
  have hn : ((columns .kotlin orderGraph orderGraph.definitions[0]).map (·.name.toLower)).Nodup := by
    have : (columns .kotlin orderGraph orderGraph.definitions[0]).map (·.name.toLower) =
        ["id", "address_street", "buyer"] := by decide +kernel
    rw [this]
    decide
  obtain ⟨hc, ht⟩ := distinct_iff_of_ofDocument_eq_ok ofDocument_orderDocument .kotlin
  refine ⟨?_, ?_, ht.mpr <| by decide⟩
  · exact (hc _ (mem_of_get? hd) rfl <| hasFiniteRow_of_errorsOfParts_eq_nil hd he).mp hn
  · have hl : leaves orderGraph orderGraph.definitions[0] =
        [([0], ["id"]), ([1, 0], ["address", "street"]), ([2], ["buyer"])] := by decide +kernel
    have hx : ([1, 0], ["address", "street"]) ∈ leaves orderGraph orderGraph.definitions[0] := by
      simp [hl]
    exact (mem_leaves_iff hd he).mp hx

-- Two properties and two definitions that have the same words in their names.
def wordsDocument : Document :=
  let id := entryOf "type" "integer"
  let text := entryOf "type" "string"
  documentOf [("Pet", objectOf [("id", id), ("ownerId", text), ("owner_id", text)]),
    ("pet", objectOf [("id", id)])]

theorem schemas_wordsDocument : wordsDocument.schemas =
    [⟨"Pet", [.ofType "id" (.named "integer" false) false,
        .ofType "ownerId" (.named "string" false) false,
        .ofType "owner_id" (.named "string" false) false]⟩,
      ⟨"pet", [.ofType "id" (.named "integer" false) false]⟩] := by
  with_unfolding_all rfl

def wordsGraph : DefinitionGraph where
  definitions := [
    .make "Pet" [.ofType "id" (.named "integer" false) false,
      .ofType "ownerId" (.named "string" false) false,
      .ofType "owner_id" (.named "string" false) false],
    .make "pet" [.ofType "id" (.named "integer" false) false]]
  nodup := by decide

theorem ofDocument_wordsDocument : ofDocument 3 wordsDocument = .ok ⟨wordsGraph, []⟩ := by
  rw [ofDocument, initialGraph, schemas_wordsDocument]
  rfl

theorem not_distinct_wordsDocument : ∃ b d, ofDocument 3 wordsDocument = .ok b ∧
    d ∈ b.graph.definitions ∧ d.needsTable ∧ b.graph.HasFiniteRow d.name ∧
    ¬((columns .kotlin b.graph d).map (·.name.toLower)).Nodup ∧
    ¬((b.graph.definitions.filter (·.needsTable)).map fun d => (tableName d.name).toLower).Nodup := by
  have hd : wordsGraph.get? "Pet" = some wordsGraph.definitions[0] := rfl
  have he : errorsOfParts (storedParts wordsGraph wordsGraph.definitions[0]) = [] := by decide +kernel
  have hc : (columns .kotlin wordsGraph wordsGraph.definitions[0]).map (·.name.toLower) =
      ["id", "owner_id", "owner_id"] := by decide +kernel
  refine ⟨_, _, ofDocument_wordsDocument, mem_of_get? hd, rfl,
    hasFiniteRow_of_errorsOfParts_eq_nil hd he, ?_, ?_⟩
  · rw [hc]
    decide
  · simp only [toLower_tableName]
    decide

end Blueprint

end Classwright
