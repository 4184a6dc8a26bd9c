import Classwright.Proofs.Table.Leaf

namespace Classwright

open Schema

namespace DefinitionGraph

variable {g : DefinitionGraph} {n : String} {place : List Nat} {names : List String}

-- Only a definition with a table has a leaf that is named `id`: what is stored as fields has no `id`.
theorem KeptAt.getLast?_ne_idName (hg : g.Tabled) (h : g.KeptAt n place names)
    (hn : ¬g.needsTable n) : names.getLast? ≠ some idName := by
  induction h
  case column d _ p hd hp _ =>
    rw [needsTable_of_get? hd, hg _ d hd] at hn
    have := List.mem_map_of_mem (f := Property.name) <| List.mem_of_getElem? hp
    simp only [List.getLast?_singleton, ne_eq, Option.some.injEq]
    exact fun he => hn <| he ▸ this
  case field hs hk ih =>
    obtain ⟨name, names, rfl⟩ := List.exists_cons_of_ne_nil hk.names_ne_nil
    rw [List.getLast?_cons_cons]
    exact ih hs.right.right.right

end DefinitionGraph

namespace Classes.Table

open DefinitionGraph

variable {g : DefinitionGraph} {d : Definition} {n owner path name sqlType : String} {p : Property}
  {s : Storage} {lex : Lexicon} {source : Source} {depth i : Nat} {c : Column} {isEnum : Bool}

-- The types of columns.
def sqlTypes : List String := ["TEXT", "REAL", "INTEGER"]

theorem mem_sqlTypes_of_columnType? (h : columnType? isEnum name = some sqlType) :
    sqlType ∈ sqlTypes := by
  rw [columnType?] at h
  split at h
  case isTrue => cases h; decide
  case isFalse =>
    obtain ⟨primitive, _, rfl⟩ := Option.map_eq_some_iff.mp h
    cases primitive <;> decide

theorem mem_sqlTypes_of_ownColumn? (h : ownColumn? lex path source p s = some c) :
    c.sqlType ∈ sqlTypes := by
  cases s <;> simp only [ownColumn?] at h
  case scalar =>
    obtain ⟨_, ht, rfl⟩ := Option.map_eq_some_iff.mp h
    exact mem_sqlTypes_of_columnType? ht
  case foreignKey =>
    obtain ⟨_, ht, rfl⟩ := Option.map_eq_some_iff.mp h
    exact mem_sqlTypes_of_columnType? ht
  case stringList => cases h; exact List.mem_cons_self
  case idList     => cases h; exact List.mem_cons_self
  all_goals cases h

mutual

theorem mem_sqlTypes_of_mem_columnsOf (path : String) (source : Source) (p : Property) :
    ∀ s : Storage, c ∈ columnsOf lex path source p s → c.sqlType ∈ sqlTypes
  | .flattened _ parts, h => mem_sqlTypes_of_mem_columnsOfParts _ _ parts <| by rwa [columnsOf] at h
  | .scalar .., h | .stringList, h | .foreignKey .., h | .idList _, h | .navigation .., h
  | .unsupported _, h | .unresolved _, h => by
    rw [columnsOf] at h
    · exact mem_sqlTypes_of_ownColumn? <| Option.mem_toList.mp h
    · simp

theorem mem_sqlTypes_of_mem_columnsOfParts (path : String) (source : Source) :
    ∀ parts : List (Property × Storage), c ∈ columnsOfParts lex path source parts → c.sqlType ∈ sqlTypes
  | [], h => by cases h
  | (p, s) :: rest, h => by
    rw [columnsOfParts] at h
    rcases List.mem_append.mp h with h | h
    · exact mem_sqlTypes_of_mem_columnsOf path source p s h
    · exact mem_sqlTypes_of_mem_columnsOfParts path source rest h

end

-- Does the statement that creates a table end the definition of a column as that of its key?
def Column.isPrimaryKey (c : Column) : Bool :=
  "PRIMARY KEY".toList.isSuffixOf c.definition.toList

theorem isPrimaryKey_eq_isId (h : c.sqlType ∈ sqlTypes) : c.isPrimaryKey = c.isId := by
  -- What else a definition ends in is no longer than this and no end of it.
  have hl : ∀ last ∈ " NOT NULL" :: sqlTypes, last.toList.length ≤ "PRIMARY KEY".toList.length ∧
      ¬last.toList <:+ "PRIMARY KEY".toList := by
    decide
  have hs : ∀ last ∈ " NOT NULL" :: sqlTypes, ∀ first : String,
      ¬"PRIMARY KEY".toList <:+ (first ++ last).toList := by
    intro last hm first hk
    rw [String.toList_append] at hk
    have ⟨hle, hn⟩ := hl last hm
    exact hn <| List.suffix_of_suffix_length_le (List.suffix_append _ _) hk hle
  rw [Column.isPrimaryKey, Bool.eq_iff_iff, List.isSuffixOf_iff_suffix, Column.definition,
    columnDefinition]
  cases c.isId
  case true =>
    have hk : " NOT NULL PRIMARY KEY".toList = " NOT NULL ".toList ++ "PRIMARY KEY".toList := by decide
    simp only [if_true, String.toList_append, hk, ← List.append_assoc, iff_true]
    exact List.suffix_append _ _
  case false =>
    simp only [Bool.false_eq_true, if_false, iff_false]
    split
    case isTrue  => exact hs " NOT NULL" List.mem_cons_self _
    case isFalse => exact String.append_empty ▸ hs _ (List.mem_cons_of_mem _ h) _

-- The properties that make the key of the table of `d`.
def keyProperties (g : DefinitionGraph) (d : Definition) : List Property :=
  d.properties.filter fun p => p.name == idName && g.hasColumn d.name p

-- The names of the columns that a table is created with as its key.
def keyNames (lex : Lexicon) (g : DefinitionGraph) (d : Definition) : List String :=
  ((columns lex g d).filter (·.isPrimaryKey)).map (·.name)

def isKey (x : Leaf) : Bool :=
  x.snd.getLast? == some idName

theorem columnName_singleton_idName : columnName [idName] = idName := by
  decide

-- Of the leaves at a property or below it, the property itself may be a key, and nothing else is.
theorem filter_isKey_leavesOf (hg : g.Tabled) (he : (storageOf g depth owner p).errors = []) :
    (leavesOf p (storageOf g depth owner p)).filter isKey =
      if p.name == idName && g.hasColumn owner p then [([], [p.name])] else [] := by
  by_cases hs : g.Spreads p
  case pos =>
    rw [if_neg (by simp [not_hasColumn_of_spreads hs]), List.filter_eq_nil_iff]
    intro x hx
    rcases (mem_leavesOf_storageOf he).mp hx with ⟨hc, _⟩ | ⟨_, y, hy, rfl⟩
    · exact absurd hc <| not_hasColumn_of_spreads hs
    · obtain ⟨name, names, hn⟩ := List.exists_cons_of_ne_nil hy.names_ne_nil
      have := hy.getLast?_ne_idName hg hs.right.right.right
      rw [hn] at this
      simpa [isKey, hn, List.getLast?_cons_cons] using this
  case neg =>
    have hf : ∀ definition parts, storageOf g depth owner p ≠ .flattened definition parts :=
      fun _ _ he => hs <| spreads_of_storageOf_eq_flattened he
    rw [leavesOf_eq hf, isColumn_storageOf]
    cases g.hasColumn owner p <;> by_cases hn : p.name = idName <;> simp [isKey, hn]

theorem map_filter_isKey_leavesOfParts {ps : List Property} (hg : g.Tabled)
    (he : ∀ p ∈ ps, (storageOf g depth owner p).errors = []) :
    ((leavesOfParts i (ps.map fun p => (p, storageOf g depth owner p))).filter isKey).map
        (fun x => columnName x.snd) =
      (ps.filter fun p => p.name == idName && g.hasColumn owner p).map (·.name) := by
  induction ps generalizing i
  case nil => rfl
  case cons p ps ih =>
    have ⟨hp, hps⟩ := List.forall_mem_cons.mp he
    have hf : (fun x : Leaf => isKey (i :: x.fst, x.snd)) = isKey := rfl
    rw [List.map_cons, leavesOfParts, List.filter_append, List.map_append, ih hps, List.filter_map,
      Function.comp_def, hf, filter_isKey_leavesOf hg hp, List.filter_cons]
    split
    case isTrue hn =>
      have hn : p.name = idName := by simp_all
      simp [hn, columnName_singleton_idName]
    case isFalse => rfl

-- The key of a table has the columns of its properties that are named `id`.
theorem keyNames_eq (lex : Lexicon) (hg : g.Tabled) (hl : g.IsListed) (hd : g.get? n = some d)
    (he : errorsOfParts (storedParts g d) = []) :
    keyNames lex g d = (keyProperties g d).map (·.name) := by
  have hc : (columns lex g d).filter (·.isPrimaryKey) = (columns lex g d).filter (·.isId) :=
    List.filter_congr fun _ hc => isPrimaryKey_eq_isId <| mem_sqlTypes_of_mem_columnsOfParts _ _ _ hc
  have hk : keyNames lex g d = ((leaves g d).filter isKey).map fun x => columnName x.snd := by
    have := congrArg (fun ks => (ks.filter Prod.snd).map Prod.fst) <| keys_columns lex hl hd
    simp only [List.filter_map, List.map_map, Function.comp_def, keyOf, String.empty_append] at this
    rw [keyNames, hc]
    exact this
  rw [errorsOfParts_storedParts, List.flatMap_eq_nil_iff] at he
  rw [hk]
  exact map_filter_isKey_leavesOfParts hg he

end Classes.Table

end Classwright
