import Classwright.Proofs.Table.Reading
import Classwright.Proofs.Text.Snake

namespace Classwright

open Schema Classes.Table

namespace DefinitionGraph

variable {g : DefinitionGraph} {n owner : String} {p : Property} {d : Definition}

-- A property of `owner` that is stored in a column of its own.
def hasColumn (g : DefinitionGraph) (owner : String) (p : Property) : Bool :=
  if p.type.isScalarElement then
    !p.type.isArray || !p.type.element.isEnum && p.type.element.primitive? = some .string
  else (g.get? p.type.element.name).any fun t =>
    t.needsTable && if p.type.isArray then !carriesKeyOf t owner else (idType? t).isSome

-- A leaf of the rows of a definition, by the places of the properties on the way to it and by their
-- names. The places tell leaves apart even if properties share a name.
inductive KeptAt (g : DefinitionGraph) : String → List Nat → List String → Prop
  | column {n d i p} : g.get? n = some d → d.properties[i]? = some p → g.hasColumn n p →
    KeptAt g n [i] [p.name]
  | field {n d i p place names} : g.get? n = some d → d.properties[i]? = some p → g.Spreads p →
    KeptAt g p.type.element.name place names → KeptAt g n (i :: place) (p.name :: names)

theorem KeptAt.names_ne_nil {place : List Nat} {names : List String} (h : g.KeptAt n place names) :
    names ≠ [] := by
  cases h <;> simp

-- A leaf at a property of `owner` or below it, by its place from there on.
def IsLeafOf (g : DefinitionGraph) (owner : String) (p : Property) (x : List Nat × List String) :
    Prop :=
  g.hasColumn owner p ∧ x = ([], [p.name]) ∨
    g.Spreads p ∧ ∃ y : List Nat × List String,
      g.KeptAt p.type.element.name y.fst y.snd ∧ x = (y.fst, p.name :: y.snd)

theorem keptAt_iff {x : List Nat × List String} (hd : g.get? n = some d) :
    g.KeptAt n x.fst x.snd ↔ ∃ i p, d.properties[i]? = some p ∧
      ∃ y, g.IsLeafOf n p y ∧ x = (i :: y.fst, y.snd) := by
  constructor
  · intro h
    obtain ⟨place, names⟩ := x
    cases h
    case column hp hd' hc =>
      cases hd.symm.trans hd'
      exact ⟨_, _, hp, _, .inl ⟨hc, rfl⟩, rfl⟩
    case field hp hs hk hd' =>
      cases hd.symm.trans hd'
      exact ⟨_, _, hp, _, .inr ⟨hs, (_, _), hk, rfl⟩, rfl⟩
  · rintro ⟨i, p, hp, _, ⟨hc, rfl⟩ | ⟨hs, y, hk, rfl⟩, rfl⟩
    · exact .column hd hp hc
    · exact .field hd hp hs hk

end DefinitionGraph

namespace Classes.Table

open DefinitionGraph

-- The name of the column of a leaf.
def columnName (names : List String) : String :=
  "_".intercalate (names.map Naming.snake)

theorem columnName_singleton (name : String) : columnName [name] = Naming.snake name := by
  simp [columnName]

theorem columnName_cons {name : String} {names : List String} (h : names ≠ []) :
    columnName (name :: names) = Naming.snake name ++ "_" ++ columnName names := by
  cases names
  case nil  => contradiction
  case cons => simp [columnName, String.intercalate_cons_cons]

-- The storage of a property that has a column of its own.
def Storage.isColumn : Storage → Bool
  | .scalar .. | .stringList | .foreignKey .. | .idList _ => true
  | _                                                     => false

abbrev Leaf := List Nat × List String

mutual

-- The leaves of a stored property, each with its place below the property.
def leavesOf (p : Property) : Storage → List Leaf
  | .flattened _ parts => (leavesOfParts 0 parts).map fun x => (x.fst, p.name :: x.snd)
  | storage            => if storage.isColumn then [([], [p.name])] else []

-- The leaves of stored properties, which are counted from `i` on.
def leavesOfParts (i : Nat) : List (Property × Storage) → List Leaf
  | []                => []
  | (p, storage) :: rest =>
    (leavesOf p storage).map (fun x => (i :: x.fst, x.snd)) ++ leavesOfParts (i + 1) rest

end

def leaves (g : DefinitionGraph) (d : Definition) : List Leaf :=
  leavesOfParts 0 (storedParts g d)

variable {g : DefinitionGraph} {d : Definition} {n owner path : String} {p : Property} {s : Storage}
  {parts : List (Property × Storage)} {lex : Lexicon} {source : Source} {i depth : Nat} {x : Leaf}

theorem mem_leavesOfParts : x ∈ leavesOfParts i parts ↔
    ∃ j part, parts[j]? = some part ∧ ∃ y ∈ leavesOf part.fst part.snd, x = ((i + j) :: y.fst, y.snd) := by
  induction parts generalizing i
  case nil => simp [leavesOfParts]
  case cons part parts ih =>
    rw [leavesOfParts, List.mem_append, List.mem_map, ih]
    constructor
    · rintro (⟨y, hy, rfl⟩ | ⟨j, part', hj, y, hy, rfl⟩)
      · exact ⟨0, part, rfl, y, hy, rfl⟩
      · exact ⟨j + 1, part', hj, y, hy, by rw [Nat.add_right_comm, Nat.add_assoc]⟩
    · rintro ⟨j, part', hj, y, hy, rfl⟩
      cases j
      case zero =>
        cases hj
        exact .inl ⟨y, hy, rfl⟩
      case succ j => exact .inr ⟨j, part', hj, y, hy, by rw [Nat.add_right_comm, Nat.add_assoc]⟩

mutual

-- No two leaves have the same place.
theorem nodup_leavesOf (p : Property) : ∀ s : Storage, ((leavesOf p s).map Prod.fst).Nodup
  | .flattened _ parts => by
    simpa [leavesOf, Function.comp_def] using nodup_leavesOfParts 0 parts
  | .scalar .. | .stringList | .foreignKey .. | .idList _ | .navigation .. | .unsupported _
  | .unresolved _ => by simp [leavesOf, Storage.isColumn]

theorem nodup_leavesOfParts : ∀ (i : Nat) (parts : List (Property × Storage)),
    ((leavesOfParts i parts).map Prod.fst).Nodup
  | _, [] => List.nodup_nil
  | i, (p, s) :: rest => by
    rw [leavesOfParts, List.map_append]
    refine List.nodup_append.mpr ⟨?_, nodup_leavesOfParts (i + 1) rest, fun a ha b hb => ?_⟩
    · have := (nodup_leavesOf p s).map <| List.cons_injective (a := i)
      simpa [Function.comp_def] using this
    · obtain ⟨x, hx, rfl⟩ := List.mem_map.mp ha
      obtain ⟨y, hy, rfl⟩ := List.mem_map.mp hb
      obtain ⟨x, _, rfl⟩ := List.mem_map.mp hx
      obtain ⟨j, _, _, y, _, rfl⟩ := mem_leavesOfParts.mp hy
      simp only [ne_eq, List.cons.injEq, not_and]
      omega

end

theorem isColumn_tableStorage {t : Definition} : (tableStorage owner p t).isColumn =
    if p.type.isArray then !carriesKeyOf t owner else (idType? t).isSome := by
  rw [tableStorage]
  split
  case isTrue  => split <;> simp_all [Storage.isColumn]
  case isFalse => cases idType? t <;> rfl

theorem leavesOf_eq (h : ∀ definition parts, s ≠ .flattened definition parts) :
    leavesOf p s = if s.isColumn then [([], [p.name])] else [] := by
  cases s
  case flattened definition parts => exact absurd rfl <| h definition parts
  all_goals simp only [leavesOf]

theorem isColumn_storageOf :
    (storageOf g depth owner p).isColumn = g.hasColumn owner p := by
  rw [hasColumn, TypeRef.isScalarElement, TypeRef.isNative]
  fun_cases storageOf
  case case7         => rw [isColumn_tableStorage]; simp_all +zetaDelta
  all_goals simp_all +zetaDelta [Storage.isColumn]

theorem spreads_of_storageOf_eq_flattened {definition : String}
    (h : storageOf g depth owner p = .flattened definition parts) : g.Spreads p := by
  revert h
  fun_cases storageOf <;> intro h
  case case7 target _ _ _ =>
    rw [tableStorage] at h
    split at h <;> split at h <;> cases h
  case case10 he hp target hd ht ha _ =>
    refine ⟨?_, ha, contains_of_get? hd, needsTable_of_get? hd ▸ ht⟩
    simp_all +zetaDelta [TypeRef.isScalarElement, TypeRef.isNative]
  all_goals cases h

-- A property that is not spread over the row has a column or none.
theorem mem_leavesOf_of_not_spreads (h : ¬g.Spreads p) :
    x ∈ leavesOf p (storageOf g depth owner p) ↔ g.IsLeafOf owner p x := by
  have hf : ∀ definition parts, storageOf g depth owner p ≠ .flattened definition parts :=
    fun _ _ he => h <| spreads_of_storageOf_eq_flattened he
  rw [leavesOf_eq hf, isColumn_storageOf, IsLeafOf]
  split <;> simp_all

theorem not_hasColumn_of_spreads (h : g.Spreads p) : ¬g.hasColumn owner p := by
  obtain ⟨hs, _, hc, ht⟩ := h
  obtain ⟨t, hg⟩ := exists_of_contains hc
  rw [needsTable_of_get? hg] at ht
  simp [hasColumn, hs, hg, ht]

theorem mem_leavesOfParts_iff_keptAt (hd : g.get? n = some d)
    (h : ∀ p ∈ d.properties, ∀ y, y ∈ leavesOf p (storageOf g depth d.name p) ↔
      g.IsLeafOf d.name p y) :
    x ∈ leavesOfParts 0 (d.properties.map fun p => (p, storageOf g depth d.name p)) ↔
      g.KeptAt n x.fst x.snd := by
  cases name_of_get? hd
  simp only [mem_leavesOfParts, keptAt_iff hd, List.getElem?_map, Option.map_eq_some_iff,
    Nat.zero_add]
  constructor
  · rintro ⟨i, _, ⟨p, hp, rfl⟩, y, hy, rfl⟩
    exact ⟨i, p, hp, y, (h p (List.mem_of_getElem? hp) y).mp hy, rfl⟩
  · rintro ⟨i, p, hp, y, hy, rfl⟩
    exact ⟨i, _, ⟨p, hp, rfl⟩, y, (h p (List.mem_of_getElem? hp) y).mpr hy, rfl⟩

-- If its columns come to an end, the leaves of a property are those that it has in the graph.
theorem mem_leavesOf_storageOf (he : (storageOf g depth owner p).errors = []) :
    x ∈ leavesOf p (storageOf g depth owner p) ↔ g.IsLeafOf owner p x := by
  induction depth generalizing owner p x
  case zero =>
    refine mem_leavesOf_of_not_spreads fun hs => ?_
    simp [errors_storageOf_zero hs] at he
  case succ depth ih =>
    by_cases hs : g.Spreads p
    case neg => exact mem_leavesOf_of_not_spreads hs
    case pos =>
      obtain ⟨t, ht⟩ := exists_of_contains hs.right.right.left
      rw [errors_storageOf_succ hs, List.flatMap_eq_nil_iff] at he
      have hfields : ∀ f ∈ t.properties, ∀ y, y ∈ leavesOf f (storageOf g depth t.name f) ↔
          g.IsLeafOf t.name f y := fun f hf y =>
        ih <| name_of_get? ht ▸ he f ((mem_propertiesOf ht).mpr hf)
      rw [storageOf_of_spreads hs ht]
      simp only [leavesOf, List.mem_map, mem_leavesOfParts_iff_keptAt ht hfields, IsLeafOf,
        not_hasColumn_of_spreads hs, hs, true_and, Bool.false_eq_true, false_and, false_or,
        @eq_comm _ x]

theorem mem_leaves_iff (hd : g.get? n = some d) (he : errorsOfParts (storedParts g d) = []) :
    x ∈ leaves g d ↔ g.KeptAt n x.fst x.snd := by
  rw [errorsOfParts_storedParts, List.flatMap_eq_nil_iff] at he
  exact mem_leavesOfParts_iff_keptAt hd fun p hp _ => mem_leavesOf_storageOf <| he p hp

theorem nodup_leaves : ((leaves g d).map Prod.fst).Nodup :=
  nodup_leavesOfParts 0 _

-- What a leaf tells of its column: the name, below a row of names, and whether it is the key.
def keyOf (path : String) (x : Leaf) : String × Bool :=
  (path ++ columnName x.snd, x.snd.getLast? == some idName)

theorem keyOf_cons {names : List String} {place : List Nat} (h : names ≠ []) :
    keyOf path (place, p.name :: names) =
      keyOf (path ++ Naming.snake p.name ++ "_") (place, names) := by
  simp only [keyOf, columnName_cons h, String.append_assoc]
  cases names
  case nil  => contradiction
  case cons => rw [List.getLast?_cons_cons]

theorem names_ne_nil_of_mem_leavesOf (h : x ∈ leavesOf p s) : x.snd ≠ [] := by
  cases s <;> simp only [leavesOf] at h
  case flattened =>
    obtain ⟨y, _, rfl⟩ := List.mem_map.mp h
    exact List.cons_ne_nil _ _
  all_goals split at h <;> simp_all

theorem names_ne_nil_of_mem_leavesOfParts (h : x ∈ leavesOfParts i parts) : x.snd ≠ [] := by
  obtain ⟨_, _, _, y, hy, rfl⟩ := mem_leavesOfParts.mp h
  exact (names_ne_nil_of_mem_leavesOf hy : y.snd ≠ [])

theorem keys_columnsOfParts
    (h : ∀ part ∈ parts, ∀ source, (columnsOf lex path source part.fst part.snd).map
      (fun c => (c.name, c.isId)) = (leavesOf part.fst part.snd).map (keyOf path)) :
    (columnsOfParts lex path source parts).map (fun c => (c.name, c.isId)) =
      (leavesOfParts i parts).map (keyOf path) := by
  induction parts generalizing i
  case nil => rfl
  case cons part parts ih =>
    have ⟨hp, hps⟩ := List.forall_mem_cons.mp h
    rw [columnsOfParts, leavesOfParts, List.map_append, List.map_append, hp, ih hps, List.map_map]
    rfl

theorem keys_columnsOf_scalar {primitive : Primitive} {isEnum : Bool}
    (h : (columnType? isEnum p.type.element.name).isSome) :
    (columnsOf lex path source p (.scalar primitive isEnum)).map (fun c => (c.name, c.isId)) =
      (leavesOf p (.scalar primitive isEnum)).map (keyOf path) := by
  obtain ⟨t, ht⟩ := Option.isSome_iff_exists.mp h
  simp [columnsOf, ownColumn?, ht, leavesOf, Storage.isColumn, keyOf, columnName_singleton]

-- By the way a property is stored, its columns are those of its leaves.
theorem StoredAs.keys_columnsOf (hl : g.IsListed) (h : StoredAs g owner p s) (hp : p.Listed) :
    (columnsOf lex path source p s).map (fun c => (c.name, c.isId)) =
      (leavesOf p s).map (keyOf path) := by
  induction h generalizing path source
  case choice he ha => exact keys_columnsOf_scalar <| isSome_columnType?_of_isEnum hp he ha
  case native hn    => exact keys_columnsOf_scalar <| isSome_columnType?_of_primitive? hn
  case flattened hd hps _ ih =>
    rw [columnsOf, leavesOf, List.map_map, keys_columnsOfParts fun part hm source =>
      ih part hm <| listed_of_mem_parts hl hd hps hm]
    refine List.map_congr_left fun x hx => ?_
    exact (keyOf_cons <| names_ne_nil_of_mem_leavesOfParts hx).symm
  case foreignKey id _ _ =>
    obtain ⟨t, ht⟩ := exists_columnType?_name id
    simp [columnsOf, ownColumn?, ht, leavesOf, Storage.isColumn, keyOf, columnName_singleton]
  all_goals simp [columnsOf, ownColumn?, leavesOf, Storage.isColumn, keyOf, columnName_singleton]

-- The columns of a table are those of its leaves, in the same order.
theorem keys_columns (lex : Lexicon) (hl : g.IsListed) (hd : g.get? n = some d) :
    (columns lex g d).map (fun c => (c.name, c.isId)) = (leaves g d).map (keyOf "") := by
  refine keys_columnsOfParts fun part hm source => ?_
  obtain ⟨p, hp, rfl⟩ := List.mem_map.mp hm
  exact storedAs_storageOf.keys_columnsOf hl <| hl n d hd p hp

theorem map_name_columns (lex : Lexicon) (hl : g.IsListed) (hd : g.get? n = some d) :
    (columns lex g d).map (·.name) = (leaves g d).map fun x => columnName x.snd := by
  have := congrArg (List.map Prod.fst) <| keys_columns lex hl hd
  simpa [Function.comp_def, keyOf] using this

end Classes.Table

end Classwright
