import Classwright.Language.All
import Classwright.Proofs.Table.Leaf

namespace Classwright

open Schema

namespace Naming

open Text

variable {b : Bool} {c : Char} {cs : List Char} {s t : String}

def IsAscii (s : String) : Prop := ∀ c ∈ s.toList, c.toNat < 128

instance (s : String) : Decidable (IsAscii s) :=
  List.decidableBAll _ _

-- The characters of ASCII that words in snake case are made of: no capitals, and none that part words.
structure IsSnakeChar (c : Char) : Prop where
  lt       : c.toNat < 128
  notUpper : ¬c.isUpper
  notMark  : c ∉ ['-', ' ', '.']

def IsSnake (s : String) : Prop := ∀ c ∈ s.toList, IsSnakeChar c

theorem isSnakeChar_iff :
    IsSnakeChar c ↔ c.toNat < 128 ∧ ¬c.isUpper ∧ c ∉ ['-', ' ', '.'] :=
  ⟨fun ⟨hl, hu, hm⟩ => ⟨hl, hu, hm⟩, fun ⟨hl, hu, hm⟩ => ⟨hl, hu, hm⟩⟩

instance (c : Char) : Decidable (IsSnakeChar c) :=
  decidable_of_iff' _ isSnakeChar_iff

theorem isSnakeChar_toLower (h : c.toNat < 128) (hu : c.isUpper) : IsSnakeChar c.toLower := by
  have ha : ∀ n < 128, (Char.ofNat n).isUpper → IsSnakeChar (Char.ofNat n).toLower := by decide
  simpa using ha c.toNat h (by simpa using hu)

-- The capital form of such a character leads back to it.
theorem toLower_toUpper (h : IsSnakeChar c) : c.toUpper.toLower = c := by
  have ha : ∀ n < 128, IsSnakeChar (.ofNat n) → (Char.ofNat n).toUpper.toLower = .ofNat n := by
    decide
  simpa using ha c.toNat h.lt (by simpa using h)

theorem isSnakeChar_of_mem_snakeChars (hs : ∀ x ∈ cs, x.toNat < 128) (h : c ∈ snakeChars b cs) :
    IsSnakeChar c := by
  induction cs generalizing b
  case nil => cases h
  case cons x cs ih =>
    have ⟨hx, hs⟩ := List.forall_mem_cons.mp hs
    rw [snakeChars] at h
    split at h
    case isTrue =>
      cases h
      case head   => decide
      case tail h => exact ih hs h
    case isFalse hp =>
      rw [isUppercase, lower, if_pos hx, if_pos hx] at h
      split at h
      case isTrue hu =>
        rcases List.mem_append.mp h with h | h
        · rcases List.mem_append.mp h with h | h
          · have hc : c = '_' := by split at h <;> simp_all
            exact hc ▸ by decide
          · exact List.mem_singleton.mp h ▸ isSnakeChar_toLower hx hu
        · exact ih hs h
      case isFalse hu =>
        cases h
        case head   => exact ⟨hx, hu, by simpa [or_assoc] using hp⟩
        case tail h => exact ih hs h

theorem snakeChars_eq_self (h : ∀ c ∈ cs, IsSnakeChar c) : snakeChars b cs = cs := by
  induction cs generalizing b
  case nil => rfl
  case cons c cs ih =>
    have ⟨hc, hcs⟩ := List.forall_mem_cons.mp h
    have hu : isUppercase c = false := by simpa [isUppercase, hc.lt] using hc.notUpper
    have hm : ¬(c = '-' ∨ c = ' ' ∨ c = '.') := by simpa using hc.notMark
    simp [snakeChars, ih hcs, hu, or_assoc, hm]

theorem isSnake_snake (h : IsAscii s) : IsSnake (snake s) := by
  intro c hc
  rw [snake, String.toList_ofList] at hc
  exact isSnakeChar_of_mem_snakeChars h hc

theorem IsSnake.append (hs : IsSnake s) (ht : IsSnake t) : IsSnake (s ++ t) := by
  intro c hc
  rw [String.toList_append] at hc
  exact (List.mem_append.mp hc).elim (hs c) (ht c)

theorem isSnake_underscore : IsSnake "_" :=
  List.forall_mem_singleton.mpr <| by decide

theorem IsSnake.snake_eq (h : IsSnake s) : snake s = s := by
  rw [snake, snakeChars_eq_self h, String.ofList_toList]

-- The capitals of a word in snake case are told character by character, so none is lost.
theorem upperSnakeChars_eq_map (h : ∀ c ∈ cs, IsSnakeChar c) :
    upperSnakeChars cs = cs.map Char.toUpper := by
  have hc : ∀ c ∈ cs, upper c = [c.toUpper] := fun c hc => if_pos (h c hc).lt
  rw [upperSnakeChars, snakeChars_eq_self h, List.flatMap_congr hc]
  exact List.flatMap_pure_eq_map Char.toUpper cs

theorem upperSnake_eq_iff (hs : IsSnake s) (ht : IsSnake t) :
    upperSnake s = upperSnake t ↔ s = t := by
  have hl : ∀ {s : String}, IsSnake s → (upperSnake s).toList.map Char.toLower = s.toList := by
    intro s h
    rw [upperSnake, String.toList_ofList, upperSnakeChars_eq_map h, List.map_map]
    exact (List.map_congr_left fun c hc => toLower_toUpper <| h c hc).trans <| List.map_id _
  refine ⟨fun h => String.toList_inj.mp ?_, congrArg _⟩
  rw [← hl hs, ← hl ht, h]

end Naming

namespace DefinitionGraph

-- The names of all properties that are stored in the columns of `n`, at any depth.
def HasAsciiRow (g : DefinitionGraph) (n : String) : Prop :=
  ∀ m, Relation.ReflTransGen g.Flattens n m → ∀ p ∈ g.propertiesOf m, Naming.IsAscii p.name

theorem HasAsciiRow.of_flattens {g : DefinitionGraph} {n m : String} (h : g.HasAsciiRow n)
    (hf : g.Flattens n m) : g.HasAsciiRow m :=
  fun k hk => h k <| .head hf hk

end DefinitionGraph

namespace Classes.Table

open DefinitionGraph Naming

variable {g : DefinitionGraph} {d : Definition} {p : Property} {owner path : String} {depth : Nat}
  {lex : Lexicon} {source : Source} {parts : List (Property × Storage)} {c : Column}

theorem mem_columnsOfParts : c ∈ columnsOfParts lex path source parts ↔
    ∃ part ∈ parts, c ∈ columnsOf lex path source part.fst part.snd := by
  induction parts
  case nil         => simp [columnsOfParts]
  case cons _ _ ih => simp [columnsOfParts, ih]

theorem name_of_ownColumn? {s : Storage} (h : ownColumn? lex path source p s = some c) :
    c.name = path ++ snake p.name := by
  cases s <;> simp only [ownColumn?, Option.map_eq_some_iff, Option.some.injEq, reduceCtorEq] at h
  case scalar | foreignKey => obtain ⟨_, _, rfl⟩ := h; rfl
  case stringList | idList => subst h; rfl

theorem name_of_mem_columnsOf (hs : ¬g.Spreads p)
    (hc : c ∈ columnsOf lex path source p (storageOf g depth owner p)) :
    c.name = path ++ snake p.name := by
  have hf : ∀ target parts, storageOf g depth owner p ≠ .flattened target parts :=
    fun _ _ h => hs <| spreads_of_storageOf_eq_flattened h
  rw [columnsOf] at hc
  case x_1 => exact hf
  exact name_of_ownColumn? <| by simpa using hc

-- The columns of a property that is spread over the row are those of the definition that it leads to.
theorem exists_of_mem_columnsOf (hs : g.Spreads p)
    (hc : c ∈ columnsOf lex path source p (storageOf g depth owner p)) :
    ∃ depth', depth = depth' + 1 ∧ ∃ f ∈ g.propertiesOf p.type.element.name,
      c ∈ columnsOf lex (path ++ snake p.name ++ "_") (source.field lex p) f
        (storageOf g depth' p.type.element.name f) := by
  obtain ⟨t, ht⟩ := exists_of_contains hs.right.right.left
  rw [storageOf_of_spreads hs ht] at hc
  cases depth
  case zero => simp [columnsOf, ownColumn?] at hc
  case succ depth =>
    rw [columnsOf, mem_columnsOfParts] at hc
    obtain ⟨_, hm, hc⟩ := hc
    obtain ⟨f, hf, rfl⟩ := List.mem_map.mp hm
    exact ⟨depth, rfl, f, (mem_propertiesOf ht).mpr hf, name_of_get? ht ▸ hc⟩

-- A column is named after its own property, below all that lead to it, so the path is in snake case too.
theorem isSnake_name_of_mem_columnsOf {depth : Nat} {p : Property} {owner path : String}
    {source : Source} (hp : IsAscii p.name) (hr : g.Spreads p → g.HasAsciiRow p.type.element.name)
    (hpath : IsSnake path) (hc : c ∈ columnsOf lex path source p (storageOf g depth owner p)) :
    IsSnake c.name := by
  by_cases hs : g.Spreads p
  case neg => exact name_of_mem_columnsOf hs hc ▸ hpath.append (isSnake_snake hp)
  case pos =>
    obtain ⟨depth, rfl, f, hf, hc⟩ := exists_of_mem_columnsOf hs hc
    have hpath := hpath.append (isSnake_snake hp) |>.append isSnake_underscore
    refine isSnake_name_of_mem_columnsOf (hr hs _ .refl f hf) (fun hfs => ?_) hpath hc
    exact (hr hs).of_flattens ⟨f, hf, hfs, rfl⟩
termination_by depth

theorem isSnake_name_of_mem_columns (hd : d ∈ g.definitions) (hr : g.HasAsciiRow d.name)
    (hc : c ∈ columns lex g d) : IsSnake c.name := by
  obtain ⟨_, hm, hc⟩ := mem_columnsOfParts.mp hc
  obtain ⟨p, hp, rfl⟩ := List.mem_map.mp hm
  have hp := (mem_propertiesOf <| get?_of_mem hd).mpr hp
  refine isSnake_name_of_mem_columnsOf (hr _ .refl p hp) (fun hs => ?_) (by simp [IsSnake]) hc
  exact hr.of_flattens ⟨p, hp, hs, rfl⟩

-- Snake case changes nothing in a word that is in snake case already, nor where two of them are joined. So
-- two constants of a table have the same name exactly if their columns have.
theorem constant_eq_iff_of_isAscii :
    (∀ s t : String, IsAscii s → IsAscii t →
      snake (snake s) = snake s ∧ snake (snake s ++ "_" ++ snake t) = snake s ++ "_" ++ snake t) ∧
    ∀ (lex : Lexicon) (g : DefinitionGraph), ∀ d ∈ g.definitions, g.HasAsciiRow d.name →
      ∀ c ∈ columns lex g d, ∀ c' ∈ columns lex g d,
        c.constant = c'.constant ↔ c.name = c'.name := by
  constructor
  · intro s t hs ht
    have hs := isSnake_snake hs
    exact ⟨hs.snake_eq, (hs.append isSnake_underscore |>.append <| isSnake_snake ht).snake_eq⟩
  · intro lex g d hd hr c hc c' hc'
    have hc := isSnake_name_of_mem_columns hd hr hc
    have hc' := isSnake_name_of_mem_columns hd hr hc'
    rw [← upperSnake_eq_iff hc hc', Column.constant, Column.constant, columnConstant, columnConstant,
      String.append_left_inj]

-- The zip code of a home is stored twice under one name, once below the home.
def shelterGraph : DefinitionGraph where
  definitions := [
    .make "Shelter" [.ofType "id" (.named "integer" false) true,
      .ofType "home" (.named "Home" false) false,
      .ofType "home-Zip2Code" (.named "string" false) false],
    .make "Home" [.ofType "zip2Code" (.named "string" false) true,
      .ofType "street" (.named "string" false) true]]
  nodup := by decide

theorem constant_eq_iff_shelterGraph :
    IsAscii "home-Zip2Code" ∧ snake (snake "home-Zip2Code") = "home_zip2_code" ∧
    shelterGraph.HasAsciiRow "Shelter" ∧
    (columns .java shelterGraph shelterGraph.definitions[0]).map (fun c => (c.name, c.constant)) =
      [("id", "ID_FIELD"), ("home_zip2_code", "HOME_ZIP2_CODE_FIELD"),
        ("home_street", "HOME_STREET_FIELD"), ("home_zip2_code", "HOME_ZIP2_CODE_FIELD")] ∧
    ∀ c ∈ columns .java shelterGraph shelterGraph.definitions[0],
      ∀ c' ∈ columns .java shelterGraph shelterGraph.definitions[0],
        c.constant = c'.constant ↔ c.name = c'.name := by
  have ⟨hs, hc⟩ := constant_eq_iff_of_isAscii
  have hr : shelterGraph.HasAsciiRow "Shelter" := by
    intro m _ p hp
    have ha : ∀ d ∈ shelterGraph.definitions, ∀ p ∈ d.properties, IsAscii p.name := by decide
    obtain ⟨d, hd, hp⟩ := exists_of_mem_propertiesOf hp
    exact ha d (mem_of_get? hd) p hp
  refine ⟨by decide, ?_, hr, by decide +kernel, hc .java shelterGraph _ (by simp [shelterGraph]) hr⟩
  exact (hs "home-Zip2Code" "" (by decide) (by decide)).left.trans rfl

end Classes.Table

end Classwright
