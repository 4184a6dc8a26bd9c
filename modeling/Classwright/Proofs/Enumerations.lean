import Classwright.Code.EnumDecl
import Classwright.Proofs.Literals
import Classwright.Proofs.Text.Snake

namespace Classwright

namespace Naming

open Text

variable {c : Char} {cs : List Char} {s : String}

-- Capital letters, digits and underscores, with no digit in front.
structure IsConstantName (name : String) : Prop where
  nonempty : name ≠ ""
  chars    : ∀ c ∈ name.toList, c.isUpper ∨ c.isDigit ∨ c = '_'
  head     : ∀ c ∈ name.toList.head?, ¬c.isDigit

-- What becomes of a word in capitals has no small letters, so letters and digits are all that stays.
theorem of_mem_constantChars (h : c ∈ (upperSnakeChars cs).map constantChar) :
    c.isUpper ∨ c.isDigit ∨ c = '_' := by
  obtain ⟨x, hx, rfl⟩ := List.mem_map.mp h
  obtain ⟨y, _, hy⟩ := List.mem_flatMap.mp hx
  have hl : ¬x.isLower := not_isLower_of_mem_upper hy
  rw [constantChar]
  split
  case isFalse  => exact .inr <| .inr rfl
  case isTrue h =>
    rcases Bool.or_eq_true_iff.mp h with ha | hd
    · exact .inl <| (Bool.or_eq_true_iff.mp ha).resolve_right hl
    · exact .inr <| .inl hd

theorem enumConstantChars_cases (cs : List Char) :
    enumConstantChars cs = '_' :: (upperSnakeChars cs).map constantChar ∨
      enumConstantChars cs = (upperSnakeChars cs).map constantChar ∧
        ∃ c ∈ ((upperSnakeChars cs).map constantChar).head?, ¬c.isDigit := by
  rw [enumConstantChars]
  split
  case h_1 h => exact .inl <| by rw [h]
  case h_2 c rest h =>
    split
    case isTrue     => exact .inl <| by rw [h]
    case isFalse hd => exact .inr ⟨h.symm, c, by rw [h]; rfl, hd⟩

theorem isConstantName_enumConstant : IsConstantName (enumConstant s) := by
  have hs : (enumConstant s).toList = enumConstantChars s.toList := String.toList_ofList
  rcases enumConstantChars_cases s.toList with h | ⟨h, c, hm, hd⟩ <;> rw [h] at hs
  · constructor
    case nonempty => exact fun he => by simp [he] at hs
    case head     => simp [hs]
    case chars    =>
      rw [hs]
      exact List.forall_mem_cons.mpr ⟨.inr <| .inr rfl, fun _ => of_mem_constantChars⟩
  · constructor
    case nonempty => exact fun he => by simp [← hs, he] at hm
    case chars    => exact fun _ hc => of_mem_constantChars <| hs ▸ hc
    case head     => exact fun _ hc => Option.mem_unique hm (hs ▸ hc) ▸ hd

end Naming

namespace Lexicon

-- A value between quotes, with nothing escaped.
def quoted (value : String) : String := "\"" ++ value ++ "\""

-- A value whose literal escapes nothing.
def IsUnescaped (value : String) : Prop := '\\' ∉ value.toList ∧ '"' ∉ value.toList

instance (value : String) : Decidable (IsUnescaped value) :=
  inferInstanceAs (Decidable (_ ∧ _))

-- The number of characters that the literal of a value escapes.
def escapeCount (value : String) : Nat :=
  value.toList.countP fun c => c = '\\' ∨ c = '"'

variable {lex : Lexicon} {cs : List Char} {value s t : String}

theorem escapeCount_eq_zero_iff : escapeCount value = 0 ↔ IsUnescaped value := by
  simp only [escapeCount, IsUnescaped, List.countP_eq_zero, decide_eq_true_eq, not_or]
  constructor
  · exact fun h => ⟨fun hm => (h _ hm).left rfl, fun hm => (h _ hm).right rfl⟩
  · rintro ⟨hb, hq⟩ c hm
    exact ⟨fun h => hb (h ▸ hm), fun h => hq (h ▸ hm)⟩

theorem escapeCount_append : escapeCount (s ++ t) = escapeCount s + escapeCount t := by
  simp [escapeCount, String.toList_append, List.countP_append]

theorem length_flatMap_escapeChar : (cs.flatMap escapeChar).length =
    cs.length + cs.countP fun c => c = '\\' ∨ c = '"' := by
  induction cs
  case nil => rfl
  case cons c cs ih =>
    rcases escapeChar_cases c with ⟨he, h⟩ | ⟨hb, hq, h⟩
    · simp [h, ih, he]
      omega
    · simp [h, ih, hb, hq]
      omega

theorem length_stringLiteral :
    (lex.stringLiteral value).length = (quoted value).length + escapeCount value := by
  have hq : "\"".toList = ['"'] := rfl
  simp only [← String.length_toList, toList_stringLiteral, quoted, String.toList_append, hq,
    List.length_cons, List.length_append, List.length_nil, length_flatMap_escapeChar, escapeCount]
  omega

theorem quoted_eq_stringLiteral_iff :
    quoted value = lex.stringLiteral value ↔ IsUnescaped value := by
  constructor
  · intro h
    have hl : (lex.stringLiteral value).length = (quoted value).length + escapeCount value :=
      length_stringLiteral
    rw [← h] at hl
    exact escapeCount_eq_zero_iff.mp <| by omega
  · rintro ⟨hb, hq⟩
    have hc : ∀ c ∈ value.toList, escapeChar c = [c] := by
      intro c hm
      rcases escapeChar_cases c with ⟨rfl | rfl, _⟩ | ⟨_, _, h⟩
      · contradiction
      · contradiction
      · exact h
    rw [quoted, stringLiteral, List.flatMap_congr hc, List.flatMap_singleton', String.ofList_toList]

end Lexicon

namespace Code.EnumDecl

open Lexicon Naming
open Classwright.Language (readLiteral)

variable {e : EnumDecl} {used values : List String} {constant value : String} {language : Language}
  {lex : Lexicon} {c : String × String} {cs : List (String × String)}

theorem mem_constantsFrom : (constant, value) ∈ constantsFrom used values ↔
    constant ∉ used ∧ values.find? (enumConstant · == constant) = some value := by
  induction values generalizing used
  case nil => simp [constantsFrom]
  case cons v values ih =>
    rw [constantsFrom, List.find?_cons]
    split
    case isTrue hs =>
      rw [ih]
      grind
    case isFalse hs =>
      rw [List.mem_cons, ih]
      grind

-- A constant stands for the first value that comes to it.
theorem mem_constants_iff : (constant, value) ∈ e.constants ↔
    e.values.find? (enumConstant · == constant) = some value := by
  simp [constants, mem_constantsFrom]

-- The place of the first value that comes to a constant.
def place (values : List String) (constant : String) : Nat :=
  values.findIdx (enumConstant · == constant)

-- The constants that values come to, in the order in which one first comes to them, with that value.
structure Enumerates (values : List String) (constants : List (String × String)) : Prop where
  named   : ∀ c ∈ constants, IsConstantName c.fst
  nodup   : (constants.map Prod.fst).Nodup
  covers  : ∀ value ∈ values, enumConstant value ∈ constants.map Prod.fst
  first   : ∀ c ∈ constants, values.find? (enumConstant · == c.fst) = some c.snd
  ordered : constants.Pairwise fun c d => place values c.fst < place values d.fst

theorem place_cons_self : place (value :: values) (enumConstant value) = 0 := by
  simp [place, List.findIdx_cons]

theorem place_cons_of_ne (h : enumConstant value ≠ constant) :
    place (value :: values) constant = place values constant + 1 := by
  rw [place, List.findIdx_cons, beq_false_of_ne h]
  rfl

-- The places are one further on behind a value, unless it is the value itself that comes to a constant.
theorem pairwise_place_constantsFrom : (constantsFrom used values).Pairwise fun c d =>
    place values c.fst < place values d.fst := by
  induction values generalizing used
  case nil => exact .nil
  case cons v values ih =>
    have hp : ∀ {used'}, enumConstant v ∈ used' → (constantsFrom used' values).Pairwise fun c d =>
        place (v :: values) c.fst < place (v :: values) d.fst := by
      intro used' hv
      refine ih.imp_of_mem fun {c d} hc hd h => ?_
      have hne : ∀ {c}, c ∈ constantsFrom used' values → enumConstant v ≠ c.fst :=
        fun hm he => (mem_constantsFrom.mp hm).left <| he ▸ hv
      rw [place_cons_of_ne <| hne hc, place_cons_of_ne <| hne hd]
      exact Nat.succ_lt_succ h
    rw [constantsFrom]
    split
    case isTrue hv => exact hp <| by simpa using hv
    case isFalse =>
      refine List.pairwise_cons.mpr ⟨fun d hd => ?_, hp List.mem_cons_self⟩
      have hne : enumConstant v ≠ d.fst :=
        fun he => (mem_constantsFrom.mp hd).left <| he ▸ List.mem_cons_self
      rw [place_cons_self, place_cons_of_ne hne]
      exact Nat.succ_pos _

theorem pairwise_place_constants :
    e.constants.Pairwise fun c d => place e.values c.fst < place e.values d.fst :=
  pairwise_place_constantsFrom

theorem exists_mem_constants (h : value ∈ e.values) :
    ∃ first, (enumConstant value, first) ∈ e.constants := by
  have hs : (e.values.find? (enumConstant · == enumConstant value)).isSome :=
    List.find?_isSome.mpr ⟨value, h, beq_self_eq_true _⟩
  obtain ⟨first, hf⟩ := Option.isSome_iff_exists.mp hs
  exact ⟨first, mem_constants_iff.mpr hf⟩

theorem enumerates_constants (e : EnumDecl) : Enumerates e.values e.constants where
  named c hc := by
    have hf := mem_constants_iff.mp hc
    have he : enumConstant c.snd = c.fst := by simpa using List.find?_some hf
    exact he ▸ isConstantName_enumConstant
  nodup := by
    refine List.pairwise_map.mpr <| pairwise_place_constants.imp fun h he => ?_
    exact Nat.lt_irrefl _ (he ▸ h)
  covers value hv := by
    obtain ⟨first, hm⟩ := exists_mem_constants hv
    exact List.mem_map.mpr ⟨_, hm, rfl⟩
  first _ hc := mem_constants_iff.mp hc
  ordered := pairwise_place_constants

example : constants ⟨"Size", ["xl", "2xl", "XL", "größe", ""]⟩ =
    [("XL", "xl"), ("_2XL", "2xl"), ("GR_SSE", "größe"), ("_", "")] := by
  decide

-- How a language declares a constant whose value is written as the literal.
def declared (language : Language) (constant literal : String) : String :=
  match language with
  | .java | .kotlin       => "\n    " ++ constant ++ "(" ++ literal ++ ")"
  | .typescript | .python => "\n    " ++ constant ++ " = " ++ literal

def declaredTexts (language : Language) (literal : String → String) :
    List (String × String) → List String
  | []      => []
  | [c]     => [declared language c.fst (literal c.snd) ++ language.lexicon.enumLayout.last]
  | c :: cs =>
    (declared language c.fst (literal c.snd) ++ language.lexicon.enumLayout.between) ::
      declaredTexts language literal cs

-- An enumeration with the literals that are given for its values.
def printWith (language : Language) (literal : String → String) (e : EnumDecl) : String :=
  let layout := language.lexicon.enumLayout
  Template.fill layout.opening [("name", e.name)] ++
    String.join (declaredTexts language literal e.constants) ++
    Template.fill layout.closing [("name", e.name)]

theorem constantText_eq :
    constantText language.lexicon.enumLayout c = declared language c.fst (quoted c.snd) := by
  rw [← String.toList_inj]
  cases language
  all_goals
    simp only [constantText, Template.fill, String.toList_ofList, declared, quoted,
      String.toList_append, List.append_assoc]
    rfl

theorem constantTexts_eq :
    constantTexts language.lexicon.enumLayout cs = declaredTexts language quoted cs := by
  fun_induction constantTexts <;> simp_all [declaredTexts, constantText_eq]

theorem print_eq_printWith_quoted : e.print language.lexicon = e.printWith language quoted := by
  rw [print, constantTexts_eq]
  rfl

theorem length_declared_stringLiteral :
    (declared language constant (lex.stringLiteral value)).length =
      (declared language constant (quoted value)).length + escapeCount value := by
  cases language <;> simp [declared, length_stringLiteral] <;> omega

theorem length_join_declaredTexts :
    (String.join (declaredTexts language language.lexicon.stringLiteral cs)).length =
      (String.join (declaredTexts language quoted cs)).length +
        escapeCount (String.join <| cs.map Prod.snd) := by
  fun_induction declaredTexts language quoted cs
  case case1 => rfl
  case case2 =>
    simp [declaredTexts, length_declared_stringLiteral]
    omega
  case case3 ih =>
    simp [declaredTexts, length_declared_stringLiteral, escapeCount_append, ih]
    omega

theorem declaredTexts_congr {literal literal' : String → String}
    (h : ∀ c ∈ cs, literal c.snd = literal' c.snd) :
    declaredTexts language literal cs = declaredTexts language literal' cs := by
  fun_induction declaredTexts language literal cs <;> simp_all [declaredTexts]

-- The literals are longer by what they escape, so the texts are the same only if nothing is.
theorem print_eq_printWith_stringLiteral_iff :
    e.print language.lexicon = e.printWith language language.lexicon.stringLiteral ↔
      ∀ c ∈ e.constants, IsUnescaped c.snd := by
  rw [print_eq_printWith_quoted]
  constructor
  · intro h c hc
    have hl := congrArg String.length h
    simp only [printWith, String.length_append, length_join_declaredTexts] at hl
    have hz : escapeCount (String.join <| e.constants.map Prod.snd) = 0 := by omega
    have ⟨hb, hq⟩ := escapeCount_eq_zero_iff.mp hz
    have hm : ∀ x ∈ c.snd.toList, x ∈ (String.join <| e.constants.map Prod.snd).toList := by
      intro x hx
      rw [String.toList_join, List.mem_flatMap]
      exact ⟨c.snd, List.mem_map.mpr ⟨c, hc, rfl⟩, hx⟩
    exact ⟨fun h => hb (hm _ h), fun h => hq (hm _ h)⟩
  · intro h
    have hl : ∀ c ∈ e.constants, quoted c.snd = language.lexicon.stringLiteral c.snd :=
      fun c hc => quoted_eq_stringLiteral_iff.mpr <| h c hc
    rw [printWith, printWith, declaredTexts_congr hl]

-- Values are written between quotes as they are. That is their literal exactly if it escapes nothing, and
-- an enumeration is written with the literals of its values exactly if this is so for all that it keeps.
theorem prints_stringLiterals_iff (language : Language) (e : EnumDecl) :
    e.print language.lexicon = e.printWith language quoted ∧
    (∀ value, quoted value = language.lexicon.stringLiteral value ↔ IsUnescaped value) ∧
    (e.print language.lexicon = e.printWith language language.lexicon.stringLiteral ↔
      ∀ c ∈ e.constants, IsUnescaped c.snd) :=
  ⟨print_eq_printWith_quoted, fun _ => quoted_eq_stringLiteral_iff,
    print_eq_printWith_stringLiteral_iff⟩

def petStatus : EnumDecl := ⟨"PetStatus", ["available", "sold-out", "Sold Out"]⟩

theorem prints_petStatus :
    petStatus.constants = [("AVAILABLE", "available"), ("SOLD_OUT", "sold-out")] ∧
    petStatus.print Language.python.lexicon =
      "class PetStatus(Enum):\n    AVAILABLE = \"available\"\n    SOLD_OUT = \"sold-out\"" ∧
    petStatus.print Language.python.lexicon =
      petStatus.printWith .python Language.python.lexicon.stringLiteral := by
  have hc : petStatus.constants = [("AVAILABLE", "available"), ("SOLD_OUT", "sold-out")] := by decide
  refine ⟨hc, rfl, (prints_stringLiterals_iff .python petStatus).right.right.mpr ?_⟩
  rw [hc]
  decide

def wheelSize : EnumDecl := ⟨"WheelSize", ["26\"", "C:\\bikes"]⟩

-- The inch mark ends its literal, and the backslash makes a control character of the letter behind it.
theorem misprints_wheelSize :
    wheelSize.constants = [("_26_", "26\""), ("C__BIKES", "C:\\bikes")] ∧
    (∀ language : Language, wheelSize.print language.lexicon ≠
      wheelSize.printWith language language.lexicon.stringLiteral) ∧
    ∀ letters language, readLiteral letters language (quoted "26\"") = none ∧
      readLiteral letters language (quoted "C:\\bikes") = some "C:\x08ikes" := by
  have hc : wheelSize.constants = [("_26_", "26\""), ("C__BIKES", "C:\\bikes")] := by decide
  refine ⟨hc, fun language => ?_, fun letters language => ?_⟩
  · rw [Ne, print_eq_printWith_stringLiteral_iff, hc]
    decide
  · cases language <;> exact ⟨rfl, rfl⟩

end Code.EnumDecl

end Classwright
