import Classwright.Language.Lexicon
import Mathlib.Logic.Basic

namespace Classwright.Lexicon

variable {c d : Char} {cs ds xs ys : List Char} {s t x y : String} {lex : Lexicon}

theorem escapeChar_cases (c : Char) :
    (c = '\\' ∨ c = '"') ∧ escapeChar c = ['\\', c] ∨ c ≠ '\\' ∧ c ≠ '"' ∧ escapeChar c = [c] := by
  rw [escapeChar]
  by_cases hb : c = '\\' <;> by_cases hq : c = '"' <;> simp [hb, hq]

-- What is escaped has no quote of its own, so the first bare quote is the end.
theorem escapeChar_append_ne_quote : escapeChar c ++ xs ≠ '"' :: ys := by
  rcases escapeChar_cases c with ⟨_, h⟩ | ⟨_, hq, h⟩ <;> simp_all

theorem escapeChar_append_injective (h : escapeChar c ++ xs = escapeChar d ++ ys) :
    c = d ∧ xs = ys := by
  rcases escapeChar_cases c with ⟨_, hc⟩ | ⟨_, _, hc⟩ <;>
    rcases escapeChar_cases d with ⟨_, hd⟩ | ⟨_, _, hd⟩ <;> grind

theorem eq_of_escaped_append
    (h : cs.flatMap escapeChar ++ '"' :: xs = ds.flatMap escapeChar ++ '"' :: ys) : cs = ds := by
  induction cs generalizing ds <;> cases ds
  case nil.nil   => rfl
  case nil.cons  => exact absurd (by simpa using h.symm) escapeChar_append_ne_quote
  case cons.nil  => exact absurd (by simpa using h) escapeChar_append_ne_quote
  case cons.cons c cs ih d ds =>
    rw [List.flatMap_cons, List.flatMap_cons, List.append_assoc, List.append_assoc] at h
    obtain ⟨rfl, hr⟩ := escapeChar_append_injective h
    rw [ih hr]

theorem toList_stringLiteral :
    (lex.stringLiteral s).toList = '"' :: (s.toList.flatMap escapeChar ++ ['"']) := by
  simp [stringLiteral, String.toList_append]

-- The escapes of the quotes are not escaped again when the backslashes are escaped first.
theorem flatMap_escapeChar : cs.flatMap escapeChar =
    (cs.flatMap fun c => if c = '\\' then ['\\', '\\'] else [c]).flatMap fun c =>
      if c = '"' then ['\\', '"'] else [c] := by
  rw [List.flatMap_assoc]
  refine congrArg (cs.flatMap ·) <| funext fun c => ?_
  rcases escapeChar_cases c with ⟨rfl | rfl, h⟩ | ⟨hb, hq, h⟩ <;> simp [*]

theorem mem_escapeChar_iff (hb : d ≠ '\\') : d ∈ escapeChar c ↔ d = c := by
  rcases escapeChar_cases c with ⟨-, h⟩ | ⟨-, -, h⟩ <;> simp [h, hb]

theorem mem_stringLiteral_iff (hb : d ≠ '\\') (hq : d ≠ '"') :
    d ∈ (lex.stringLiteral s).toList ↔ d ∈ s.toList := by
  simp [toList_stringLiteral, mem_escapeChar_iff hb, hq]

theorem eq_of_stringLiteral_append (h : lex.stringLiteral s ++ x = lex.stringLiteral t ++ y) :
    s = t := by
  have h := congrArg String.toList h
  rw [String.toList_append, String.toList_append, toList_stringLiteral, toList_stringLiteral] at h
  exact String.toList_inj.mp <| eq_of_escaped_append <| by simpa using h

-- Only the last quote is bare.
def closesQuote (escaped : Bool) : List Char → Bool
  | []      => false
  | c :: cs =>
    if escaped then closesQuote false cs
    else if c == '"' then cs.isEmpty
    else closesQuote (c == '\\') cs

def isQuoted (s : String) : Bool :=
  match s.toList with
  | '"' :: cs => closesQuote false cs
  | _         => false

theorem closesQuote_escapeChar_append :
    closesQuote false (escapeChar c ++ cs) = closesQuote false cs := by
  rcases escapeChar_cases c with ⟨_, h⟩ | ⟨hb, hq, h⟩
  · simp [h, closesQuote]
  · simp [h, closesQuote, hq, beq_false_of_ne hb]

theorem isQuoted_stringLiteral : isQuoted (lex.stringLiteral s) := by
  have h : closesQuote false (s.toList.flatMap escapeChar ++ ['"']) := by
    induction s.toList
    case nil          => rfl
    case cons c cs ih => rwa [List.flatMap_cons, List.append_assoc, closesQuote_escapeChar_append]
  rw [isQuoted, toList_stringLiteral]
  exact h

end Classwright.Lexicon
