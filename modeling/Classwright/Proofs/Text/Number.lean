import Classwright.Number.Shortest
import Mathlib.Data.List.Basic

namespace Classwright

def IsDigits (cs : List Char) : Prop := cs ≠ [] ∧ ∀ c ∈ cs, c.isDigit

def IsSign (cs : List Char) : Prop := cs = [] ∨ cs = ['-']

inductive IsInteger : List Char → Prop
  | signed {sign digits} : IsSign sign → IsDigits digits → IsInteger (sign ++ digits)

inductive IsDecimal : List Char → Prop
  | fraction {whole digits} : IsInteger whole → IsDigits digits → IsDecimal (whole ++ '.' :: digits)
  | power {whole power} : IsInteger whole → IsInteger power → IsDecimal (whole ++ 'e' :: power)
  | both {whole digits power} : IsInteger whole → IsDigits digits → IsInteger power →
    IsDecimal (whole ++ '.' :: digits ++ 'e' :: power)

variable {cs ds sign : List Char}

namespace IsDigits

theorem append (hc : IsDigits cs) (hd : ∀ c ∈ ds, c.isDigit) : IsDigits (cs ++ ds) :=
  ⟨by simp [hc.left], fun c hm => (List.mem_append.mp hm).elim (hc.right c) (hd c)⟩

theorem sublist (hd : IsDigits ds) (hs : cs.Sublist ds) (hn : cs ≠ []) : IsDigits cs :=
  ⟨hn, fun c hm => hd.right c <| hs.subset hm⟩

theorem toDigits (n : Nat) : IsDigits (Nat.toDigits 10 n) :=
  ⟨Nat.toDigits_ne_nil, fun _ => Nat.isDigit_of_mem_toDigits (by decide) (by decide)⟩

theorem isInteger (h : IsDigits ds) : IsInteger ds :=
  .signed (.inl rfl) h

end IsDigits

theorem isSign_sign (negative : Bool) : IsSign (Binary64.sign negative).toList := by
  cases negative
  case true  => exact .inr rfl
  case false => exact .inl rfl

theorem isInteger_toString (k : Int) : IsInteger (toString k).toList := by
  have hn : ∀ n : Nat, (toString n).toList = Nat.toDigits 10 n := fun n => by
    rw [Nat.toString_eq_repr, Nat.toList_repr]
  cases k
  case ofNat n =>
    change IsInteger (toString n).toList
    exact hn n ▸ (IsDigits.toDigits n).isInteger
  case negSucc n =>
    change IsInteger ("-" ++ toString (n + 1)).toList
    rw [String.toList_append, hn]
    exact .signed (.inr rfl) (.toDigits _)

theorem IsInteger.eq_or_isDigit {c : Char} (h : IsInteger cs) (hc : c ∈ cs) : c = '-' ∨ c.isDigit := by
  obtain ⟨rfl | rfl, hd⟩ := h
  · exact .inr <| hd.right c hc
  · exact (List.mem_cons.mp hc).imp_right <| hd.right c

-- A numeral starts with a digit, behind a sign at most.
theorem IsDecimal.exists_isDigit (h : IsDecimal cs) :
    ∃ sign c rest, IsSign sign ∧ c.isDigit ∧ cs = sign ++ c :: rest := by
  have hi : ∀ {whole rest}, IsInteger whole →
      ∃ sign c rest', IsSign sign ∧ c.isDigit ∧ whole ++ rest = sign ++ c :: rest' := by
    rintro _ rest ⟨hs, hn, hd⟩
    obtain ⟨c, ds, rfl⟩ := List.exists_cons_of_ne_nil hn
    exact ⟨_, c, ds ++ rest, hs, hd c List.mem_cons_self, by simp⟩
  cases h
  case fraction hw _ => exact hi hw
  case power hw _    => exact hi hw
  case both hw _ _   =>
    rw [List.append_assoc]
    exact hi hw

-- and goes on behind a point or an exponent.
theorem IsDecimal.mem (h : IsDecimal cs) : '.' ∈ cs ∨ 'e' ∈ cs := by
  cases h <;> simp

namespace Binary64

variable {x : Binary64}

theorem isDecimal_text (hs : IsSign sign) (d : Decimal) :
    IsDecimal (sign ++ (d.text false).toList) := by
  have hd := IsDigits.toDigits d.digits
  have hz : ∀ n, ∀ c ∈ List.replicate n '0', c.isDigit := by
    intro n c hc
    rw [List.eq_of_mem_replicate hc]
    rfl
  rw [Decimal.text, String.toList_ofList]
  generalize Nat.toDigits 10 d.digits = digits at hd ⊢
  dsimp only
  split_ifs with hw hp hs'
  case pos =>
    have hi : IsInteger (sign ++ (digits ++ List.replicate d.exponent.toNat '0')) :=
      .signed hs <| hd.append <| hz _
    simpa using IsDecimal.fraction hi <| IsDigits.toDigits 0
  case pos =>
    have ht : IsDigits (digits.take (digits.length + d.exponent).toNat) :=
      hd.sublist (List.take_sublist _ _) <| by simp [hd.left]; omega
    have hr : IsDigits (digits.drop (digits.length + d.exponent).toNat) :=
      hd.sublist (List.drop_sublist _ _) <| by simp; omega
    simpa using IsDecimal.fraction (.signed hs ht) hr
  case pos =>
    have hr : IsDigits (List.replicate (-(digits.length + d.exponent)).toNat '0' ++ digits) :=
      ⟨by simp [hd.left], fun c hm => (List.mem_append.mp hm).elim (hz _ c) (hd.right c)⟩
    simpa using IsDecimal.fraction (.signed hs <| IsDigits.toDigits 0) hr
  case neg =>
    have hp : (powerText false (digits.length + d.exponent - 1)).toList =
        'e' :: (toString (digits.length + d.exponent - 1)).toList := by
      simp [powerText, String.toList_append]
    rw [hp]
    have hi := isInteger_toString (digits.length + d.exponent - 1)
    generalize (toString (digits.length + d.exponent - 1)).toList = power at hi ⊢
    obtain _ | ⟨digit, _ | ⟨next, rest⟩⟩ := digits
    · exact absurd rfl hd.left
    · simpa using IsDecimal.power (.signed hs hd) hi
    · have hw : IsDigits [digit] := hd.sublist (by simp) (by simp)
      have hf : IsDigits (next :: rest) := hd.sublist (List.sublist_cons_self _ _) (by simp)
      simpa using IsDecimal.both (.signed hs hw) hf hi

-- What starts with a point is no numeral, and neither is its negation.
theorem not_isDecimal_point (hs : IsSign sign) : ¬IsDecimal (sign ++ '.' :: cs) := by
  intro h
  obtain ⟨_, c, _, hs', hc, he⟩ := h.exists_isDigit
  rcases hs with rfl | rfl <;> rcases hs' with rfl | rfl <;>
    simp only [List.nil_append, List.singleton_append, List.cons.injEq] at he
  · exact absurd (he.left ▸ hc) (by decide)
  · exact absurd he.left (by decide)
  · exact absurd (he.left ▸ hc) (by decide)
  · exact absurd (he.right.left ▸ hc) (by decide)

theorem isDecimal_text_iff : IsDecimal x.text.toList ↔ x.isFinite := by
  cases x
  case finite negative mantissa exponent =>
    refine iff_of_true ?_ rfl
    have hs := isSign_sign negative
    rw [text, textWith, String.toList_append]
    split
    case isTrue  => simpa using IsDecimal.fraction (.signed hs <| .toDigits 0) <| .toDigits 0
    case isFalse => exact isDecimal_text hs _
  case infinite negative =>
    refine iff_of_false ?_ (by simp [isFinite])
    rw [text, textWith, String.toList_append]
    exact not_isDecimal_point <| isSign_sign negative
  case nan =>
    exact iff_of_false (not_isDecimal_point <| .inl rfl) (by simp [isFinite])

end Binary64

end Classwright
