import Classwright.Graph.Synthesis
import Classwright.Proofs.Text.Case
import Mathlib.Data.List.Nodup
import Mathlib.Data.List.TakeWhile
import Mathlib.Tactic.Push

namespace Classwright.Schema

open Naming Text

-- A name is plain if it has no slash, so that a reference to it is resolved to the name itself.
def PlainName (n : String) : Prop :=
  '/' ∉ n.toList

instance (n : String) : Decidable (PlainName n) :=
  inferInstanceAs (Decidable (_ ∉ _))

theorem lastSegment_of_no_slash {cs : List Char} (h : '/' ∉ cs) : lastSegment cs = cs := by
  have h : ∀ c ∈ cs.reverse, (c != '/') := by
    intro c hc
    have : c ≠ '/' := fun he => h <| he ▸ List.mem_reverse.mp hc
    simpa using this
  rw [lastSegment, List.takeWhile_eq_self_iff.mpr h, List.reverse_reverse]

namespace PlainName

variable {m n : String}

theorem resolveReference_eq (h : PlainName n) : resolveReference n = n := by
  simp [resolveReference, lastSegment_of_no_slash h]

theorem append (hm : PlainName m) (hn : PlainName n) : PlainName (m ++ n) := by
  simp_all [PlainName, String.toList_append]

theorem toString (k : Nat) : PlainName (toString k) := by
  intro h
  rw [Nat.toString_eq_repr, Nat.toList_repr] at h
  have := Nat.isDigit_of_mem_toDigits (by decide) (by decide) h
  contradiction

theorem capitalize (h : PlainName n) : PlainName (capitalize n) := by
  simp only [PlainName, Naming.capitalize, String.toList_ofList] at h ⊢
  cases hn : n.toList <;> simp only [capitalizeChars, hn] at h ⊢
  case nil => exact h
  case cons c cs =>
    rw [List.mem_append]
    rintro (hc | hc)
    · exact h <| eq_slash_of_mem_upper hc ▸ List.mem_cons_self
    · exact h <| List.mem_cons_of_mem _ hc

theorem candidate {owner base : String} (ho : PlainName owner) (hb : PlainName base) :
    ∀ k, PlainName (DefinitionGraph.candidate owner base k)
  | 0     => hb
  | 1     => ho.append hb
  | k + 2 => (ho.append hb).append <| toString (k + 2)

end PlainName

theorem append_toString_injective (s : String) : (fun k : Nat => s ++ toString k).Injective := by
  intro j k h
  have h := congrArg String.toList h
  simp only [String.toList_append, List.append_cancel_left_eq, Nat.toString_eq_repr,
    Nat.toList_repr] at h
  have h := congrArg (Nat.ofDigitChars 10 · 0) h
  simpa only [Nat.ofDigitChars_ten_toDigits] using h

-- Names that go on for ever without repetition are not all used.
theorem exists_lt_not_mem {f : Nat → String} (hf : f.Injective) (used : List String) :
    ∃ k < used.length + 1, f k ∉ used := by
  by_contra hc
  push Not at hc
  have hn : ((List.range (used.length + 1)).map f).Nodup := List.nodup_range.map hf
  have hs : (List.range (used.length + 1)).map f ⊆ used := by
    intro n hm
    obtain ⟨k, hk, rfl⟩ := List.mem_map.mp hm
    exact hc k <| List.mem_range.mp hk
  have := hn.length_le_of_subset hs
  simp only [List.length_map, List.length_range] at this
  omega

-- The names that a schema's `type` may have; a definition under such a name cannot be referred to.
def builtInNames : List String :=
  Primitive.string.name :: Primitive.number.name :: Primitive.integer.name ::
    Primitive.boolean.name :: [objectName, arrayName]

def IsBuiltIn (n : String) : Prop :=
  n ∈ builtInNames

instance (n : String) : Decidable (IsBuiltIn n) :=
  inferInstanceAs (Decidable (_ ∈ _))

namespace IsBuiltIn

variable {n : String}

theorem isLower (h : IsBuiltIn n) : ∀ c ∈ n.toList, c.isLower := by
  have hb : ∀ n ∈ builtInNames, n.toList.all (·.isLower) := by decide
  exact List.all_eq_true.mp <| hb n h

theorem of_ofName?_eq_some {p : Primitive} (h : Primitive.ofName? n = some p) : IsBuiltIn n := by
  simp only [Primitive.ofName?] at h
  repeat' split at h
  all_goals simp_all [IsBuiltIn, builtInNames, Primitive.name]

end IsBuiltIn

theorem not_isBuiltIn_of_mem {n : String} {c : Char} (h : c ∈ n.toList) (hc : ¬c.isLower) :
    ¬IsBuiltIn n :=
  fun hb => hc <| hb.isLower c h

-- A capitalized name is empty or has a character that is no small letter.
theorem exists_mem_capitalize {n : String} (h : capitalize n ≠ "") :
    ∃ c ∈ (capitalize n).toList, ¬c.isLower := by
  simp only [capitalize, String.toList_ofList] at h ⊢
  cases hn : n.toList
  case nil => simp [hn, capitalizeChars] at h
  case cons c cs =>
    obtain ⟨x, hx⟩ := List.exists_mem_of_ne_nil _ <| upper_ne_nil c
    exact ⟨x, List.mem_append_left _ hx, not_isLower_of_mem_upper hx⟩

theorem capitalize_ne_empty {n : String} (h : n ≠ "") : capitalize n ≠ "" := by
  simp only [capitalize, ne_eq, String.ofList_eq_empty_iff]
  cases hn : n.toList
  case nil => simp_all
  case cons c cs => simp [capitalizeChars, upper_ne_nil c]

theorem not_isBuiltIn_candidate_of_ne_empty {owner n : String} (h : capitalize n ≠ "") (k : Nat) :
    ¬IsBuiltIn (DefinitionGraph.candidate owner (capitalize n) k) := by
  obtain ⟨c, hm, hc⟩ := exists_mem_capitalize h
  apply not_isBuiltIn_of_mem (c := c) _ hc
  match k with
  | 0     => exact hm
  | 1     => simp [DefinitionGraph.candidate, String.toList_append, hm]
  | k + 2 => simp [DefinitionGraph.candidate, String.toList_append, hm]

-- New names are no names of built-in types.
theorem not_isBuiltIn_candidate {owner n : String} {k : Nat}
    (h : DefinitionGraph.candidate owner (capitalize n) k ≠ owner) :
    ¬IsBuiltIn (DefinitionGraph.candidate owner (capitalize n) k) := by
  by_cases hn : capitalize n = ""
  case neg => exact not_isBuiltIn_candidate_of_ne_empty hn k
  case pos =>
    match k with
    | 0     => simp [DefinitionGraph.candidate, hn]; decide
    | 1     => simp [DefinitionGraph.candidate, hn] at h
    | k + 2 =>
      obtain ⟨c, hc⟩ := List.exists_mem_of_ne_nil _ <| Nat.toDigits_ne_nil (n := k + 2) (b := 10)
      have hd := Nat.isDigit_of_mem_toDigits (by decide) (by decide) hc
      apply not_isBuiltIn_of_mem (c := c)
      · simp [DefinitionGraph.candidate, String.toList_append, Nat.toString_eq_repr, hc]
      · intro hl
        simp only [Char.isDigit, Bool.and_eq_true, decide_eq_true_eq, UInt32.le_iff_toNat_le] at hd
        exact absurd ((Text.isLower_iff.mp hl).left.trans hd.right) (by decide)

end Classwright.Schema
