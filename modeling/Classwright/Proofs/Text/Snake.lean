import Classwright.Proofs.Text.Case
import Classwright.Text.Naming

namespace Classwright.Naming

open Text

variable {b : Bool} {c : Char} {cs : List Char}

theorem snakeChars_append (b : Bool) (cs ds : List Char) :
    ∃ b', snakeChars b (cs ++ ds) = snakeChars b cs ++ snakeChars b' ds := by
  induction cs generalizing b
  case nil => exact ⟨b, rfl⟩
  case cons c cs ih =>
    simp only [List.cons_append, snakeChars]
    split
    case isTrue =>
      obtain ⟨b', h⟩ := ih false
      exact ⟨b', by rw [h, List.cons_append]⟩
    case isFalse =>
      split
      case isTrue =>
        obtain ⟨b', h⟩ := ih false
        exact ⟨b', by simp only [h, List.append_assoc]⟩
      case isFalse =>
        obtain ⟨b', h⟩ := ih (isLowercase c || c.isDigit)
        exact ⟨b', by rw [h, List.cons_append]⟩

-- A character of a word in snake case separates words, or it is small or comes from the word.
theorem mem_snakeChars (h : c ∈ snakeChars b cs) :
    c = '_' ∨ ∃ x ∈ cs, isUppercase x ∧ c ∈ lower x ∨ ¬isUppercase x ∧ c = x := by
  induction cs generalizing b
  case nil => contradiction
  case cons x cs ih =>
    have hrest : ∀ {b'}, c ∈ snakeChars b' cs →
        c = '_' ∨ ∃ y ∈ x :: cs, isUppercase y ∧ c ∈ lower y ∨ ¬isUppercase y ∧ c = y :=
      fun h => (ih h).imp_right fun ⟨y, hy, h⟩ => ⟨y, List.mem_cons_of_mem _ hy, h⟩
    rw [snakeChars] at h
    split at h
    case isTrue => exact (List.mem_cons.mp h).elim .inl hrest
    case isFalse =>
      split at h
      case isTrue hx =>
        rcases List.mem_append.mp h with h | h
        · rcases List.mem_append.mp h with h | h
          · split at h <;> simp_all
          · exact .inr ⟨x, List.mem_cons_self, .inl ⟨hx, h⟩⟩
        · exact hrest h
      case isFalse hx =>
        exact (List.mem_cons.mp h).elim (fun h => .inr ⟨x, List.mem_cons_self, .inr ⟨hx, h⟩⟩) hrest

theorem not_mem_snakeChars (h : '/' ∉ cs) : '/' ∉ snakeChars b cs := by
  intro hs
  rcases mem_snakeChars hs with hs | ⟨x, hx, ⟨_, hl⟩ | ⟨_, rfl⟩⟩
  · contradiction
  · exact h <| eq_slash_of_mem_lower hl ▸ hx
  · exact h hx

-- A dot separates words, so there is none in a word in snake case.
theorem dot_not_mem_snakeChars : '.' ∉ snakeChars b cs := by
  intro h
  induction cs generalizing b
  case nil => contradiction
  case cons x cs ih =>
    rw [snakeChars] at h
    split at h
    case isTrue => exact ih <| (List.mem_cons.mp h).resolve_left (by decide)
    case isFalse hx =>
      have hx : x ≠ '.' := fun he => hx <| by simp [he]
      split at h
      case isTrue =>
        refine (List.mem_append.mp h).elim (fun h => ?_) ih
        rcases List.mem_append.mp h with h | h
        · split at h <;> simp at h
        · exact hx <| eq_of_mem_lower (by decide) h
      case isFalse => exact ih <| (List.mem_cons.mp h).resolve_left hx.symm

theorem head?_snakeChars_eq_slash_iff :
    (snakeChars false cs).head? = some '/' ↔ cs.head? = some '/' := by
  cases cs
  case nil => rfl
  case cons x cs =>
    rw [snakeChars]
    split
    case isTrue h =>
      have hx : x ≠ '/' := by rintro rfl; simp at h
      simp [hx]
    case isFalse =>
      split
      case isFalse => rfl
      case isTrue hu =>
        have hx : x ≠ '/' := by rintro rfl; contradiction
        obtain ⟨y, ys, hl⟩ := List.exists_cons_of_ne_nil <| lower_ne_nil x
        have hy : y ≠ '/' := by
          rintro rfl
          exact hx <| eq_slash_of_mem_lower <| hl ▸ List.mem_cons_self
        simp [hl, hx, hy]

theorem not_isUpper_of_mem_snakeChars (h : c ∈ snakeChars b cs) : ¬c.isUpper := by
  rcases mem_snakeChars h with rfl | ⟨x, _, ⟨_, hl⟩ | ⟨hx, rfl⟩⟩
  · decide
  · exact not_isUpper_of_mem_lower hl
  · intro hu
    have ⟨_, hz⟩ := isUpper_iff.mp hu
    rw [isUppercase, if_pos <| by omega] at hx
    exact hx hu

theorem toLower_eq_self {s : String} (h : ∀ c ∈ s.toList, ¬c.isUpper) : s.toLower = s := by
  have hc : ∀ c ∈ s.toList, c.toLower = c := fun c hm => dif_neg <| mt decide_eq_true <| h c hm
  change s.map Char.toLower = s
  rw [String.map_eq_internal, List.map_congr_left hc, List.map_id',
    String.ofList_toList]

theorem not_isUpper_of_mem_snake {s : String} : ∀ c ∈ (snake s).toList, ¬c.isUpper := by
  intro c hc
  rw [snake, String.toList_ofList] at hc
  exact not_isUpper_of_mem_snakeChars hc

end Classwright.Naming
