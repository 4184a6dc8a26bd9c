import Classwright.Text.Case

namespace Classwright.Text

-- The codes that a capital form may have: none, an ASCII capital, or a code above ASCII.
def IsCapitalCode (code : Nat) : Prop :=
  code = 0 ∨ (65 ≤ code ∧ code ≤ 90) ∨ 128 ≤ code

instance (code : Nat) : Decidable (IsCapitalCode code) :=
  inferInstanceAs (Decidable (_ ∨ _ ∨ _))

-- A range leads to codes above ASCII as a whole, or it is a single code that leads to a capital.
def CaseRange.IsCapital (r : CaseRange) : Prop :=
  (128 ≤ (r.range.first : Int) + r.offset) ∨
    (r.range.first = r.range.last ∧ IsCapitalCode ((r.range.first : Int) + r.offset).toNat)

instance (r : CaseRange) : Decidable r.IsCapital :=
  inferInstanceAs (Decidable (_ ∨ _))

theorem upperRanges_isCapital : ∀ r ∈ upperRanges, r.IsCapital := by
  decide +kernel

theorem upperSequences_isCapital :
    ∀ s ∈ upperSequences, s.2 ≠ [] ∧ ∀ code ∈ s.2, IsCapitalCode code := by
  decide +kernel

theorem CaseRange.isCapitalCode_of_map? {r : CaseRange} {code image : Nat} (hr : r.IsCapital)
    (h : r.map? code = some image) : IsCapitalCode image := by
  simp only [map?, Option.ite_none_right_eq_some, Option.some.injEq, CodeRange.contains,
    Bool.and_eq_true, decide_eq_true_eq] at h
  obtain ⟨⟨⟨hf, hl⟩, _⟩, rfl⟩ := h
  cases hr
  case inl hr => exact .inr <| .inr <| by omega
  case inr hr => exact (show code = r.range.first by omega) ▸ hr.right

-- A code that is none of a character's becomes zero.
theorem toNat_ofNat_cases (code : Nat) :
    (Char.ofNat code).toNat = code ∨ (Char.ofNat code).toNat = 0 := by
  by_cases hv : code.isValidChar
  case pos =>
    have he : Char.ofNat code = Char.ofNatAux code hv := dif_pos hv
    exact .inl <| he ▸ rfl
  case neg =>
    have he : Char.ofNat code = '\x00' := dif_neg hv
    exact .inr <| he ▸ rfl

theorem isCapitalCode_toNat_ofNat {code : Nat} (h : IsCapitalCode code) :
    IsCapitalCode (Char.ofNat code).toNat := by
  rcases toNat_ofNat_cases code with he | he <;> rw [he]
  · exact h
  · exact .inl rfl

theorem mem_of_lookup {α β} [BEq α] [LawfulBEq α] {l : List (α × β)} {a : α} {b : β}
    (h : l.lookup a = some b) : (a, b) ∈ l := by
  obtain ⟨_, _, rfl, _⟩ := List.lookup_eq_some_iff.mp h
  simp

-- A character of an image is listed in a sequence or a range, or it is its own image.
theorem mem_mapCase {sequences : List (Nat × List Nat)} {ranges : List CaseRange} {c x : Char}
    (h : x ∈ mapCase sequences ranges c) :
    (∃ s ∈ sequences, ∃ code ∈ s.2, x = .ofNat code) ∨
      (∃ r ∈ ranges, ∃ code, r.map? c.toNat = some code ∧ x = .ofNat code) ∨ x = c := by
  rw [mapCase] at h
  split at h
  case h_1 codes hs =>
    obtain ⟨code, hm, rfl⟩ := List.mem_map.mp h
    exact .inl ⟨_, mem_of_lookup hs, code, hm, rfl⟩
  case h_2 =>
    split at h
    case h_1 code hr =>
      obtain ⟨r, hm, hr⟩ := List.exists_of_findSome?_eq_some hr
      exact .inr <| .inl ⟨r, hm, code, hr, List.mem_singleton.mp h⟩
    case h_2 => exact .inr <| .inr <| List.mem_singleton.mp h

theorem isCapitalCode_of_mem_upper {c x : Char} (hc : 128 ≤ c.toNat) (h : x ∈ upper c) :
    IsCapitalCode x.toNat := by
  rw [upper, if_neg <| Nat.not_lt.mpr hc] at h
  rcases mem_mapCase h with ⟨s, hs, code, hm, rfl⟩ | ⟨r, hr, code, hm, rfl⟩ | rfl
  · exact isCapitalCode_toNat_ofNat <| (upperSequences_isCapital s hs).right code hm
  · exact isCapitalCode_toNat_ofNat <|
      CaseRange.isCapitalCode_of_map? (upperRanges_isCapital r hr) hm
  · exact .inr <| .inr hc

theorem mapCase_ne_nil {sequences : List (Nat × List Nat)} {ranges : List CaseRange}
    (hs : ∀ s ∈ sequences, s.2 ≠ []) (c : Char) : mapCase sequences ranges c ≠ [] := by
  rw [mapCase]
  split
  case h_1 codes hl => simpa using hs _ <| mem_of_lookup hl
  case h_2 => split <;> simp

theorem upper_ne_nil (c : Char) : upper c ≠ [] := by
  rw [upper]
  split
  case isTrue  => simp
  case isFalse => exact mapCase_ne_nil (fun s hs => (upperSequences_isCapital s hs).left) c

theorem ascii_upper :
    ∀ n < 128, ('/' ∈ upper (.ofNat n) → Char.ofNat n = '/') ∧
      (upper (.ofNat n)).all (!·.isLower) := by
  decide

theorem eq_slash_of_mem_upper {c : Char} (h : '/' ∈ upper c) : c = '/' := by
  by_cases hc : c.toNat < 128
  case pos => simpa using (ascii_upper c.toNat hc).left (by simpa using h)
  case neg =>
    have := isCapitalCode_of_mem_upper (Nat.not_lt.mp hc) h
    simp [IsCapitalCode] at this

theorem isLower_iff {c : Char} : c.isLower ↔ 97 ≤ c.toNat ∧ c.toNat ≤ 122 := by
  change (decide ('a'.val ≤ c.val) && decide (c.val ≤ 'z'.val)) = true ↔ _
  simp only [Bool.and_eq_true, decide_eq_true_eq, UInt32.le_iff_toNat_le]
  rfl

theorem not_isLower_of_mem_upper {c x : Char} (h : x ∈ upper c) : ¬x.isLower := by
  by_cases hc : c.toNat < 128
  case pos =>
    have ha := List.all_eq_true.mp (ascii_upper c.toNat hc).right x (by simpa using h)
    simpa using ha
  case neg =>
    have hx := isCapitalCode_of_mem_upper (Nat.not_lt.mp hc) h
    rw [isLower_iff]
    rw [IsCapitalCode] at hx
    omega

-- The codes that a small form may have: none, or one behind the capital letters of ASCII.
def IsSmallCode (code : Nat) : Prop :=
  code = 0 ∨ 97 ≤ code

instance (code : Nat) : Decidable (IsSmallCode code) :=
  inferInstanceAs (Decidable (_ ∨ _))

theorem lowerRanges_isSmall : ∀ r ∈ lowerRanges, 97 ≤ (r.range.first : Int) + r.offset := by
  decide +kernel

theorem lowerSequences_isSmall : ∀ s ∈ lowerSequences, ∀ code ∈ s.2, IsSmallCode code := by
  decide +kernel

theorem isSmallCode_toNat_ofNat {code : Nat} (h : IsSmallCode code) :
    IsSmallCode (Char.ofNat code).toNat := by
  rcases toNat_ofNat_cases code with he | he <;> rw [he]
  · exact h
  · exact .inl rfl

theorem isSmallCode_of_mem_lower {c x : Char} (hc : 128 ≤ c.toNat) (h : x ∈ lower c) :
    IsSmallCode x.toNat := by
  rw [lower, if_neg <| Nat.not_lt.mpr hc] at h
  rcases mem_mapCase h with ⟨s, hs, code, hm, rfl⟩ | ⟨r, hr, code, hm, rfl⟩ | rfl
  · exact isSmallCode_toNat_ofNat <| lowerSequences_isSmall s hs code hm
  · have hr := lowerRanges_isSmall r hr
    refine isSmallCode_toNat_ofNat <| .inr ?_
    simp only [CaseRange.map?, Option.ite_none_right_eq_some, Option.some.injEq,
      CodeRange.contains, Bool.and_eq_true, decide_eq_true_eq] at hm
    omega
  · exact .inr <| by omega

theorem lower_ne_nil (c : Char) : lower c ≠ [] := by
  rw [lower]
  split
  case isTrue  => simp
  case isFalse => exact mapCase_ne_nil (by decide) c

theorem ascii_lower :
    ∀ n < 128, ((lower (.ofNat n)).all fun x => x = .ofNat n ∨ IsSmallCode x.toNat) ∧
      (lower (.ofNat n)).all (!·.isUpper) := by
  decide

-- A character before the small letters is no small form but its own.
theorem eq_of_mem_lower {c x : Char} (hx : ¬IsSmallCode x.toNat) (h : x ∈ lower c) : c = x := by
  by_cases hc : c.toNat < 128
  case pos =>
    have ha := List.all_eq_true.mp (ascii_lower c.toNat hc).left x (by simpa using h)
    simpa using ((of_decide_eq_true ha).resolve_right hx).symm
  case neg => exact absurd (isSmallCode_of_mem_lower (Nat.not_lt.mp hc) h) hx

theorem eq_slash_of_mem_lower {c : Char} (h : '/' ∈ lower c) : c = '/' :=
  eq_of_mem_lower (by decide) h

theorem isUpper_iff {c : Char} : c.isUpper ↔ 65 ≤ c.toNat ∧ c.toNat ≤ 90 :=
  decide_eq_true_iff.trans <| and_congr UInt32.le_iff_toNat_le UInt32.le_iff_toNat_le

theorem not_isUpper_of_mem_lower {c x : Char} (h : x ∈ lower c) : ¬x.isUpper := by
  by_cases hc : c.toNat < 128
  case pos =>
    have ha := List.all_eq_true.mp (ascii_lower c.toNat hc).right x (by simpa using h)
    simpa using ha
  case neg =>
    have hx := isSmallCode_of_mem_lower (Nat.not_lt.mp hc) h
    rw [isUpper_iff]
    rw [IsSmallCode] at hx
    omega

end Classwright.Text
