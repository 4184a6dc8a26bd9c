import Classwright.Proofs.Text.Template
import Classwright.Swagger.Url
import Mathlib.Data.List.Chain

namespace Classwright.Swagger.UrlPart

open Text

-- No opening brace is closed behind it.
def HasNoSlot (cs : List Char) : Prop :=
  ∀ after, '{' :: after <:+ cs → '}' ∉ after

-- The scan of a url from slot to slot, with the parts of what it has not passed yet.
inductive Splits : List Char → List UrlPart → Prop
  | done {cs} : HasNoSlot cs → Splits cs (ofText cs)
  | slot {before name rest parts} : '{' ∉ before → '}' ∉ name → Splits rest parts →
      Splits (before ++ '{' :: (name ++ '}' :: rest))
        (ofText before ++ .parameter (.ofList name) :: parts)

def isLiteral : UrlPart → Bool
  | .literal _   => true
  | .parameter _ => false

-- A text that is no slot and has none, or the name of a slot.
def IsProper : UrlPart → Prop
  | .literal text   => text ≠ "" ∧ HasNoSlot text.toList
  | .parameter name => '}' ∉ name.toList

structure IsCanonical (parts : List UrlPart) : Prop where
  proper : ∀ p ∈ parts, p.IsProper
  apart  : parts.IsChain fun p q => ¬(p.isLiteral ∧ q.isLiteral)

variable {cs before name rest : List Char} {parts : List UrlPart}

theorem hasNoSlot_of_not_mem (h : '{' ∉ cs) : HasNoSlot cs :=
  fun _ hs => absurd (hs.subset List.mem_cons_self) h

-- It is enough to look behind the first opening brace.
theorem hasNoSlot_append (hb : '{' ∉ before) (hc : '}' ∉ rest) : HasNoSlot (before ++ '{' :: rest) := by
  intro after hs
  induction before
  case nil =>
    rcases List.suffix_cons_iff.mp hs with he | hs
    · cases he
      exact hc
    · exact fun hm => hc <| hs.subset <| List.mem_cons_of_mem _ hm
  case cons c before ih =>
    have ⟨hne, hb⟩ := not_or.mp <| mt List.mem_cons.mpr hb
    rcases List.suffix_cons_iff.mp hs with he | hs
    · exact absurd (List.cons.inj he).left hne
    · exact ih hb hs

theorem hasNoSlot_or (cs : List Char) : HasNoSlot cs ∨ ∃ before name rest,
    cs = before ++ '{' :: (name ++ '}' :: rest) ∧ '{' ∉ before ∧ '}' ∉ name := by
  by_cases ho : '{' ∈ cs
  case neg => exact .inl <| hasNoSlot_of_not_mem ho
  case pos =>
    obtain ⟨before, after, rfl, hb⟩ := List.eq_append_cons_of_mem ho
    by_cases hc : '}' ∈ after
    case neg => exact .inl <| hasNoSlot_append hb hc
    case pos =>
      obtain ⟨name, rest, rfl, hn⟩ := List.eq_append_cons_of_mem hc
      exact .inr ⟨before, name, rest, rfl, hb, hn⟩

theorem ofChars_eq (cs : List Char) : ofChars cs = match cs.dropWhile (· != '{') with
    | []         => ofText cs
    | _ :: inner => match inner.dropWhile (· != '}') with
      | []        => ofText cs
      | _ :: rest => ofText (cs.takeWhile (· != '{')) ++
        .parameter (.ofList <| inner.takeWhile (· != '}')) :: ofChars rest := by
  rw [ofChars]
  split
  case h_1 ho => simp only [ho]
  case h_2 ho =>
    simp only [ho]
    split
    case h_1 hc => simp only [hc]
    case h_2 hc => simp only [hc]

theorem ofChars_of_hasNoSlot (h : HasNoSlot cs) : ofChars cs = ofText cs := by
  rw [ofChars_eq]
  by_cases ho : '{' ∈ cs
  case neg => rw [dropWhile_of_not_mem ho]
  case pos =>
    obtain ⟨before, after, rfl, hb⟩ := List.eq_append_cons_of_mem ho
    simp only [dropWhile_append_mark hb, dropWhile_of_not_mem <| h after <| List.suffix_append _ _]

theorem ofChars_slot (hb : '{' ∉ before) (hn : '}' ∉ name) :
    ofChars (before ++ '{' :: (name ++ '}' :: rest)) =
      ofText before ++ .parameter (.ofList name) :: ofChars rest := by
  rw [ofChars_eq]
  simp only [dropWhile_append_mark hb, dropWhile_append_mark hn, takeWhile_append_mark hb,
    takeWhile_append_mark hn]

-- The scan ends, since what it has not passed gets shorter with each slot.
theorem exists_splits (cs : List Char) : ∃ parts, Splits cs parts := by
  rcases hasNoSlot_or cs with h | ⟨before, name, rest, rfl, hb, hn⟩
  · exact ⟨_, .done h⟩
  · obtain ⟨parts, h⟩ := exists_splits rest
    exact ⟨_, .slot hb hn h⟩
termination_by cs.length

theorem splits_iff : Splits cs parts ↔ parts = ofChars cs := by
  have he : ∀ {cs parts}, Splits cs parts → parts = ofChars cs := by
    intro cs parts h
    induction h
    case done h           => exact (ofChars_of_hasNoSlot h).symm
    case slot hb hn _ ih => rw [ofChars_slot hb hn, ih]
  refine ⟨he, ?_⟩
  rintro rfl
  obtain ⟨parts, h⟩ := exists_splits cs
  exact he h ▸ h

theorem join_text_ofText : String.join ((ofText cs).map text) = .ofList cs := by
  rw [ofText]
  split
  case isTrue h => simp [List.isEmpty_iff.mp h]
  case isFalse => simp [text]

theorem Splits.join_text (h : Splits cs parts) : String.join (parts.map text) = .ofList cs := by
  induction h
  case done => exact join_text_ofText
  case slot before name rest parts _ _ _ ih =>
    rw [List.map_append, String.join_append, join_text_ofText, List.map_cons, String.join_cons, ih]
    simp [text, String.ofList_append, String.append_assoc]

theorem isCanonical_ofText (h : HasNoSlot cs) : IsCanonical (ofText cs) := by
  rw [ofText]
  split
  case isTrue      => exact ⟨nofun, .nil⟩
  case isFalse hcs =>
    refine ⟨List.forall_mem_singleton.mpr ⟨?_, ?_⟩, .singleton _⟩
    · simpa using hcs
    · rwa [String.toList_ofList]

theorem IsCanonical.slot (h : IsCanonical parts) (hb : '{' ∉ before) (hn : '}' ∉ name) :
    IsCanonical (ofText before ++ .parameter (.ofList name) :: parts) := by
  have ht := isCanonical_ofText <| hasNoSlot_of_not_mem hb
  have hp : IsProper (.parameter (.ofList name)) := by
    rwa [IsProper, String.toList_ofList]
  constructor
  case proper =>
    exact List.forall_mem_append.mpr ⟨ht.proper, List.forall_mem_cons.mpr ⟨hp, h.proper⟩⟩
  case apart =>
    refine ht.apart.append (List.isChain_cons.mpr ⟨?_, h.apart⟩) ?_ <;> simp [isLiteral]

theorem Splits.isCanonical (h : Splits cs parts) : IsCanonical parts := by
  induction h
  case done h           => exact isCanonical_ofText h
  case slot hb hn _ ih => exact ih.slot hb hn

-- The parts of a url are the url again, they are canonical, and the scan ends with them and no others.
theorem isCanonical_ofUrl (url : String) :
    String.join ((ofUrl url).map text) = url ∧ IsCanonical (ofUrl url) ∧
      ∀ parts, Splits url.toList parts ↔ parts = ofUrl url := by
  have h : Splits url.toList (ofUrl url) := splits_iff.mpr rfl
  exact ⟨by rw [h.join_text, String.ofList_toList], h.isCanonical, fun _ => splits_iff⟩

end Classwright.Swagger.UrlPart
