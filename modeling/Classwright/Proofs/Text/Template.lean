import Classwright.Text.Template
import Mathlib.Data.List.Infix
import Mathlib.Data.List.TakeWhile

namespace Classwright

namespace Text

variable {mark : Char} {cs ds : List Char}

theorem takeWhile_append_mark (h : mark ∉ cs) : (cs ++ mark :: ds).takeWhile (· != mark) = cs := by
  have hp : ∀ c ∈ cs, c != mark := fun c hc => bne_iff_ne.mpr fun he => h (he ▸ hc)
  simp [List.takeWhile_append_of_pos hp]

theorem dropWhile_append_mark (h : mark ∉ cs) :
    (cs ++ mark :: ds).dropWhile (· != mark) = mark :: ds := by
  have hp : ∀ c ∈ cs, c != mark := fun c hc => bne_iff_ne.mpr fun he => h (he ▸ hc)
  simp [List.dropWhile_append_of_pos hp]

theorem takeWhile_of_not_mem (h : mark ∉ cs) : cs.takeWhile (· != mark) = cs :=
  List.takeWhile_eq_self_iff.mpr fun _ hc => bne_iff_ne.mpr fun he => h (he ▸ hc)

theorem dropWhile_of_not_mem (h : mark ∉ cs) : cs.dropWhile (· != mark) = [] :=
  List.dropWhile_eq_nil_iff.mpr fun _ hc => bne_iff_ne.mpr fun he => h (he ▸ hc)

end Text

namespace Template

open Text

-- The nearest closing brace ends no name that a value is given for.
def StartsNoSlot (slots : Slots) (cs : List Char) : Prop :=
  ∀ name rest, cs = name ++ '}' :: rest → '}' ∉ name → slots.lookup (.ofList name) = none

-- The scan of a template, with what it writes for the characters that it has not passed yet.
inductive Fills (slots : Slots) : List Char → List Char → Prop
  | done {cs} : '{' ∉ cs → Fills slots cs cs
  | slot {before name value rest out} : '{' ∉ before → '}' ∉ name →
      slots.lookup (.ofList name) = some value → Fills slots rest out →
      Fills slots (before ++ '{' :: (name ++ '}' :: rest)) (before ++ (value.toList ++ out))
  | brace {before rest out} : '{' ∉ before → StartsNoSlot slots rest → Fills slots rest out →
      Fills slots (before ++ '{' :: rest) (before ++ '{' :: out)

-- Behind each opening brace there is a closing one.
def ClosesBraces (cs : List Char) : Prop :=
  ∀ after, '{' :: after <:+ cs → '}' ∈ after

variable {slots : Slots} {cs ds before name rest out : List Char} {key value template : String}
  {skip : Nat}

theorem slot?_append (hn : '}' ∉ name) : slot? slots (name ++ '}' :: rest) =
    (slots.lookup (.ofList name)).map fun value => (name.length + 1, value.toList) := by
  rw [slot?, takeWhile_append_mark hn, if_pos <| by simp]

theorem slot?_eq_none (h : StartsNoSlot slots cs) : slot? slots cs = none := by
  by_cases hc : '}' ∈ cs
  case pos =>
    obtain ⟨name, rest, rfl, hn⟩ := List.eq_append_cons_of_mem hc
    rw [slot?_append hn, h name rest rfl hn, Option.map_none]
  case neg => rw [slot?, takeWhile_of_not_mem hc, if_neg <| Nat.lt_irrefl _]

theorem startsNoSlot_or (slots : Slots) (cs : List Char) : StartsNoSlot slots cs ∨
    ∃ name value rest, cs = name ++ '}' :: rest ∧ '}' ∉ name ∧
      slots.lookup (.ofList name) = some value := by
  refine or_iff_not_imp_left.mpr fun h => ?_
  simp only [StartsNoSlot, not_forall] at h
  obtain ⟨name, rest, hs, hn, hv⟩ := h
  obtain ⟨value, hv⟩ := Option.ne_none_iff_exists'.mp hv
  exact ⟨name, value, rest, hs, hn, hv⟩

theorem StartsNoSlot.append (h : StartsNoSlot slots cs) (hc : '}' ∈ cs) :
    StartsNoSlot slots (cs ++ ds) := by
  intro name rest hs hn
  obtain ⟨name', rest', rfl, hn'⟩ := List.eq_append_cons_of_mem hc
  have he : name' = name := by
    simpa [takeWhile_append_mark, hn, hn'] using congrArg (List.takeWhile (· != '}')) hs
  exact he ▸ h name' rest' rfl hn'

theorem fillChars_eq_drop : fillChars slots skip cs = fillChars slots 0 (cs.drop skip) := by
  induction skip generalizing cs <;> cases cs
  case succ.cons ih _ _ => exact ih
  all_goals rfl

theorem fillChars_append_of_not_mem (h : '{' ∉ before) :
    fillChars slots 0 (before ++ cs) = before ++ fillChars slots 0 cs := by
  induction before
  case nil => rfl
  case cons c before ih =>
    have ⟨hc, hb⟩ := not_or.mp <| mt List.mem_cons.mpr h
    rw [List.cons_append, fillChars, if_neg <| by simpa using Ne.symm hc, ih hb, List.cons_append]

theorem fillChars_of_not_mem (h : '{' ∉ cs) : fillChars slots 0 cs = cs := by
  have hf : fillChars slots 0 (cs ++ []) = cs ++ fillChars slots 0 [] := fillChars_append_of_not_mem h
  simpa [fillChars] using hf

theorem fill_of_not_mem (h : '{' ∉ template.toList) : fill template slots = template := by
  rw [fill, fillChars_of_not_mem h, String.ofList_toList]

theorem fillChars_slot (hn : '}' ∉ name) (hv : slots.lookup (.ofList name) = some value) :
    fillChars slots 0 ('{' :: (name ++ '}' :: rest)) = value.toList ++ fillChars slots 0 rest := by
  have hd : (name ++ '}' :: rest).drop (name.length + 1) = rest := by simp
  simp only [fillChars, beq_self_eq_true, if_true, slot?_append hn, hv, Option.map_some]
  rw [fillChars_eq_drop, hd]

theorem fillChars_brace (h : StartsNoSlot slots cs) :
    fillChars slots 0 ('{' :: cs) = '{' :: fillChars slots 0 cs := by
  simp only [fillChars, beq_self_eq_true, if_true, slot?_eq_none h]

-- The scan ends, since what it has not passed gets shorter with each brace.
theorem exists_fills (slots : Slots) (cs : List Char) : ∃ out, Fills slots cs out := by
  by_cases ho : '{' ∈ cs
  case neg => exact ⟨cs, .done ho⟩
  case pos =>
    obtain ⟨before, rest, rfl, hb⟩ := List.eq_append_cons_of_mem ho
    rcases startsNoSlot_or slots rest with hs | ⟨name, value, rest, rfl, hn, hv⟩
    · obtain ⟨out, h⟩ := exists_fills slots rest
      exact ⟨_, .brace hb hs h⟩
    · obtain ⟨out, h⟩ := exists_fills slots rest
      exact ⟨_, .slot hb hn hv h⟩
termination_by cs.length

theorem Fills.eq_fillChars (h : Fills slots cs out) : out = fillChars slots 0 cs := by
  induction h
  case done h            => exact (fillChars_of_not_mem h).symm
  case slot hb hn hv _ ih => rw [fillChars_append_of_not_mem hb, fillChars_slot hn hv, ih]
  case brace hb hs _ ih  => rw [fillChars_append_of_not_mem hb, fillChars_brace hs, ih]

theorem fills_iff : Fills slots cs out ↔ out = fillChars slots 0 cs := by
  refine ⟨Fills.eq_fillChars, ?_⟩
  rintro rfl
  obtain ⟨out, h⟩ := exists_fills slots cs
  exact h.eq_fillChars ▸ h

theorem closesBraces_iff :
    ClosesBraces cs ↔ ∀ xs ∈ cs.tails, xs.head? = some '{' → '}' ∈ xs := by
  simp only [ClosesBraces, List.mem_tails]
  constructor
  · intro h xs hs hx
    obtain ⟨after, rfl⟩ := List.head?_eq_some_iff.mp hx
    exact List.mem_cons_of_mem _ <| h after hs
  · intro h after hs
    simpa using h _ hs rfl

instance : Decidable (ClosesBraces cs) :=
  decidable_of_iff _ closesBraces_iff.symm

theorem ClosesBraces.of_suffix (h : ClosesBraces ds) (hs : cs <:+ ds) : ClosesBraces cs :=
  fun after ha => h after <| ha.trans hs

-- The induction is on the scan of the first piece. It goes on as before in the second one, since each
-- slot that starts in the first piece ends there.
theorem Fills.fillChars_append (h : Fills slots cs out) (hc : ClosesBraces cs) :
    fillChars slots 0 (cs ++ ds) = out ++ fillChars slots 0 ds := by
  induction h
  case done h => exact fillChars_append_of_not_mem h
  case slot before name _ rest _ hb hn hv _ ih =>
    have hr : ClosesBraces rest := hc.of_suffix ⟨before ++ '{' :: (name ++ ['}']), by simp⟩
    simp only [List.append_assoc, List.cons_append]
    rw [fillChars_append_of_not_mem hb, fillChars_slot hn hv, ih hr]
  case brace before rest _ hb hs _ ih =>
    have hr : ClosesBraces rest := hc.of_suffix ⟨before ++ ['{'], by simp⟩
    simp only [List.append_assoc, List.cons_append]
    rw [fillChars_append_of_not_mem hb, fillChars_brace <| hs.append <| hc rest <| List.suffix_append _ _, ih hr]

-- The name of a slot that is filled is one of the names given.
theorem Fills.eq_of_forall_not_infix (h : Fills slots cs out)
    (hk : ∀ key ∈ slots.map Prod.fst, ¬('{' :: (key.toList ++ ['}'])) <:+: cs) : out = cs := by
  induction h
  case done => rfl
  case slot before name value rest _ _ _ hv _ _ =>
    obtain ⟨_, _, rfl, _⟩ := List.lookup_eq_some_iff.mp hv
    refine absurd ⟨before, rest, ?_⟩ <| hk (.ofList name) (by simp)
    simp
  case brace before rest _ _ _ _ ih =>
    rw [ih fun key hm hi => hk key hm <| hi.trans ?_]
    exact (List.suffix_append_of_suffix <| List.suffix_cons _ _).isInfix

theorem exists_lookup (h : key ∈ slots.map Prod.fst) : ∃ value, slots.lookup key = some value := by
  obtain ⟨slot, hs, rfl⟩ := List.mem_map.mp h
  refine Option.ne_none_iff_exists'.mp fun hn => ?_
  simpa using List.lookup_eq_none_iff.mp hn slot hs

theorem fill_slot (hn : '}' ∉ key.toList) (hv : slots.lookup key = some value) :
    fill ("\x7b" ++ key ++ "\x7d") slots = value := by
  have ht : ("\x7b" ++ key ++ "\x7d").toList = '{' :: (key.toList ++ ['}']) := by
    simp [String.toList_append]
  rw [fill, ht, fillChars_slot hn <| by rwa [String.ofList_toList], fillChars, List.append_nil,
    String.ofList_toList]

-- A substitution of values for slots in one pass. What a slot gets is the first value of its name, with
-- its own slots left in it.
structure IsSubstitution (slots : Slots) (f : String → String) : Prop where
  ends   : ∀ t out, Fills slots t.toList out ↔ out = (f t).toList
  append : ∀ s t, ClosesBraces s.toList → f (s ++ t) = f s ++ f t
  slot   : ∀ key ∈ slots.map Prod.fst, '}' ∉ key.toList →
    slots.lookup key = some (f ("\x7b" ++ key ++ "\x7d"))
  self   : ∀ t, (∀ key ∈ slots.map Prod.fst, ¬('{' :: (key.toList ++ ['}'])) <:+: t.toList) →
    f t = t

theorem isSubstitution_fill (slots : Slots) : IsSubstitution slots (fill · slots) where
  ends t out := by rw [fill, String.toList_ofList, fills_iff]
  append s t h := by
    have hs : Fills slots s.toList (fillChars slots 0 s.toList) := fills_iff.mpr rfl
    rw [fill, String.toList_append, hs.fillChars_append h, String.ofList_append, fill, fill]
  slot key hk hn := by
    obtain ⟨value, hv⟩ := exists_lookup hk
    rw [fill_slot hn hv, hv]
  self t h := by
    have ht : Fills slots t.toList (fillChars slots 0 t.toList) := fills_iff.mpr rfl
    rw [fill, ht.eq_of_forall_not_infix h, String.ofList_toList]

-- The second of the values for the items is never used, and the row stays in its braces.
def rowSlots : Slots := [("items", "rows"), ("expr", "read({items})"), ("items", "none")]

theorem isSubstitution_rows : ClosesBraces "{items}.map ".toList ∧
    fill ("{items}.map " ++ "\x7b {expr} \x7d") rowSlots =
      fill "{items}.map " rowSlots ++ fill "\x7b {expr} \x7d" rowSlots ∧
    rowSlots.lookup "items" = some (fill ("\x7b" ++ "items" ++ "\x7d") rowSlots) ∧
    fill "\x7b row \x7d" rowSlots = "\x7b row \x7d" := by
  have h := isSubstitution_fill rowSlots
  have hc : ClosesBraces "{items}.map ".toList := by decide
  have he : ∀ key ∈ rowSlots.map Prod.fst, 'e' ∈ '{' :: (key.toList ++ ['}']) := by decide
  have hr : 'e' ∉ "\x7b row \x7d".toList := by decide
  exact ⟨hc, h.append _ _ hc, h.slot "items" (by decide) (by decide),
    h.self _ fun key hk hi => hr <| hi.subset <| he key hk⟩

end Template

end Classwright
