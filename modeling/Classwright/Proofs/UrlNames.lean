import Classwright.Proofs.Containment
import Classwright.Proofs.Swagger.Url

namespace Classwright

open Swagger Text Naming

variable {c : Char} {cs ds name rest segment : List Char} {url : String} {method : HttpMethod}

-- The characters of identifiers, and those that urls have besides.
def isNameChar (c : Char) : Bool := c.isAlphanum || c == '_'

def isUrlChar (c : Char) : Bool := isNameChar c || ['/', '-', '.', '{', '}'].contains c

theorem isUrlChar_iff : isUrlChar c ↔
    (c.isAlphanum ∨ c = '_') ∨ c = '/' ∨ c = '-' ∨ c = '.' ∨ c = '{' ∨ c = '}' := by
  simp [isUrlChar, isNameChar]

theorem lt_of_isUrlChar (h : isUrlChar c) : c.toNat < 128 := by
  rcases isUrlChar_iff.mp h with (h | rfl) | rfl | rfl | rfl | rfl | rfl
  case inl.inl =>
    unfold Char.isAlphanum Char.isAlpha Char.isUpper Char.isLower Char.isDigit at h
    simp only [Bool.or_eq_true, Bool.and_eq_true, decide_eq_true_eq, UInt32.le_iff_toNat_le,
      ge_iff_le] at h
    have : c.toNat = c.val.toNat := rfl
    have : 'Z'.val.toNat = 90 := rfl
    have : 'z'.val.toNat = 122 := rfl
    have : '9'.val.toNat = 57 := rfl
    omega
  all_goals decide

theorem ascii_isNameChar : ∀ n < 128,
    (isNameChar (.ofNat n) → (upper (.ofNat n)).all isNameChar) ∧
      (¬isNameChar (.ofNat n) → upper (.ofNat n) = [.ofNat n]) := by
  decide

theorem isNameChar_of_mem_upper {x : Char} (h : isUrlChar c) (hn : isNameChar c)
    (hx : x ∈ upper c) : isNameChar x := by
  have ha := (ascii_isNameChar c.toNat (lt_of_isUrlChar h)).left
  rw [Char.ofNat_toNat] at ha
  exact List.all_eq_true.mp (ha hn) x hx

-- Only letters have another capital form.
theorem upper_of_not_isNameChar (h : isUrlChar c) (hn : ¬isNameChar c) : upper c = [c] := by
  have ha := (ascii_isNameChar c.toNat (lt_of_isUrlChar h)).right
  rw [Char.ofNat_toNat] at ha
  exact ha hn

-- A segment without braces, or one that is nothing but a slot.
inductive IsPure : List Char → Prop
  | literal {segment : List Char} : '{' ∉ segment → '}' ∉ segment → IsPure segment
  | slot {name : List Char} : (∀ c ∈ name, isNameChar c) → IsPure ('{' :: name ++ ['}'])

namespace Naming

variable {start : Bool}

-- Words keep all characters that neither part them nor have a capital form.
theorem mem_pascalChars (hs : ¬isSeparator c) (hu : upper c = [c]) (hc : c ∈ cs) :
    c ∈ pascalChars start cs := by
  induction cs generalizing start
  case nil => cases hc
  case cons d cs ih =>
    rw [pascalChars]
    cases hc
    case head    => split_ifs <;> simp [hu]
    case tail hc => split_ifs <;> simp [ih hc]

theorem isNameChar_of_mem_pascalChars
    (hcs : ∀ c ∈ cs, isUrlChar c ∧ (isNameChar c ∨ isSeparator c))
    (hc : c ∈ pascalChars start cs) : isNameChar c := by
  induction cs generalizing start
  case nil => cases hc
  case cons d cs ih =>
    have ⟨hd, hcs⟩ := List.forall_mem_cons.mp hcs
    rw [pascalChars] at hc
    split_ifs at hc with hs ht
    case pos => exact ih hcs hc
    all_goals have hn := hd.right.resolve_right hs
    case pos =>
      rcases List.mem_append.mp hc with hc | hc
      · exact isNameChar_of_mem_upper hd.left hn hc
      · exact ih hcs hc
    case neg =>
      rcases List.mem_cons.mp hc with rfl | hc
      · exact hn
      · exact ih hcs hc

-- Capitalizing a name changes no character that identifiers may not have.
theorem forall_mem_capitalizeChars_iff (hu : ∀ c ∈ name, isUrlChar c) :
    (∀ c ∈ capitalizeChars name, isNameChar c) ↔ ∀ c ∈ name, isNameChar c := by
  cases name
  case nil => simp [capitalizeChars]
  case cons c cs =>
    rw [capitalizeChars, List.forall_mem_append, List.forall_mem_cons]
    refine and_congr_left fun _ => ?_
    have hc := hu c List.mem_cons_self
    constructor
    · intro h
      by_contra hn
      exact hn <| h c <| by simp [upper_of_not_isNameChar hc hn]
    · exact fun h x hx => isNameChar_of_mem_upper hc h hx

theorem forall_mem_pascalChars_iff (hu : ∀ c ∈ segment, isUrlChar c ∧ c ≠ '/') :
    (∀ c ∈ pascalChars start segment, isNameChar c) ↔ '{' ∉ segment ∧ '}' ∉ segment := by
  constructor
  · intro h
    have hb : ∀ b, ¬isNameChar b ∧ ¬isSeparator b → b ∉ segment := fun b hb hm =>
      hb.left <| h b <| mem_pascalChars hb.right (upper_of_not_isNameChar (hu b hm).left hb.left) hm
    exact ⟨hb '{' (by decide), hb '}' (by decide)⟩
  · rintro ⟨ho, hc⟩ c hm
    refine isNameChar_of_mem_pascalChars (fun d hd => ⟨(hu d hd).left, ?_⟩) hm
    have hne : d ≠ '{' ∧ d ≠ '}' := ⟨fun h => ho (h ▸ hd), fun h => hc (h ▸ hd)⟩
    have := (hu d hd).right
    rcases isUrlChar_iff.mp (hu d hd).left with h | h | h | h | h | h
    all_goals simp_all [isNameChar, isSeparator]

end Naming

namespace Endpoint

variable {segments before after : List (List Char)} {index : Nat} {seen : Bool}

theorem slotName?_eq_some_iff : slotName? segment = some name ↔ segment = '{' :: name ++ ['}'] := by
  cases segment
  case nil => simp [slotName?]
  case cons c rest =>
    simp only [slotName?, Option.ite_none_right_eq_some, Bool.and_eq_true, beq_iff_eq,
      Option.some.injEq]
    constructor
    · rintro ⟨⟨rfl, hl⟩, rfl⟩
      rw [List.cons_append, List.dropLast_append_getLast? _ hl]
    · intro h
      rw [List.cons_append, List.cons.injEq] at h
      obtain ⟨rfl, rfl⟩ := h
      simp

theorem isPure_slot_iff : IsPure ('{' :: name ++ ['}']) ↔ ∀ c ∈ name, isNameChar c := by
  refine ⟨fun h => ?_, .slot⟩
  generalize hs : '{' :: name ++ ['}'] = segment at h
  cases h
  case literal ho _ => simp [← hs] at ho
  case slot name' hn =>
    have : name = name' := by simpa using hs
    exact this ▸ hn

theorem isPure_iff_of_slotName?_eq_none (h : slotName? segment = none) :
    IsPure segment ↔ '{' ∉ segment ∧ '}' ∉ segment := by
  refine ⟨fun hp => ?_, fun ⟨ho, hc⟩ => .literal ho hc⟩
  cases hp
  case literal ho hc => exact ⟨ho, hc⟩
  case slot name _   =>
    have hs := slotName?_eq_some_iff.mpr (Eq.refl ('{' :: name ++ ['}']))
    rw [h] at hs
    cases hs

-- A segment that is no slot is passed over if there is one before it and the next one starts with one.
def PassedOver (seen : Bool) (before : List (List Char)) (segment : List Char)
    (after : List (List Char)) : Prop :=
  slotName? segment = none ∧ (seen ∨ ∃ s ∈ before, (slotName? s).isSome) ∧ slotNext after

theorem passedOver_cons : PassedOver seen (segment :: before) name after ↔
    PassedOver (seen || (slotName? segment).isSome) before name after := by
  simp [PassedOver, or_assoc]

theorem isPure_or_passedOver_slot_iff (hn : slotName? segment = some name) :
    IsPure segment ∨ PassedOver seen before segment after ↔ ∀ c ∈ name, isNameChar c := by
  have hp : ¬PassedOver seen before segment after := fun h => by simp [PassedOver, hn] at h
  rw [or_iff_left hp, slotName?_eq_some_iff.mp hn, isPure_slot_iff]

-- Braces go into the words of a url with each segment that is not pure, unless it is passed over.
theorem forall_mem_urlWords_iff (hu : ∀ s ∈ segments, ∀ c ∈ s, isUrlChar c ∧ c ≠ '/') :
    (∀ c ∈ urlWords index seen segments, isNameChar c) ↔
      ∀ before segment after, segments = before ++ segment :: after →
        IsPure segment ∨ PassedOver seen before segment after := by
  induction segments generalizing index seen
  case nil => simp [urlWords]
  case cons s rest ih =>
    obtain ⟨hs, hr⟩ := List.forall_mem_cons.mp hu
    simp only [forall_cons_eq_append_iff, passedOver_cons]
    rw [urlWords]
    split
    case isTrue he =>
      have hs : s = [] := by simpa using he
      subst hs
      simp only [slotName?, Option.isSome_none, Bool.or_false, ih hr]
      exact (and_iff_right <| .inl <| .literal (by simp) (by simp)).symm
    case isFalse =>
      split
      case h_1 name hn =>
        have hw : ∀ c ∈ if seen then "And".toList else if 1 < index then "By".toList else [],
            isNameChar c := by
          refine List.all_eq_true.mp ?_
          split_ifs <;> rfl
        rw [List.append_assoc, List.forall_mem_append, and_iff_right hw, List.forall_mem_append,
          isPure_or_passedOver_slot_iff hn, ih hr, hn, Option.isSome_some, Bool.or_true,
          Naming.forall_mem_capitalizeChars_iff]
        rw [slotName?_eq_some_iff.mp hn] at hs
        exact fun c hc => (hs c <| by simp [hc]).left
      case h_2 hn =>
        rw [hn, Option.isSome_none, Bool.or_false]
        split
        case isTrue h =>
          have h : seen ∧ slotNext rest := by simpa using h
          rw [ih hr, and_iff_right (.inr ⟨hn, .inl h.left, h.right⟩)]
        case isFalse h =>
          have h : ¬PassedOver seen [] s rest := fun hp => h <| by simpa [PassedOver, hn] using hp
          rw [List.forall_mem_append, ih hr, Naming.forall_mem_pascalChars_iff hs, or_iff_left h,
            isPure_iff_of_slotName?_eq_none hn]

end Endpoint

-- The parts of a text, with the mark in front of each but the first, are the text.
theorem Text.eq_of_splitOnChar {mark : Char} {parts : List (List Char)}
    (h : splitOnChar mark cs = ds :: parts) : cs = ds ++ parts.flatMap (mark :: ·) := by
  induction cs generalizing ds parts
  case nil =>
    cases h
    rfl
  case cons c cs ih =>
    obtain ⟨first, rest, hs⟩ := List.exists_cons_of_ne_nil <| @splitOnChar_ne_nil mark cs
    rw [splitOnChar, hs] at h
    split at h
    case isTrue hc =>
      cases h
      rw [beq_iff_eq.mp hc, ih hs]
      rfl
    case isFalse =>
      cases h
      rw [ih hs]
      rfl

-- The names stand in a text one after the other, and none of them reaches into the next.
def OccurInOrder : List (List Char) → List Char → Prop
  | [], _            => True
  | name :: names, cs => ∃ before after, cs = before ++ name ++ after ∧ OccurInOrder names after

namespace OccurInOrder

variable {names : List (List Char)}

theorem append_left (h : OccurInOrder names cs) : OccurInOrder names (ds ++ cs) := by
  cases names
  case nil  => trivial
  case cons =>
    obtain ⟨before, after, rfl, h⟩ := h
    exact ⟨ds ++ before, after, by simp, h⟩

theorem mem (h : OccurInOrder names cs) (hn : name ∈ names) (hc : c ∈ name) : c ∈ cs := by
  induction names generalizing cs
  case nil => cases hn
  case cons =>
    obtain ⟨before, after, rfl, h⟩ := h
    cases hn
    case head => simp [hc]
    case tail ih hn => simp [ih h hn]

end OccurInOrder

namespace Endpoint

variable {segments : List (List Char)} {index : Nat} {seen : Bool}

-- The slots that are segments of their own are named in order.
theorem occurInOrder_urlWords : OccurInOrder ((segments.filterMap slotName?).map capitalizeChars)
    (urlWords index seen segments) := by
  induction segments generalizing index seen
  case nil => trivial
  case cons s rest ih =>
    rw [urlWords]
    split
    case isTrue he =>
      have hs : s = [] := by simpa using he
      subst hs
      exact ih
    case isFalse =>
      split
      case h_1 name hn =>
        rw [List.filterMap_cons_some hn, List.map_cons]
        exact ⟨_, _, rfl, ih⟩
      case h_2 hn =>
        rw [List.filterMap_cons_none hn]
        split
        case isTrue  => exact ih
        case isFalse => exact ih.append_left

end Endpoint

namespace Swagger.UrlPart

def name? : UrlPart → Option String
  | .literal _      => none
  | .parameter name => some name

-- The names of the parameters, in order.
def names (parts : List UrlPart) : List (List Char) := (parts.filterMap name?).map String.toList

@[simp] theorem names_ofText : names (ofText cs) = [] := by
  rw [ofText]
  split <;> rfl

theorem names_append {ps qs : List UrlPart} : names (ps ++ qs) = names ps ++ names qs := by
  simp [names]

theorem names_parameter {n : String} {ps : List UrlPart} :
    names (.parameter n :: ps) = n.toList :: names ps :=
  rfl

theorem names_ofChars : names (ofChars cs) = match cs.dropWhile (· != '{') with
    | []         => []
    | _ :: inner => match inner.dropWhile (· != '}') with
      | []        => []
      | _ :: rest => inner.takeWhile (· != '}') :: names (ofChars rest) := by
  rw [ofChars_eq]
  cases cs.dropWhile (· != '{')
  case nil => exact names_ofText
  case cons inner =>
    dsimp only
    cases inner.dropWhile (· != '}')
    case nil => exact names_ofText
    case cons =>
      dsimp only
      rw [names_append, names_ofText, names_parameter, String.toList_ofList]
      rfl

theorem names_ofChars_cons (hc : c ≠ '{') : names (ofChars (c :: cs)) = names (ofChars cs) := by
  rw [names_ofChars, List.dropWhile_cons_of_pos (by simpa using hc), ← names_ofChars]

theorem names_ofChars_append (hc : '{' ∉ ds) : names (ofChars (ds ++ cs)) = names (ofChars cs) := by
  induction ds
  case nil => rfl
  case cons c ds ih =>
    have ⟨hc, hds⟩ := not_or.mp <| mt List.mem_cons.mpr hc
    rw [List.cons_append, names_ofChars_cons (Ne.symm hc), ih hds]

theorem names_ofChars_slot (hn : '}' ∉ name) :
    names (ofChars ('{' :: name ++ '}' :: rest)) = name :: names (ofChars rest) := by
  have h : ofChars ([] ++ '{' :: (name ++ '}' :: rest)) =
      ofText [] ++ .parameter (.ofList name) :: ofChars rest :=
    ofChars_slot List.not_mem_nil hn
  rw [List.nil_append] at h
  rw [List.cons_append, h, names_append, names_ofText, names_parameter, String.toList_ofList]
  rfl

open Endpoint

variable {segments : List (List Char)}

theorem names_ofChars_of_isPure (h : IsPure segment) :
    names (ofChars (segment ++ rest)) = (slotName? segment).toList ++ names (ofChars rest) := by
  cases h
  case literal ho _ =>
    have hn : slotName? segment = none := Option.eq_none_iff_forall_ne_some.mpr fun name hn =>
      ho <| by simp [slotName?_eq_some_iff.mp hn]
    rw [hn, names_ofChars_append ho]
    rfl
  case slot name hn =>
    have hc : '}' ∉ name := fun hc => absurd (hn _ hc) (by decide)
    rw [slotName?_eq_some_iff.mpr rfl, List.append_assoc]
    exact names_ofChars_slot hc

theorem names_ofChars_flatMap (h : ∀ s ∈ segments, IsPure s) :
    names (ofChars (segments.flatMap ('/' :: ·))) = segments.filterMap slotName? := by
  induction segments
  case nil => simp [names_ofChars]
  case cons s rest ih =>
    have ⟨hs, hr⟩ := List.forall_mem_cons.mp h
    rw [List.flatMap_cons, List.cons_append, names_ofChars_cons (by decide),
      names_ofChars_of_isPure hs, ih hr, List.filterMap_cons]
    cases slotName? s <;> rfl

-- A url has the slots of its segments as parameters if these are pure.
theorem names_ofUrl (h : ∀ s ∈ splitOnChar '/' url.toList, IsPure s) :
    names (ofUrl url) = (splitOnChar '/' url.toList).filterMap slotName? := by
  obtain ⟨first, rest, hs⟩ := List.exists_cons_of_ne_nil <| @splitOnChar_ne_nil '/' url.toList
  rw [hs] at h ⊢
  have ⟨hf, hr⟩ := List.forall_mem_cons.mp h
  rw [ofUrl, eq_of_splitOnChar hs, names_ofChars_of_isPure hf, names_ofChars_flatMap hr,
    List.filterMap_cons]
  cases slotName? first <;> rfl

end Swagger.UrlPart

namespace Endpoint

-- Over the characters of urls, the name of an endpoint is an identifier exactly if all segments that it
-- is made of are pure. If all segments are, it has the names of all parameters, capitalized, in order.
theorem isIdentifier_nameOf_iff (url : String) (method : HttpMethod) :
    ((∀ c ∈ url.toList, isUrlChar c) →
      ((∀ c ∈ (nameOf url method "").toList, isNameChar c) ↔
        ∀ before segment after, splitOnChar '/' url.toList = before ++ segment :: after →
          IsPure segment ∨ PassedOver false before segment after)) ∧
    ((∀ s ∈ splitOnChar '/' url.toList, IsPure s) →
      OccurInOrder ((UrlPart.names (UrlPart.ofUrl url)).map capitalizeChars)
        (nameOf url method "").toList) := by
  have hn : (nameOf url method "").toList =
      method.word.toList ++ urlWords 0 false (splitOnChar '/' url.toList) := by
    simp [nameOf, String.toList_append]
  rw [hn]
  refine ⟨fun hu => ?_, fun hp => ?_⟩
  · have hm : ∀ c ∈ method.word.toList, isNameChar c := by
      refine List.all_eq_true.mp ?_
      cases method <;> rfl
    rw [List.forall_mem_append, and_iff_right hm, forall_mem_urlWords_iff]
    exact fun s hs c hc => ⟨hu c <| mem_of_mem_splitOnChar hs hc,
      fun h => not_mem_of_mem_splitOnChar hs (h ▸ hc)⟩
  · rw [UrlPart.names_ofUrl hp]
    exact occurInOrder_urlWords.append_left

def visitsUrl : String := "/pets/\x7bpetId\x7d/visits/\x7bvisitId\x7d"

theorem isPure_visitsUrl : ∀ s ∈ splitOnChar '/' visitsUrl.toList, IsPure s := by
  have hs : splitOnChar '/' visitsUrl.toList =
      [[], "pets".toList, "\x7bpetId\x7d".toList, "visits".toList, "\x7bvisitId\x7d".toList] :=
    rfl
  rw [hs]
  simp only [List.forall_mem_cons]
  exact ⟨.literal (by simp) (by simp), .literal (by decide) (by decide),
    @IsPure.slot "petId".toList <| List.all_eq_true.mp rfl, .literal (by decide) (by decide),
    @IsPure.slot "visitId".toList <| List.all_eq_true.mp rfl, nofun⟩

theorem isIdentifier_nameOf_visitsUrl : nameOf visitsUrl .get "" = "GetPetsByPetIdAndVisitId" ∧
    (∀ c ∈ (nameOf visitsUrl .get "").toList, isNameChar c) ∧
    OccurInOrder ["PetId".toList, "VisitId".toList] (nameOf visitsUrl .get "").toList := by
  have ⟨hi, ho⟩ := isIdentifier_nameOf_iff visitsUrl .get
  have hn : UrlPart.names (UrlPart.ofUrl visitsUrl) = ["petId".toList, "visitId".toList] := by
    with_unfolding_all rfl
  refine ⟨rfl, (hi <| List.all_eq_true.mp rfl).mpr ?_, ?_⟩
  · exact fun _ s _ h => .inl <| isPure_visitsUrl s <| by simp [h]
  · have ho := ho isPure_visitsUrl
    rw [hn] at ho
    exact ho

def filesUrl : String := "/files/\x7bname\x7d.\x7bext\x7d"

-- The name and the extension of a file are in one segment. The url is taken apart within segments, and
-- the name is not.
theorem not_isIdentifier_nameOf_filesUrl : (∀ c ∈ filesUrl.toList, isUrlChar c) ∧
    UrlPart.names (UrlPart.ofUrl filesUrl) = ["name".toList, "ext".toList] ∧
    ¬(∀ c ∈ (nameOf filesUrl .get "").toList, isNameChar c) ∧
    ¬OccurInOrder ["Name".toList, "Ext".toList] (nameOf filesUrl .get "").toList := by
  have hn : nameOf filesUrl .get "" = "GetFilesByName\x7d.\x7bext" := rfl
  have hp : UrlPart.names (UrlPart.ofUrl filesUrl) = ["name".toList, "ext".toList] := by
    with_unfolding_all rfl
  refine ⟨List.all_eq_true.mp rfl, hp, fun h => ?_, fun h => ?_⟩
  · exact absurd (h '.' <| by rw [hn]; decide) (by decide)
  · have hm : 'E' ∈ (nameOf filesUrl .get "").toList :=
      h.mem (List.mem_cons_of_mem _ List.mem_cons_self) (by decide)
    exact absurd (hn ▸ hm) (by decide)

end Endpoint

end Classwright
