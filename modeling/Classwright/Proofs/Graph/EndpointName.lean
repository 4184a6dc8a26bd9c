import Classwright.Graph.Endpoint
import Classwright.Proofs.Schema.Name
import Mathlib.Data.Nat.Find

namespace Classwright

open Schema Swagger

theorem Text.not_mem_of_mem_splitOnChar {c : Char} {cs part : List Char}
    (h : part ∈ splitOnChar c cs) : c ∉ part := by
  induction cs generalizing part
  case nil => simp_all [splitOnChar]
  case cons x xs ih =>
    rw [splitOnChar] at h
    split at h
    case isTrue =>
      cases h
      case head   => simp
      case tail h => exact ih h
    case isFalse hx =>
      have hx : c ≠ x := fun he => hx <| beq_iff_eq.mpr he.symm
      split at h
      case h_1 first rest hs =>
        cases h
        case head   => simpa [hx] using ih <| hs ▸ List.mem_cons_self
        case tail h => exact ih <| hs ▸ List.mem_cons_of_mem _ h
      case h_2 => simpa [List.mem_singleton.mp h] using hx

theorem Naming.not_mem_pascalChars {cs : List Char} {start : Bool} (h : '/' ∉ cs) :
    '/' ∉ pascalChars start cs := by
  induction cs generalizing start
  case nil => simp [pascalChars]
  case cons c cs ih =>
    have ⟨hc, hcs⟩ := not_or.mp <| mt List.mem_cons.mpr h
    have hu : '/' ∉ Text.upper c := fun hu => hc (Text.eq_slash_of_mem_upper hu).symm
    rw [pascalChars]
    split <;> try split
    all_goals simp [hu, hc, ih hcs]

theorem Naming.not_mem_capitalizeChars {cs : List Char} (h : '/' ∉ cs) :
    '/' ∉ capitalizeChars cs := by
  have hp := PlainName.capitalize (n := .ofList cs) <| by simpa [PlainName] using h
  simpa [PlainName, capitalize] using hp

namespace Endpoint

variable {used : List String} {operations : List Operation}

theorem not_mem_urlWords {index : Nat} {seen : Bool} {segments : List (List Char)}
    (h : ∀ s ∈ segments, '/' ∉ s) : '/' ∉ urlWords index seen segments := by
  induction segments generalizing index seen
  case nil => simp [urlWords]
  case cons s rest ih =>
    have ⟨hs, hr⟩ := List.forall_mem_cons.mp h
    rw [urlWords]
    split
    case isTrue => exact ih hr
    case isFalse =>
      split
      case h_1 slot hn =>
        have hm : '/' ∉ slot := by
          cases s
          case nil => simp [slotName?] at hn
          case cons c cs =>
            simp only [slotName?, Option.ite_none_right_eq_some, Option.some.injEq] at hn
            exact hn.right ▸ fun hm => hs <| List.mem_cons_of_mem _ <| List.dropLast_subset _ hm
        have hc := Naming.not_mem_capitalizeChars hm
        have hi : '/' ∉ urlWords (index + 1) true rest := ih hr
        simp only [List.mem_append, hc, hi, or_false]
        split <;> try split
        all_goals decide
      case h_2 =>
        split
        case isTrue  => exact ih hr
        case isFalse => simp [Naming.not_mem_pascalChars hs, ih hr]

theorem plainName_nameOf {url ending : String} {method : HttpMethod} (h : PlainName ending) :
    PlainName (nameOf url method ending) := by
  have hw : ∀ m : HttpMethod, PlainName m.word := by intro m; cases m <;> decide
  have hu : '/' ∉ urlWords 0 false (Text.splitOnChar '/' url.toList) :=
    not_mem_urlWords fun _ => Text.not_mem_of_mem_splitOnChar
  exact (hw method).append (by simpa [PlainName] using hu) |>.append h

-- The first counter from two that makes a free name.
structure IsFirstFree (used : List String) (name : String) (n : Nat) : Prop where
  two_le  : 2 ≤ n
  free    : name ++ toString n ∉ used
  minimal : ∀ m, 2 ≤ m → m < n → name ++ toString m ∈ used

-- What becomes of an operation's own name behind those that are used.
def IsNamedAfter (used : List String) (own name : String) : Prop :=
  own ∉ used ∧ name = own ∨ own ∈ used ∧ ∃ n, IsFirstFree used own n ∧ name = own ++ toString n

theorem exists_isFirstFree (used : List String) (name : String) :
    ∃ n ≤ used.length + 2, IsFirstFree used name n ∧
      ((List.range (used.length + 1)).map fun n => name ++ toString (n + 2)).find?
        (!used.contains ·) = some (name ++ toString n) := by
  have hi : (fun n : Nat => name ++ toString (n + 2)).Injective := by
    intro j k h
    have := append_toString_injective name h
    omega
  have he := exists_lt_not_mem hi used
  obtain ⟨hl, hf⟩ := Nat.find_spec he
  refine ⟨Nat.find he + 2, by omega, ⟨by omega, hf, fun m hm hmn => ?_⟩, ?_⟩
  · have hn := Nat.find_min he (m := m - 2) (by omega)
    rw [Nat.sub_add_cancel hm] at hn
    by_contra hc
    exact hn ⟨by omega, hc⟩
  · rw [List.find?_map, Option.map_eq_some_iff]
    refine ⟨Nat.find he, ?_, rfl⟩
    rw [List.find?_range_eq_some]
    refine ⟨by simpa using hf, List.mem_range.mpr hl, fun m hm => ?_⟩
    have hn := Nat.find_min he hm
    have hu : name ++ toString (m + 2) ∈ used := by
      by_contra hc
      exact hn ⟨hm.trans hl, hc⟩
    simpa using hu

theorem isNamedAfter_freshName (used : List String) (name : String) :
    IsNamedAfter used name (freshName used name) := by
  rw [freshName]
  split
  case isFalse hc => exact .inl ⟨by simpa using hc, rfl⟩
  case isTrue hc =>
    obtain ⟨n, _, hn, hf⟩ := exists_isFirstFree used name
    exact .inr ⟨by simpa using hc, n, hn, by rw [hf, Option.getD_some]⟩

theorem plainName_freshName {name : String} (h : PlainName name) :
    PlainName (freshName used name) := by
  rcases isNamedAfter_freshName used name with ⟨_, he⟩ | ⟨_, n, _, he⟩
  · rwa [he]
  · rw [he]
    exact h.append <| .toString n

theorem freshName_not_mem {name : String} : freshName used name ∉ used := by
  rcases isNamedAfter_freshName used name with ⟨hn, he⟩ | ⟨_, n, hn, he⟩
  · rwa [he]
  · rw [he]
    exact hn.free

theorem plainName_of_mem_nameAll : ∀ o ∈ nameAll used operations, PlainName o.name := by
  intro o ho
  induction operations generalizing used
  case nil => contradiction
  case cons operation rest ih =>
    rw [nameAll] at ho
    cases ho
    case head    => exact plainName_freshName <| plainName_nameOf <| by decide
    case tail ho => exact ih ho

-- No two endpoints have the same name.
theorem nodup_nameAll : ((nameAll used operations).map (·.name)).Nodup ∧
    ∀ o ∈ nameAll used operations, o.name ∉ used := by
  induction operations generalizing used
  case nil => simp [nameAll]
  case cons operation rest ih =>
    obtain ⟨hn, hu⟩ := @ih <| freshName used (nameOf operation.url operation.method "") :: used
    rw [nameAll]
    refine ⟨List.nodup_cons.mpr ⟨fun hm => ?_, hn⟩, List.forall_mem_cons.mpr ⟨freshName_not_mem, ?_⟩⟩
    · obtain ⟨o, ho, he⟩ := List.mem_map.mp hm
      exact hu o ho <| he ▸ List.mem_cons_self
    · exact fun o ho hm => hu o ho <| List.mem_cons_of_mem _ hm

theorem forall_cons_eq_append_iff {α : Type} {P : List α → α → List α → Prop} {x : α}
    {xs : List α} :
    (∀ before y after, x :: xs = before ++ y :: after → P before y after) ↔
      P [] x xs ∧ ∀ before y after, xs = before ++ y :: after → P (x :: before) y after := by
  constructor
  · exact fun h => ⟨h [] x xs rfl, fun before y after he => h (x :: before) y after (he ▸ rfl)⟩
  · rintro ⟨h, hs⟩ before y after he
    cases before
    case nil =>
      obtain ⟨rfl, rfl⟩ := List.cons.inj he
      exact h
    case cons z before =>
      rw [List.cons_append, List.cons.injEq] at he
      obtain ⟨rfl, he⟩ := he
      exact hs before y after he

theorem IsNamedAfter.of_mem_iff {used' : List String} {own name : String}
    (hu : ∀ n, n ∈ used ↔ n ∈ used') (h : IsNamedAfter used own name) :
    IsNamedAfter used' own name := by
  rcases h with ⟨hn, he⟩ | ⟨hn, n, hf, he⟩
  · exact .inl ⟨mt (hu own).mpr hn, he⟩
  · refine .inr ⟨(hu own).mp hn, n, ⟨hf.two_le, mt (hu _).mpr hf.free, fun m hm hmn => ?_⟩, he⟩
    exact (hu _).mp <| hf.minimal m hm hmn

-- The names in use are those from the start and those given since, the latest one first.
theorem isNamedAfter_of_nameAll : ∀ before o after, nameAll used operations = before ++ o :: after →
    IsNamedAfter ((before.map (·.name)).reverse ++ used)
      (nameOf o.operation.url o.operation.method "") o.name := by
  induction operations generalizing used
  case nil => simp [nameAll]
  case cons operation rest ih =>
    rw [nameAll, forall_cons_eq_append_iff]
    refine ⟨isNamedAfter_freshName used _, fun before o after h => ?_⟩
    rw [List.map_cons, List.reverse_cons, List.append_assoc]
    exact ih before o after h

-- The endings that follow the name of an endpoint in that of a definition.
def endings : List String :=
  ["RequestParameters", "RequestBody", "SuccessResponse", "ErrorResponse"]

theorem plainName_of_mem_endings : ∀ e ∈ endings, PlainName e := by
  decide

-- A name and its ending can be told from each other, as no ending ends another one.
theorem append_ending_injective {m n e f : String} (he : e ∈ endings) (hf : f ∈ endings)
    (h : m ++ e = n ++ f) : m = n ∧ e = f := by
  have hd : ∀ e ∈ endings, ∀ f ∈ endings, e.toList <:+ f.toList → e = f := by decide
  have h := congrArg String.toList h
  simp only [String.toList_append] at h
  have hes := List.suffix_append m.toList e.toList
  have hfs := h ▸ List.suffix_append n.toList f.toList
  have hef : e = f := by
    rcases List.suffix_or_suffix_of_suffix hes hfs with hs | hs
    · exact hd e he f hf hs
    · exact (hd f hf e he hs).symm
  subst hef
  exact ⟨String.toList_inj.mp <| List.append_cancel_right h, rfl⟩

theorem map_operation_nameAll : (nameAll used operations).map (·.operation) = operations := by
  induction operations generalizing used
  case nil     => rfl
  case cons ih => simp [nameAll, ih]

theorem operation_mem_of_mem_nameAll {o : Named} (h : o ∈ nameAll used operations) :
    o.operation ∈ operations := by
  have hm : o.operation ∈ (nameAll used operations).map (·.operation) := List.mem_map_of_mem h
  rwa [map_operation_nameAll] at hm

end Endpoint
end Classwright
