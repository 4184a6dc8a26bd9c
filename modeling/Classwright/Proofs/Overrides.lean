import Classwright.Settings.Config
import Mathlib.Data.List.Forall2
import Mathlib.Data.List.Nodup

namespace Classwright

theorem Language.mem_all (l : Language) : l ∈ all := by
  cases l <;> decide

theorem Language.nodup_all : all.Nodup := by
  decide

namespace Settings

-- The first settings of their language.
def IsFirst (configured : List LanguageSettings) (s : LanguageSettings) : Prop :=
  ∃ before after, configured = before ++ s :: after ∧ ∀ t ∈ before, t.language ≠ s.language

-- The settings of a language that the command line names: its first ones, enabled, or the standard ones.
inductive IsChosen (configured : List LanguageSettings) : Language → LanguageSettings → Prop
  | first {s} : IsFirst configured s → IsChosen configured s.language { s with enabled := true }
  | standard {l} : (∀ s ∈ configured, s.language ≠ l) →
    IsChosen configured l { LanguageSettings.standard l with enabled := true }

theorem IsChosen.language_eq {configured : List LanguageSettings} {l : Language}
    {s : LanguageSettings} (h : IsChosen configured l s) : s.language = l := by
  cases h <;> rfl

-- The languages of a run with their settings: those that are named, or those that are configured, or all.
inductive IsSelected (configured : List LanguageSettings) :
    List Language → List LanguageSettings → Prop
  | named {named selected} : named ≠ [] → List.Forall₂ (IsChosen configured) named selected →
    IsSelected configured named selected
  | configured : configured ≠ [] → IsSelected configured [] configured
  | all : configured = [] → IsSelected configured [] (Language.all.map .standard)

structure IsOverridden (c : Config) (o : Overrides) (r : Config) : Prop where
  version   : r.version = c.version
  hooks     : r.hooks = c.hooks
  input     : r.input = if o.input.isSome then o.input else c.input
  output    : r.output = if o.output.isSome then o.output else c.output
  languages : IsSelected c.languages o.languages r.languages

namespace Config

variable {configured : List LanguageSettings} {named : List Language} {l : Language}

theorem isChosen_chosen (configured : List LanguageSettings) (l : Language) :
    IsChosen configured l (chosen configured l) := by
  rw [chosen]
  cases h : configured.find? (·.language == l)
  case none =>
    refine .standard fun s hs => ?_
    simpa using List.find?_eq_none.mp h s hs
  case some s =>
    obtain ⟨hl, before, after, rfl, hb⟩ := List.find?_eq_some_iff_append.mp h
    cases beq_iff_eq.mp hl
    exact .first ⟨before, after, rfl, fun t ht => by simpa using hb t ht⟩

theorem language_chosen (configured : List LanguageSettings) (l : Language) :
    (chosen configured l).language = l :=
  (isChosen_chosen configured l).language_eq

theorem isSelected_chosenLanguages (configured : List LanguageSettings) (named : List Language) :
    IsSelected configured named (chosenLanguages configured named) := by
  rw [chosenLanguages]
  cases named
  case cons l named =>
    refine .named (List.cons_ne_nil _ _) ?_
    exact List.forall₂_map_right_iff.mpr <| List.forall₂_same.mpr fun l _ => isChosen_chosen _ l
  case nil =>
    cases configured
    case nil  => exact .all rfl
    case cons => exact .configured <| List.cons_ne_nil _ _

-- A language that is named is found with what it was chosen with, however often it is named.
theorem chosen_map_chosen (h : l ∈ named) :
    chosen (named.map (chosen configured)) l = chosen configured l := by
  have hf : (named.map (chosen configured)).find? (·.language == l) = some (chosen configured l) := by
    obtain ⟨s, hs⟩ : ∃ s, (named.map (chosen configured)).find? (·.language == l) = some s :=
      Option.isSome_iff_exists.mp <| List.find?_isSome.mpr
        ⟨_, List.mem_map_of_mem h, by simp [language_chosen]⟩
    obtain ⟨l', _, rfl⟩ := List.mem_map.mp <| List.mem_of_find?_eq_some hs
    have hl : l' = l := by simpa [language_chosen] using List.find?_some hs
    rw [hs, hl]
  rw [chosen, hf]
  rfl

theorem chosenLanguages_chosenLanguages :
    chosenLanguages (chosenLanguages configured named) named = chosenLanguages configured named := by
  cases named
  case cons l named => exact List.map_congr_left fun _ hl => chosen_map_chosen hl
  case nil          => cases configured <;> rfl

-- The command line decides on the languages and on the paths that it names, and nothing is left for it to
-- decide a second time.
theorem isOverridden_override (c : Config) (o : Overrides) :
    IsOverridden c o (c.override o) ∧ (c.override o).override o = c.override o ∧
      Language.all.Nodup ∧ ∀ l : Language, l ∈ Language.all := by
  refine ⟨⟨rfl, rfl, ?_, ?_, isSelected_chosenLanguages c.languages o.languages⟩, ?_,
    Language.nodup_all, Language.mem_all⟩
  case refine_1 => cases h : o.input <;> simp [override, h]
  case refine_2 => cases h : o.output <;> simp [override, h]
  case refine_3 =>
    simp only [override, ← Option.or_assoc, Option.or_self, chosenLanguages_chosenLanguages]

-- Kotlin is configured twice, but not enabled, and named twice.
example :
    let kotlin := { LanguageSettings.standard .kotlin with enabled := false }
    let model := ClassSettings.standard .kotlin .model
    chosenLanguages [.standard .java, { kotlin with model := some model }, kotlin]
        [.kotlin, .python, .kotlin] =
      [⟨.kotlin, true, some model, none, none⟩, .standard .python,
        ⟨.kotlin, true, some model, none, none⟩] := by
  decide

end Config

end Settings

end Classwright
