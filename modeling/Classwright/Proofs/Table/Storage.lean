import Classwright.Classes.Table.Class
import Classwright.Proofs.Graph.Link

namespace Classwright

namespace Reported

variable {α β : Type} {x : Reported α} {f : α → Reported β} {w : Warning}

theorem result_bind : (x.bind f).result = x.result.bind fun a => (f a).result := by
  rw [Reported.bind]
  cases x.result <;> rfl

theorem mem_warnings_bind (h : w ∈ (x.bind f).warnings) :
    w ∈ x.warnings ∨ ∃ a, w ∈ (f a).warnings := by
  rw [Reported.bind] at h
  split at h
  case h_1 a _ => exact (List.mem_append.mp h).imp_right fun h => ⟨a, h⟩
  case h_2     => exact .inl h

end Reported

namespace Classes.Table

open Schema DefinitionGraph

-- The ways to store a property of `owner`, each with the conditions under which it is taken.
inductive StoredAs (g : DefinitionGraph) : String → Property → Storage → Prop
  | choice {owner p} : p.type.element.isEnum → ¬p.type.isArray →
    StoredAs g owner p (.scalar .string p.choices.isSome)
  | native {owner p primitive} : p.type.element.primitive? = some primitive →
    StoredAs g owner p (.scalar primitive false)
  | stringList {owner p} : StoredAs g owner p .stringList
  | flattened {owner p target parts} : g.get? p.type.element.name = some target →
    parts.map Prod.fst = target.properties →
    (∀ part ∈ parts, StoredAs g target.name part.fst part.snd) →
    StoredAs g owner p (.flattened target.name parts)
  | foreignKey {owner p target id} : g.get? p.type.element.name = some target → target.needsTable →
    StoredAs g owner p (.foreignKey target.name id)
  | idList {owner p target} : g.get? p.type.element.name = some target → target.needsTable →
    p.type.isArray → ¬carriesKeyOf target owner → StoredAs g owner p (.idList target.name)
  | navigation {owner p target} : g.get? p.type.element.name = some target → target.needsTable →
    carriesKeyOf target owner → StoredAs g owner p (.navigation target.name owner)
  | unsupported {owner p why} : StoredAs g owner p (.unsupported why)
  | unresolved {owner p error} : StoredAs g owner p (.unresolved error)

variable {g : DefinitionGraph} {depth : Nat} {owner : String} {p : Property} {target : Definition}
  {parts : List (Property × Storage)} {e : Error} {w : Warning}

theorem storedAs_tableStorage (hd : g.get? p.type.element.name = some target)
    (ht : target.needsTable) : StoredAs g owner p (tableStorage owner p target) := by
  rw [tableStorage]
  split
  case isTrue ha =>
    split
    case isTrue hc  => exact .navigation hd ht hc
    case isFalse hc => exact .idList hd ht ha hc
  case isFalse =>
    split
    case h_1 => exact .foreignKey hd ht
    case h_2 => exact .unsupported

theorem storedAs_storageOf : StoredAs g owner p (storageOf g depth owner p) := by
  fun_induction storageOf
  case case1       => exact .unsupported
  case case2 he ha => exact .choice he ha
  case case3 hp _  => exact .native hp
  case case4       => exact .stringList
  case case5       => exact .unsupported
  case case6       => exact .unresolved
  case case7 hd ht => exact storedAs_tableStorage hd ht
  case case8       => exact .unsupported
  case case9       => exact .unresolved
  case case10 target hd _ _ depth ih =>
    refine .flattened hd (by simp [Function.comp_def]) fun part hm => ?_
    obtain ⟨f, _, rfl⟩ := List.mem_map.mp hm
    exact ih f

mutual

-- What keeps a property from being stored.
def Storage.errors : Storage → List Error
  | .flattened _ parts => errorsOfParts parts
  | .unresolved error  => [error]
  | _                  => []

def errorsOfParts : List (Property × Storage) → List Error
  | []                   => []
  | (_, storage) :: rest => storage.errors ++ errorsOfParts rest

end

theorem errorsOfParts_eq_flatMap : errorsOfParts parts = parts.flatMap (·.snd.errors) := by
  induction parts
  case nil         => rfl
  case cons _ _ ih => simp [errorsOfParts, ih]

theorem errorsOfParts_storedParts {d : Definition} : errorsOfParts (storedParts g d) =
    d.properties.flatMap fun p => (storageOf g g.size d.name p).errors := by
  rw [errorsOfParts_eq_flatMap, storedParts, List.flatMap_map]

-- A survey reports the first error.
def firstOf : List Error → Except Error Unit
  | []         => .ok ()
  | error :: _ => .error error

theorem firstOf_append {es es' : List Error} :
    firstOf (es ++ es') = (firstOf es).bind fun _ => firstOf es' := by
  cases es <;> rfl

theorem firstOf_eq_ok_iff {es : List Error} : firstOf es = .ok () ↔ es = [] := by
  cases es <;> simp [firstOf]

theorem mem_of_firstOf_eq_error {es : List Error} (h : firstOf es = .error e) : e ∈ es := by
  cases es <;> simp_all [firstOf]

mutual

theorem result_survey (owner : String) (p : Property) :
    ∀ s : Storage, (survey owner p s).result = firstOf s.errors
  | .scalar _ _        => by simp only [survey]; split <;> rfl
  | .flattened _ parts => result_surveyParts _ parts
  | .stringList | .foreignKey .. | .idList _ | .navigation .. | .unsupported _ | .unresolved _ => rfl

theorem result_surveyParts (owner : String) :
    ∀ parts : List (Property × Storage),
      (surveyParts owner parts).result = firstOf (errorsOfParts parts)
  | []             => rfl
  | (p, s) :: rest => by
    rw [surveyParts, Reported.result_bind, errorsOfParts, firstOf_append, result_survey owner p s]
    simp only [result_surveyParts owner rest]

end

theorem exists_of_mem_warnings_surveyParts (h : w ∈ (surveyParts owner parts).warnings) :
    ∃ part ∈ parts, w ∈ (survey owner part.fst part.snd).warnings := by
  induction parts
  case nil => simp [surveyParts] at h
  case cons part parts ih =>
    rcases Reported.mem_warnings_bind h with h | ⟨_, h⟩
    · exact ⟨part, List.mem_cons_self, h⟩
    · obtain ⟨part', hm, h⟩ := ih h
      exact ⟨part', List.mem_cons_of_mem _ hm, h⟩

end Classes.Table

end Classwright
