import Classwright.Swagger.Operation
import Mathlib.Data.List.Nodup

namespace Classwright.Swagger

open Yaml

variable {p q : Parameter} {ps qs shared : List Parameter}

namespace Parameter

-- What parameters are told apart by.
def slot (p : Parameter) : String × Location :=
  (p.name, p.location)

-- The parameters that no later one of the same slot follows.
def lastOfEach : List Parameter → List Parameter
  | []      => []
  | p :: ps => if p.slot ∈ ps.map slot then lastOfEach ps else p :: lastOfEach ps

theorem sameSlot_iff : p.sameSlot q ↔ p.slot = q.slot := by
  simp [sameSlot, slot]

theorem lastOfEach_sublist : (lastOfEach ps).Sublist ps := by
  induction ps
  case nil => exact .slnil
  case cons p ps ih =>
    rw [lastOfEach]
    split
    case isTrue  => exact ih.cons p
    case isFalse => exact ih.cons_cons p

theorem nodup_slots_lastOfEach : ((lastOfEach ps).map slot).Nodup := by
  induction ps
  case nil => exact List.nodup_nil
  case cons p ps ih =>
    rw [lastOfEach]
    split
    case isTrue    => exact ih
    case isFalse h =>
      refine List.nodup_cons.mpr ⟨fun hm => h ?_, ih⟩
      exact (lastOfEach_sublist.map slot).subset hm

theorem override_eq : override qs p = qs.filter (·.slot ≠ p.slot) ++ [p] := by
  have h : ∀ q : Parameter, (!q.sameSlot p) = decide (q.slot ≠ p.slot) := by
    intro q
    rw [decide_not, Bool.not_inj_iff, Bool.eq_iff_iff, sameSlot_iff, decide_eq_true_iff]
  simp only [override, h]

-- The induction is on the parameters still to come. Each of them clears its slot in what is there, so
-- one that was put there itself stays if none of the rest has its slot.
theorem foldl_override : ps.foldl override qs =
    qs.filter (·.slot ∉ ps.map slot) ++ lastOfEach ps := by
  induction ps generalizing qs
  case nil => simp [lastOfEach]
  case cons p ps ih =>
    have hq : (qs.filter (·.slot ≠ p.slot)).filter (·.slot ∉ ps.map slot) =
        qs.filter (·.slot ∉ (p :: ps).map slot) := by
      rw [List.filter_filter]
      refine List.filter_congr fun q _ => ?_
      simp [Bool.and_comm]
    have hp : [p].filter (·.slot ∉ ps.map slot) ++ lastOfEach ps = lastOfEach (p :: ps) := by
      rw [lastOfEach]
      split <;> simp_all
    rw [List.foldl_cons, ih, override_eq, List.filter_append, List.append_assoc, hq, hp]

end Parameter

namespace Operation

open Parameter

-- The parameters of the path whose slots the operation does not list come first, and behind them the
-- last ones that the operation lists of each slot.
theorem parameters_ofValue (url : String) (method : HttpMethod) (shared : List Parameter)
    (value : Value) :
    (ofValue url method shared value).parameters =
        shared.filter (·.slot ∉ (listed value).map slot) ++ lastOfEach (listed value) ∧
      ((shared.map slot).Nodup → ((ofValue url method shared value).parameters.map slot).Nodup) := by
  have h : (ofValue url method shared value).parameters =
      shared.filter (·.slot ∉ (listed value).map slot) ++ lastOfEach (listed value) :=
    foldl_override
  refine ⟨h, fun hn => ?_⟩
  rw [h, List.map_append]
  refine List.nodup_append.mpr ⟨hn.sublist <| List.filter_sublist.map slot, nodup_slots_lastOfEach, ?_⟩
  intro a ha b hb hab
  obtain ⟨p, hp, rfl⟩ := List.mem_map.mp ha
  have hs : p.slot ∉ (listed value).map slot := by simpa using (List.mem_filter.mp hp).right
  exact hs <| hab ▸ (lastOfEach_sublist.map slot).subset hb

def parameterOf (name location : String) : Value :=
  .map [(.str "name", .str name), (.str "in", .str location)]

def listing (parameters : List Value) : Value :=
  .map [(.str "parameters", .seq parameters)]

def searchPath : Value :=
  listing [parameterOf "id" "path", parameterOf "limit" "query"]

-- The limit is listed twice, and a third time for another place; one parameter has no name.
def searchOperation : Value :=
  listing [parameterOf "limit" "query", parameterOf "limit" "header",
    .map [(.str "in", .str "query")], parameterOf "limit" "query"]

theorem parameters_search : ((listed searchPath).map slot).Nodup ∧
    (ofValue "/pets/{id}" .get (listed searchPath) searchOperation).parameters.map slot =
      [("id", .path), ("limit", .header), ("limit", .query)] ∧
    ((ofValue "/pets/{id}" .get (listed searchPath) searchOperation).parameters.map slot).Nodup := by
  have hn : ((listed searchPath).map slot).Nodup := by decide
  have ⟨h, hd⟩ := parameters_ofValue "/pets/{id}" .get (listed searchPath) searchOperation
  exact ⟨hn, h ▸ rfl, hd hn⟩

end Operation

end Classwright.Swagger
