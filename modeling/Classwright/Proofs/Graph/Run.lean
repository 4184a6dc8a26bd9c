import Classwright.Proofs.Graph.Step

namespace Classwright

open DefinitionGraph

-- A property that a run looks at, with the graph that it meets.
structure Visit where
  graph : DefinitionGraph
  owner : String
  index : Nat

namespace DefinitionGraph

inductive Steps : DefinitionGraph → List Visit → DefinitionGraph → Prop
  | refl (g) : Steps g [] g
  | step {g g' g'' owner index created vs} :
      g.Step owner index g' created → Steps g' vs g'' → Steps g (⟨g, owner, index⟩ :: vs) g''

namespace Steps

variable {g g' g'' : DefinitionGraph} {v : Visit} {vs ws : List Visit}

theorem trans (s₁ : g.Steps vs g') (s₂ : g'.Steps ws g'') : g.Steps (vs ++ ws) g'' := by
  induction s₁
  case refl        => exact s₂
  case step s _ ih => exact step s <| ih s₂

-- A run that comes by a visit takes that step from the graph of the visit.
theorem split (s : g.Steps vs g') (hv : v ∈ vs) : ∃ us ws g'' created, vs = us ++ v :: ws ∧
    g.Steps us v.graph ∧ v.graph.Step v.owner v.index g'' created ∧ g''.Steps ws g' := by
  induction s
  case refl => contradiction
  case step s₁ s₂ ih =>
    cases hv
    case head    => exact ⟨[], _, _, _, rfl, .refl _, s₁, s₂⟩
    case tail hv =>
      obtain ⟨us, ws, g'', c, rfl, h₁, h₂, h₃⟩ := ih hv
      exact ⟨_ :: us, ws, g'', c, rfl, step s₁ h₁, h₂, h₃⟩

-- What each step preserves at visits of some kind is preserved by a run of such visits.
theorem preserves_of {P : DefinitionGraph → Prop} {V : Visit → Prop}
    (hP : ∀ {g g' owner index created}, g.Step owner index g' created → V ⟨g, owner, index⟩ →
      P g → P g')
    (s : g.Steps vs g') (hv : ∀ v ∈ vs, V v) (h : P g) : P g' := by
  induction s
  case refl => exact h
  case step s _ ih =>
    have ⟨hs, hv⟩ := List.forall_mem_cons.mp hv
    exact ih hv <| hP s hs h

theorem preserves {P : DefinitionGraph → Prop}
    (hP : ∀ {g g' owner index created}, g.Step owner index g' created → P g → P g')
    (s : g.Steps vs g') (h : P g) : P g' :=
  s.preserves_of (fun s _ => hP s) (fun _ _ => trivial) h

end Steps

theorem Steps.extends {g g' : DefinitionGraph} {vs : List Visit} (s : g.Steps vs g') :
    g'.Extends g := by
  induction s
  case refl        => exact .refl _
  case step s _ ih => exact ih.trans s.extends

-- A run fails if the step of its last visit does. Its definition is there, so a property is at fault.
def Fails (g : DefinitionGraph) (vs : List Visit) (e : Error) (g' : DefinitionGraph) : Prop :=
  ∃ us owner index, vs = us ++ [⟨g', owner, index⟩] ∧ g.Steps us g' ∧ g'.contains owner ∧
    g'.synthesizeProperty owner index = .error e

theorem Steps.trans_fails {g g' g'' : DefinitionGraph} {vs ws : List Visit} {e : Error}
    (s : g.Steps vs g') (h : g'.Fails ws e g'') : g.Fails (vs ++ ws) e g'' := by
  obtain ⟨us, owner, index, rfl, s', hc, he⟩ := h
  exact ⟨vs ++ us, owner, index, by simp, s.trans s', hc, he⟩

-- Each property of the given definitions is visited.
def Covers (g : DefinitionGraph) (vs : List Visit) (names : List String) : Prop :=
  ∀ n ∈ names, ∀ d, g.get? n = some d → ∀ j < d.properties.length, ∃ v ∈ vs, v.owner = n ∧ v.index = j

namespace Covers

variable {g g' : DefinitionGraph} {vs ws : List Visit} {ns ms : List String}

theorem append (h₁ : g.Covers vs ns) (h₂ : g.Covers ws ms) : g.Covers (vs ++ ws) (ns ++ ms) := by
  intro n hn d hd j hj
  cases List.mem_append.mp hn
  case inl hn =>
    obtain ⟨v, hv, h⟩ := h₁ n hn d hd j hj
    exact ⟨v, List.mem_append_left _ hv, h⟩
  case inr hn =>
    obtain ⟨v, hv, h⟩ := h₂ n hn d hd j hj
    exact ⟨v, List.mem_append_right _ hv, h⟩

-- Definitions neither go away nor get further properties.
theorem of_extends (hg : g'.Extends g) (hn : ns ⊆ g.names) (h : g.Covers vs ns) :
    g'.Covers vs ns := by
  intro n hm d' hd' j hj
  obtain ⟨d, hd⟩ := exists_of_mem_names <| hn hm
  exact h n hm d hd j <| hg.length_eq hd hd' ▸ hj

end Covers

-- A graph retains another one if its definitions still have the same properties, and the same tables.
def Retains (g' g : DefinitionGraph) : Prop :=
  ∀ n d, g.get? n = some d → ∃ d', g'.get? n = some d' ∧ d'.properties = d.properties ∧
    d'.needsTable = d.needsTable

-- A step changes the properties of its owner at most.
theorem Step.retains {g g' base : DefinitionGraph} {owner : String} {index : Nat}
    {created : Option String} (s : g.Step owner index g' created) (ho : ¬base.contains owner)
    (h : g.Retains base) : g'.Retains base := by
  cases s
  case idle => exact h
  case give p shape name hg =>
    intro n d hd
    obtain ⟨d', hd', hp, ht⟩ := h n d hd
    refine ⟨_, get?_give_of_some hd', ?_, by simpa using ht⟩
    have hn : d'.name ≠ owner := fun he => ho <| he ▸ name_of_get? hd' ▸ contains_of_get? hd
    rw [Definition.properties_given, if_neg hn, hp]

theorem Steps.retains {g g' base : DefinitionGraph} {vs : List Visit} (s : g.Steps vs g')
    (ho : ∀ v ∈ vs, ¬base.contains v.owner) (h : g.Retains base) : g'.Retains base := by
  induction s
  case refl => exact h
  case step s _ ih =>
    have ⟨hv, ho⟩ := List.forall_mem_cons.mp ho
    exact ih ho <| s.retains hv h

end DefinitionGraph

namespace GraphM

variable {α β : Type} {g g' : DefinitionGraph} {x : GraphM α} {f : α → GraphM β} {b : β} {e : Error}

theorem get_bind {f : DefinitionGraph → GraphM β} : (get >>= f) g = f g g := rfl

theorem bind_eq_ok_iff :
    (x >>= f) g = .ok b g' ↔ ∃ a g₁, x g = .ok a g₁ ∧ f a g₁ = .ok b g' := by
  change EStateM.bind x f g = _ ↔ _
  unfold EStateM.bind
  cases x g <;> simp

theorem bind_eq_error_iff :
    (x >>= f) g = .error e g' ↔ x g = .error e g' ∨ ∃ a g₁, x g = .ok a g₁ ∧ f a g₁ = .error e g' := by
  change EStateM.bind x f g = _ ↔ _
  unfold EStateM.bind
  cases x g <;> simp

theorem pure_eq_ok_iff {a a' : α} : (pure a : GraphM α) g = .ok a' g' ↔ a = a' ∧ g = g' := by
  change EStateM.Result.ok a g = _ ↔ _
  simp

theorem pure_ne_error {a : α} : (pure a : GraphM α) g ≠ .error e g' :=
  nofun

-- The visits of the properties of a definition, up to the first that fails.
def scanVisits (owner : String) : List Nat → DefinitionGraph → List Visit
  | [], _ => []
  | index :: rest, g =>
    ⟨g, owner, index⟩ :: match g.synthesizeProperty owner index with
      | .ok (g, _) => scanVisits owner rest g
      | .error _ => []

def passVisits : List String → DefinitionGraph → List Visit
  | [], _ => []
  | owner :: rest, g => match g.get? owner with
    | none => []
    | some d =>
      let indices := List.range d.properties.length
      scanVisits owner indices g ++ match scanProperties owner indices g with
        | .ok _ g => passVisits rest g
        | .error .. => []

def settleVisits (passes : Nat) (pending : List String) (g : DefinitionGraph) : List Visit :=
  if pending.isEmpty then []
  else match passes with
    | 0 => []
    | passes + 1 => passVisits pending g ++ match pass pending g with
      | .ok created g => settleVisits passes created g
      | .error .. => []

section

variable {owner : String} {index : Nat} {indices : List Nat} {passes : Nat} {pending names : List String}
  {created : Option String} {d : Definition}

theorem require_eq_ok_iff : require owner g = .ok d g' ↔ g.get? owner = some d ∧ g = g' := by
  rw [require]
  cases h : g.require owner <;> simp_all [← DefinitionGraph.require_eq_ok_iff]

theorem synthesizeProperty_eq_ok_iff :
    synthesizeProperty owner index g = .ok created g' ↔ g.Step owner index g' created := by
  rw [← DefinitionGraph.synthesizeProperty_eq_ok_iff, synthesizeProperty]
  cases h : g.synthesizeProperty owner index <;> grind

theorem synthesizeProperty_eq_error_iff :
    synthesizeProperty owner index g = .error e g' ↔
      g.synthesizeProperty owner index = .error e ∧ g = g' := by
  rw [synthesizeProperty]
  cases h : g.synthesizeProperty owner index <;> grind

theorem scanProperties_ok (h : scanProperties owner indices g = .ok names g') :
    g.Steps (scanVisits owner indices g) g' ∧ g'.names = g.names ++ names ∧
      ∀ j ∈ indices, ∃ v ∈ scanVisits owner indices g, v.owner = owner ∧ v.index = j := by
  induction indices generalizing g names
  case nil =>
    obtain ⟨rfl, rfl⟩ := pure_eq_ok_iff.mp h
    exact ⟨.refl _, by simp, by simp⟩
  case cons index rest ih =>
    obtain ⟨created, g₁, h₁, h⟩ := bind_eq_ok_iff.mp h
    obtain ⟨more, g₂, h₂, h⟩ := bind_eq_ok_iff.mp h
    obtain ⟨rfl, rfl⟩ := pure_eq_ok_iff.mp h
    have s := synthesizeProperty_eq_ok_iff.mp h₁
    obtain ⟨ihs, ihn, ihc⟩ := ih h₂
    rw [scanVisits, DefinitionGraph.synthesizeProperty_eq_ok_iff.mpr s]
    refine ⟨.step s ihs, by simp [ihn, s.names_eq], fun j hj => ?_⟩
    cases hj
    case head    => exact ⟨_, List.mem_cons_self, rfl, rfl⟩
    case tail hj => exact have ⟨v, hv, hk⟩ := ihc j hj; ⟨v, List.mem_cons_of_mem _ hv, hk⟩

theorem scanProperties_error (hc : g.contains owner)
    (h : scanProperties owner indices g = .error e g') :
    g.Fails (scanVisits owner indices g) e g' := by
  induction indices generalizing g
  case nil => cases pure_ne_error h
  case cons index rest ih =>
    rw [scanVisits]
    cases bind_eq_error_iff.mp h
    case inl h =>
      obtain ⟨he, rfl⟩ := synthesizeProperty_eq_error_iff.mp h
      exact ⟨[], owner, index, by simp [he], .refl _, hc, he⟩
    case inr h =>
      obtain ⟨created, g₁, h₁, h⟩ := h
      have s := synthesizeProperty_eq_ok_iff.mp h₁
      rw [DefinitionGraph.synthesizeProperty_eq_ok_iff.mpr s]
      cases bind_eq_error_iff.mp h
      case inl h => exact (Steps.step s <| .refl _).trans_fails <| ih (s.extends.contains hc) h
      case inr h => exact have ⟨_, _, _, h⟩ := h; absurd h pure_ne_error

theorem pass_cons_eq_ok {owner : String} {rest : List String}
    (h : pass (owner :: rest) g = .ok names g') : ∃ d created more g₁, g.get? owner = some d ∧
      scanProperties owner (.range d.properties.length) g = .ok created g₁ ∧
      pass rest g₁ = .ok more g' ∧ names = created ++ more := by
  obtain ⟨d, g₁, h₁, h⟩ := bind_eq_ok_iff.mp h
  obtain ⟨hd, rfl⟩ := require_eq_ok_iff.mp h₁
  obtain ⟨created, g₂, h₂, h⟩ := bind_eq_ok_iff.mp h
  obtain ⟨more, g₃, h₃, h⟩ := bind_eq_ok_iff.mp h
  obtain ⟨rfl, rfl⟩ := pure_eq_ok_iff.mp h
  exact ⟨d, created, more, g₂, hd, h₂, h₃, rfl⟩

theorem pass_ok (h : pass pending g = .ok names g') :
    g.Steps (passVisits pending g) g' ∧ g'.names = g.names ++ names ∧
      g'.Covers (passVisits pending g) pending ∧ pending ⊆ g'.names := by
  induction pending generalizing g names
  case nil =>
    obtain ⟨rfl, rfl⟩ := pure_eq_ok_iff.mp h
    exact ⟨.refl _, by simp, by simp [Covers], by simp⟩
  case cons owner rest ih =>
    obtain ⟨d, created, more, g₁, hd, h₂, h₃, rfl⟩ := pass_cons_eq_ok h
    obtain ⟨ss, sn, sc⟩ := scanProperties_ok h₂
    obtain ⟨ps, pn, pc, pm⟩ := ih h₃
    simp only [passVisits, hd, h₂]
    have hx := (ss.trans ps).extends
    refine ⟨ss.trans ps, by simp [pn, sn], ?_, ?_⟩
    · have hc : g'.Covers (scanVisits owner (.range d.properties.length) g) [owner] := by
        intro n hn d' hd' j hj
        cases List.mem_singleton.mp hn
        exact sc j <| List.mem_range.mpr <| hx.length_eq hd hd' ▸ hj
      exact hc.append pc
    · exact List.cons_subset.mpr ⟨contains_iff.mp <| hx.contains <| contains_of_get? hd, pm⟩

theorem pass_error (hp : pending ⊆ g.names) (h : pass pending g = .error e g') :
    g.Fails (passVisits pending g) e g' := by
  induction pending generalizing g
  case nil => cases pure_ne_error h
  case cons owner rest ih =>
    have ⟨ho, hr⟩ := List.cons_subset.mp hp
    obtain ⟨d, hd⟩ := exists_of_mem_names ho
    have hq := require_eq_ok_iff.mpr ⟨hd, rfl⟩
    simp only [passVisits, hd]
    rcases bind_eq_error_iff.mp h with h | ⟨d', g₁, h₁, h⟩
    · simp [hq] at h
    obtain ⟨rfl, rfl⟩ : d = d' ∧ g = g₁ := by simpa [hq] using h₁
    rcases bind_eq_error_iff.mp h with h | ⟨created, g₂, h₂, h⟩
    · simpa [h] using scanProperties_error (contains_of_get? hd) h
    obtain ⟨ss, sn, _⟩ := scanProperties_ok h₂
    rcases bind_eq_error_iff.mp h with h | ⟨_, _, _, h⟩
    · rw [h₂]
      exact ss.trans_fails <| ih (fun n hn => sn ▸ List.mem_append_left _ (hr hn)) h
    · exact absurd h pure_ne_error

theorem settle_ok (h : settle passes pending g = .ok names g') :
    g.Steps (settleVisits passes pending g) g' ∧ g'.names = g.names ++ names ∧
      g'.Covers (settleVisits passes pending g) (pending ++ names) := by
  induction passes generalizing g pending names <;> rw [settle] at h <;> rw [settleVisits] <;>
    split at h
  case zero.isTrue hp | succ.isTrue hp =>
    obtain ⟨rfl, rfl⟩ := pure_eq_ok_iff.mp h
    simp only [hp, if_true]
    exact ⟨.refl _, by simp, by simp [Covers, List.isEmpty_iff.mp hp]⟩
  case zero.isFalse => cases h
  case succ.isFalse passes ih hp =>
    obtain ⟨created, g₁, h₁, h⟩ := bind_eq_ok_iff.mp h
    obtain ⟨more, g₂, h₂, h⟩ := bind_eq_ok_iff.mp h
    obtain ⟨rfl, rfl⟩ := pure_eq_ok_iff.mp h
    obtain ⟨ps, pn, pc, pm⟩ := pass_ok h₁
    obtain ⟨is, im, ic⟩ := ih h₂
    simp only [hp, Bool.false_eq_true, if_false, h₁]
    refine ⟨ps.trans is, by simp [im, pn], ?_⟩
    exact (pc.of_extends is.extends pm).append ic

theorem owner_of_mem_scanVisits {v : Visit} (h : v ∈ scanVisits owner indices g) :
    v.owner = owner := by
  induction indices generalizing g
  case nil => contradiction
  case cons index rest ih =>
    rw [scanVisits] at h
    cases h
    case head => rfl
    case tail h =>
      split at h
      case h_1 => exact ih h
      case h_2 => contradiction

theorem owner_mem_of_mem_passVisits {v : Visit} (h : v ∈ passVisits pending g) :
    v.owner ∈ pending := by
  induction pending generalizing g
  case nil => contradiction
  case cons owner rest ih =>
    rw [passVisits] at h
    split at h
    case h_1 => contradiction
    case h_2 =>
      rcases List.mem_append.mp h with h | h
      · exact owner_of_mem_scanVisits h ▸ List.mem_cons_self
      · split at h
        case h_1 => exact List.mem_cons_of_mem _ <| ih h
        case h_2 => contradiction

-- A run visits what is pending and what it creates.
theorem owner_of_mem_settleVisits {v : Visit} (h : v ∈ settleVisits passes pending g) :
    v.owner ∈ pending ∨ ¬g.contains v.owner := by
  induction passes generalizing g pending <;> rw [settleVisits] at h <;> split at h
  case zero.isTrue | zero.isFalse | succ.isTrue => contradiction
  case succ.isFalse passes ih _ =>
    rcases List.mem_append.mp h with h | h
    · exact .inl <| owner_mem_of_mem_passVisits h
    · split at h <;> try contradiction
      case h_1 created g₁ h₁ =>
        obtain ⟨ps, pn, _⟩ := pass_ok h₁
        exact .inr <| (ih h).elim (not_contains_of_names_eq pn) (mt ps.extends.contains)

-- A run that does not settle runs out of passes, or one of its steps fails.
theorem settle_error (hp : pending ⊆ g.names) (h : settle passes pending g = .error e g') :
    e = .unsettled ∧ g.Steps (settleVisits passes pending g) g' ∨
      g.Fails (settleVisits passes pending g) e g' := by
  induction passes generalizing g pending <;> rw [settle] at h <;> rw [settleVisits] <;> split at h
  case zero.isTrue | succ.isTrue => cases pure_ne_error h
  case zero.isFalse he => cases h; simpa [he] using .inl <| .refl _
  case succ.isFalse passes ih he =>
    simp only [he, Bool.false_eq_true, if_false]
    rcases bind_eq_error_iff.mp h with h | ⟨created, g₁, h₁, h⟩
    · simpa [h] using .inr <| pass_error hp h
    obtain ⟨ps, pn, _⟩ := pass_ok h₁
    rw [h₁]
    rcases bind_eq_error_iff.mp h with h | ⟨_, _, _, h⟩
    · cases ih (by simp [pn]) h
      case inl h => exact .inl ⟨h.left, ps.trans h.right⟩
      case inr h => exact .inr <| ps.trans_fails h
    · exact absurd h pure_ne_error

end

end GraphM
end Classwright
