import Classwright.Proofs.Closure
import Classwright.Proofs.Graph.Dangling
import Classwright.Proofs.Graph.Decline

namespace Classwright

open Schema DefinitionGraph

variable {g g' : DefinitionGraph} {ws pending created : List String} {passes m : Nat} {v : Visit}
  {vs : List Visit} {done : List (String × Nat)}

-- A step fails at the property of the visit.
def Visit.Fails (v : Visit) : Prop :=
  ∃ e, v.graph.synthesizeProperty v.owner v.index = .error e

theorem DefinitionGraph.not_fails_unsettled : ¬g.Fails vs .unsettled g' := by
  rintro ⟨_, owner, index, _, _, _, he⟩
  rcases synthesizeProperty_eq_error_iff.mp he with ⟨_, he⟩ | ⟨_, _, _, _, _, _, he⟩ <;> cases he

namespace GraphM

-- A run ends if some number of passes is enough for it to settle or to fail.
def Ends (pending : List String) (g : DefinitionGraph) : Prop :=
  ∃ passes, ∀ g', settle passes pending g ≠ .error .unsettled g'

def NeverWinds (pending : List String) (g : DefinitionGraph) : Prop :=
  ∀ passes, ∀ v ∈ settleVisits passes pending g, ¬v.graph.Winds

theorem Ends.nil : Ends [] g :=
  ⟨0, fun _ h => nomatch h⟩

-- A run ends if it does so after the first pass.
theorem Ends.of_pass (hp : pending ⊆ g.names)
    (h : ∀ created g', pending ≠ [] → pass pending g = .ok created g' → Ends created g') :
    Ends pending g := by
  by_cases he : pending = []
  case pos => exact he ▸ .nil
  case neg =>
    have hne : ¬pending.isEmpty := by simpa using he
    cases hq : pass pending g
    -- One pass more is needed than after the first one.
    case ok created g₁ =>
      obtain ⟨passes, hn⟩ := h created g₁ he hq
      refine ⟨passes + 1, fun g' hs => ?_⟩
      rw [settle, if_neg hne] at hs
      rcases bind_eq_error_iff.mp hs with hs | ⟨created', g₂, h₁, hs⟩
      · cases hq.symm.trans hs
      · cases hq.symm.trans h₁
        rcases bind_eq_error_iff.mp hs with hs | ⟨_, _, _, hs⟩
        · exact hn g' hs
        · exact absurd hs pure_ne_error
    case error e g₁ =>
      refine ⟨1, fun g' hs => ?_⟩
      rw [settle, if_neg hne] at hs
      rcases bind_eq_error_iff.mp hs with hs | ⟨created', g₂, h₁, _⟩
      · exact not_fails_unsettled <| pass_error hp hs
      · cases hq.symm.trans h₁

namespace NeverWinds

theorem of_mem (h : NeverWinds pending g) (hp : pending ≠ []) (hv : v ∈ passVisits pending g) :
    ¬v.graph.Winds := by
  have hne : ¬pending.isEmpty := by simpa using hp
  refine h 1 v ?_
  rw [settleVisits, if_neg hne]
  exact List.mem_append_left _ hv

theorem pass (h : NeverWinds pending g) (hp : pending ≠ [])
    (hq : GraphM.pass pending g = .ok created g') : NeverWinds created g' := by
  have hne : ¬pending.isEmpty := by simpa using hp
  intro passes v hv
  refine h (passes + 1) v ?_
  rw [settleVisits, if_neg hne, hq]
  exact List.mem_append_right _ hv

end NeverWinds

-- What a run has before it at the beginning of a pass.
structure Ready (ws : List String) (g : DefinitionGraph) (done : List (String × Nat))
    (pending : List String) : Prop where
  queue : Queue ws g done (pending.flatMap g.placesOf)
  there : pending ⊆ g.names

namespace Ready

theorem place_eq (h : Ready ws g done pending) (hq : pass pending g = .ok created g') :
    (passVisits pending g).map (·.place) = pending.flatMap g.placesOf := by
  rw [place_passVisits hq]
  have hx := (pass_ok hq).left.extends
  exact List.flatMap_congr fun n hn => placesOf_of_extends hx <| contains_iff.mpr <| h.there hn

theorem pass (h : Ready ws g done pending) (hq : GraphM.pass pending g = .ok created g') :
    ∃ done', Ready ws g' done' created := by
  obtain ⟨s, hn, _⟩ := pass_ok hq
  have hv := h.queue
  rw [← h.place_eq hq, ← List.append_nil (List.map _ _)] at hv
  obtain ⟨names, hn', hv⟩ := s.queue hv
  cases List.append_cancel_left <| hn.symm.trans hn'
  exact ⟨_, by simpa using hv, by simp [hn]⟩

-- Where no pending definition is watched, those that are were visited.
theorem isFresh (h : Ready ws g done pending) (hq : GraphM.pass pending g = .ok created g')
    (hs : Stays ws g g') (hw : ∀ n ∈ pending, n ∉ ws) : ∀ v ∈ passVisits pending g, v.IsFresh := by
  have hv := h.queue
  rw [← h.place_eq hq, ← List.append_nil (List.map _ _)] at hv
  refine (pass_ok hq).left.isFresh hv hs fun w hm t ht => ?_
  refine (List.mem_append.mp <| h.queue.covered w ht).resolve_right fun hp => ?_
  obtain ⟨n, hn, hp⟩ := List.mem_flatMap.mp hp
  have hnw := (Queue.fst_of_mem_placesOf ht).left.symm.trans (Queue.fst_of_mem_placesOf hp).left
  exact hw n hn <| hnw ▸ hm

theorem not_mem_created (hq : GraphM.pass pending g = .ok created g') (hs : Stays ws g g') :
    ∀ n ∈ created, n ∉ ws := by
  intro n hn hw
  have hnames := (pass_ok hq).right.left
  have hg := hs n hw <| contains_iff.mpr <| hnames ▸ List.mem_append_right _ hn
  exact not_contains_of_names_eq hnames hn hg

-- What declines does so in a pass.
theorem declines {F : Nat → DefinitionGraph → Property → Prop} {k : Nat} (hF : Declines ws F)
    (h : Ready ws g done pending) (hq : GraphM.pass pending g = .ok created g') (hs : Stays ws g g')
    (hw : ∀ n ∈ pending, n ∉ ws) (hp : g.AllOf pending (F k g)) : g'.AllOf created (F (k - 1) g') := by
  obtain ⟨s, hn, _⟩ := pass_ok hq
  obtain ⟨names, hn', ha⟩ := hF.steps s h.queue.named h.queue.watched hs (h.isFresh hq hs hw)
    (fun _ => owner_mem_of_mem_passVisits) (by simpa using h.there) hp (show g.AllOf [] _ from nofun)
  cases List.append_cancel_left <| hn.symm.trans hn'
  simpa using ha

-- Definitions without properties leave a pass nothing to do.
theorem eq_nil (hq : GraphM.pass pending g = .ok created g') (hv : passVisits pending g = []) :
    created = [] := by
  obtain ⟨s, hn, _⟩ := pass_ok hq
  rw [hv] at s
  cases s
  simpa using hn

section

-- The passes that follow one that adds a watched name are left to the induction on the number of
-- those that are absent.
variable (hm : ∀ {g done pending}, Ready ws g done pending → NeverWinds pending g →
  absent ws g < m → Ends pending g)

include hm

theorem ends_of_pass (hr : Ready ws g done pending) (hnw : NeverWinds pending g)
    (ha : absent ws g ≤ m)
    (hs : ∀ {done' created g'}, GraphM.pass pending g = .ok created g' → Stays ws g g' →
      Ready ws g' done' created → NeverWinds created g' → absent ws g' ≤ m →
      (∀ n ∈ created, n ∉ ws) → Ends created g') : Ends pending g := by
  refine .of_pass hr.there fun created g' hne hq => ?_
  obtain ⟨done', hr'⟩ := hr.pass hq
  have hx := (pass_ok hq).left.extends
  rcases absent_lt_or_stays ws hx with hlt | hst
  · exact hm hr' (hnw.pass hne hq) <| by omega
  · exact hs hq hst hr' (hnw.pass hne hq) ((absent_le hx).trans ha) <| not_mem_created hq hst

theorem ends_of_low {h : Nat} (hr : Ready ws g done pending) (hnw : NeverWinds pending g)
    (ha : absent ws g ≤ m) (hw : ∀ n ∈ pending, n ∉ ws)
    (hl : g.AllOf pending fun p => g.Flat p ∧ g.Low h p) : Ends pending g := by
  induction h generalizing g done pending
  case zero =>
    refine .of_pass hr.there fun created g' _ hq => ?_
    have hp : pending.flatMap g.placesOf = [] := by
      refine List.flatMap_eq_nil_iff.mpr fun n hn => List.eq_nil_iff_forall_not_mem.mpr fun t ht => ?_
      obtain ⟨_, d, hd, hj⟩ := mem_placesOf.mp ht
      exact (hl n hn d hd _ <| List.getElem_mem hj).right
    exact eq_nil hq (List.map_eq_nil_iff.mp <| hr.place_eq hq |>.trans hp) ▸ .nil
  case succ h ih =>
    refine ends_of_pass hm hr hnw ha fun hq hs hr' hnw ha hw' => ?_
    exact ih hr' hnw ha hw' <| hr.declines declines_low hq hs hw hl

theorem ends_of_shallow {k : Nat} (hr : Ready ws g done pending) (hnw : NeverWinds pending g)
    (ha : absent ws g ≤ m) (hw : ∀ n ∈ pending, n ∉ ws) (hk : g.AllOf pending (g.Shallow k)) :
    Ends pending g := by
  induction k generalizing g done pending
  case zero =>
    by_cases hg : g.Winds
    case neg =>
      obtain ⟨h, hl⟩ := exists_allOf pending (fun _ _ => Low.succ) <| exists_low hg
      exact ends_of_low hm hr hnw ha hw fun n hn d hd p hp => ⟨hk n hn d hd p hp, hl n hn d hd p hp⟩
    -- A graph that winds is not visited, so there is nothing to visit.
    case pos =>
      refine .of_pass hr.there fun created g' hne hq => ?_
      have hv : passVisits pending g = [] := by
        by_contra hv
        obtain ⟨v, vs, hv⟩ := List.exists_cons_of_ne_nil hv
        have hgv : v.graph = g := by
          have s := hv ▸ (pass_ok hq).left
          cases s
          rfl
        exact hnw.of_mem hne (hv ▸ List.mem_cons_self) <| hgv ▸ hg
      exact eq_nil hq hv ▸ .nil
  case succ k ih =>
    refine ends_of_pass hm hr hnw ha fun hq hs hr' hnw ha hw' => ?_
    exact ih hr' hnw ha hw' <| hr.declines declines_shallow hq hs hw hk

end

-- The induction is on the number of watched names that are absent. After a pass that adds none, the
-- pending definitions are not watched; while this is so, the inline objects of what is pending get
-- less deep with each pass, and once there are none, the references that collide get less high.
theorem ends (hr : Ready ws g done pending) (hnw : NeverWinds pending g) : Ends pending g := by
  induction hm : absent ws g using Nat.strong_induction_on generalizing g done pending
  case _ m ih =>
    subst hm
    have hm : ∀ {g' done' pending'}, Ready ws g' done' pending' → NeverWinds pending' g' →
        absent ws g' < absent ws g → Ends pending' g' :=
      fun hr hnw hlt => ih _ hlt hr hnw rfl
    -- All that is pending after a pass was created by it, and no watched name was.
    refine ends_of_pass hm hr hnw (Nat.le_refl _) fun {_ created g'} _ _ hr hnw ha hw => ?_
    obtain ⟨k, hk⟩ := exists_allOf created (fun _ _ => Shallow.succ) <| exists_shallow g'
    exact ends_of_shallow hm hr hnw ha hw hk

end Ready

end GraphM

-- At the beginning everything is pending.
theorem GraphM.Ready.initial (hn : g.FullyNamed) : Ready g.usedNames g [] g.names where
  queue := .initial hn
  there := List.Subset.refl _

theorem DefinitionGraph.Steps.not_fails_of_mem (s : g.Steps vs g') (hv : v ∈ vs) : ¬v.Fails := by
  rintro ⟨e, he⟩
  obtain ⟨_, _, _, _, _, _, s, _⟩ := s.split hv
  cases he.symm.trans <| synthesizeProperty_eq_ok_iff.mpr s

theorem DefinitionGraph.Fails.exists_mem {e : Error} (h : g.Fails vs e g') : ∃ v ∈ vs, v.Fails := by
  obtain ⟨us, owner, index, rfl, _, _, he⟩ := h
  exact ⟨_, List.mem_append_right _ <| List.mem_singleton_self _, e, he⟩

namespace GraphM

theorem settleVisits_nil (passes : Nat) : settleVisits passes [] g = [] := by
  cases passes <;> rfl

-- A run that settles visits all that it would visit with other numbers of passes.
theorem settleVisits_subset (h : settle passes pending g = .ok created g') (passes' : Nat) :
    settleVisits passes' pending g ⊆ settleVisits passes pending g := by
  induction passes generalizing passes' pending created g g' <;> rw [settle] at h <;> split at h
  case zero.isTrue hp | succ.isTrue hp =>
    rw [List.isEmpty_iff.mp hp, settleVisits_nil]
    exact List.nil_subset _
  case zero.isFalse => cases h
  case succ.isFalse passes ih hp =>
    obtain ⟨created, g₁, h₁, h⟩ := bind_eq_ok_iff.mp h
    obtain ⟨more, g₂, h₂, _⟩ := bind_eq_ok_iff.mp h
    cases passes'
    case zero => simp [settleVisits]
    case succ passes' =>
      simp only [settleVisits, hp, Bool.false_eq_true, if_false, h₁]
      exact List.append_subset.mpr ⟨List.subset_append_left _ _,
        List.subset_append_of_subset_right _ <| ih h₂ passes'⟩

end GraphM

open GraphM

-- A run over all definitions ends exactly if one of its steps fails, or no graph on its way winds.
theorem DefinitionGraph.FullyNamed.ends_iff (hn : g.FullyNamed) (ht : g.Tabled) : Ends g.names g ↔
    (∃ passes, ∃ v ∈ settleVisits passes g.names g, v.Fails) ∨ NeverWinds g.names g where
  mp := by
    rintro ⟨passes, he⟩
    cases h : settle passes g.names g
    case ok names g' =>
      -- A graph that winds on the way would still do so at the end.
      refine .inr fun passes' v hv hw => not_winds_of_settle_eq_ok hn h ?_
      obtain ⟨_, _, _, _, _, s₁, s₂, s₃⟩ := (settle_ok h).left.split <| settleVisits_subset h passes' hv
      have hn := hn.steps s₁
      have ht := ht.steps s₁
      exact s₃.winds (hn.step s₂) (ht.step s₂) <| s₂.winds hn ht hw
    case error e g' =>
      rcases settle_error (List.Subset.refl _) h with ⟨rfl, _⟩ | hf
      · exact absurd h <| he g'
      · exact .inl ⟨passes, hf.exists_mem⟩
  mpr := by
    rintro (⟨passes, v, hv, hf⟩ | hw)
    · refine ⟨passes, fun g' h => ?_⟩
      rcases settle_error (List.Subset.refl _) h with ⟨_, s⟩ | hu
      · exact s.not_fails_of_mem hv hf
      · exact not_fails_unsettled hu
    · exact Ready.initial hn |>.ends hw

theorem fullyNamed_ofSchemas {schemas : List ObjectSchema}
    (h : ∀ s ∈ schemas, PlainName s.name ∧
      ∀ p ∈ s.properties, Property.Deep (fun p => p.name ≠ "" ∧ PlainName p.name) p) :
    (ofSchemas schemas).FullyNamed where
  toWellNamed := wellNamed_ofSchemas fun s hs =>
    ⟨(h s hs).left, fun p hp => ((h s hs).right p hp).mono fun _ h => h.right⟩
  nonempty := All.ofSchemas fun s hs p hp => ((h s hs).right p hp).mono fun _ h => h.left

-- Synthesis over the definitions of a document ends exactly if a step fails, or no graph winds that
-- it comes by.
theorem ends_ofSchemas_iff {schemas : List ObjectSchema}
    (h : ∀ s ∈ schemas, PlainName s.name ∧
      ∀ p ∈ s.properties, Property.Deep (fun p => p.name ≠ "" ∧ PlainName p.name) p) :
    Ends (ofSchemas schemas).names (ofSchemas schemas) ↔
      (∃ passes, ∃ v ∈ settleVisits passes (ofSchemas schemas).names (ofSchemas schemas), v.Fails) ∨
        NeverWinds (ofSchemas schemas).names (ofSchemas schemas) :=
  (fullyNamed_ofSchemas h).ends_iff .ofSchemas

theorem not_fails_of_mem_settleVisits (hn : g.FullyNamed) (hk : g.All g.Known)
    (hv : v ∈ settleVisits passes g.names g) : ¬v.Fails := by
  cases h : settle passes g.names g
  case ok names g' => exact (settle_ok h).left.not_fails_of_mem hv
  case error e g' =>
    rcases settle_error (List.Subset.refl _) h with ⟨_, s⟩ | hf
    · exact s.not_fails_of_mem hv
    · exact absurd hf <| not_fails_of_known hn.toWellNamed hk

-- A node leads to the next one, which is a node. The next one of the next one is taken for the first.
def nodeSchemas : List ObjectSchema :=
  [⟨"Node", [.ofType "value" (.named "string" false) true, .ofType "next" (.named "Node" false) false]⟩]

theorem neverWinds_nodeSchemas : NeverWinds (ofSchemas nodeSchemas).names (ofSchemas nodeSchemas) := by
  have hn : ∀ s ∈ nodeSchemas, PlainName s.name ∧
      ∀ p ∈ s.properties, Property.Deep (fun p => p.name ≠ "" ∧ PlainName p.name) p := by decide
  have he : Ends (ofSchemas nodeSchemas).names (ofSchemas nodeSchemas) := ⟨2, fun g' h => by cases h⟩
  refine (ends_ofSchemas_iff hn |>.mp he).resolve_left ?_
  rintro ⟨passes, v, hv, hf⟩
  exact not_fails_of_mem_settleVisits (fullyNamed_ofSchemas hn) (All.ofSchemas <| by decide) hv hf

-- Where all types are known, a run never ends if the graph winds from the start.
theorem not_ends_of_winds (hn : g.FullyNamed) (ht : g.Tabled) (hk : g.All g.Known) (hw : g.Winds) :
    ¬Ends g.names g := by
  rintro ⟨passes, he⟩
  cases h : settle passes g.names g
  case ok names g' =>
    exact absurd ((settle_ok h).left.winds hn ht hw) <| not_winds_of_settle_eq_ok hn h
  case error e g' =>
    rcases settle_error (List.Subset.refl _) h with ⟨rfl, _⟩ | hf
    · exact absurd h <| he g'
    · exact absurd hf <| not_fails_of_known hn.toWellNamed hk

-- A node without a table leads to itself, under the name of a table.
def loopSchemas : List ObjectSchema :=
  [⟨"Next", [.ofType "id" (.named "string" false) true]⟩,
    ⟨"Node", [.ofType "next" (.named "Node" false) false]⟩]

theorem not_ends_loopSchemas : ¬Ends (ofSchemas loopSchemas).names (ofSchemas loopSchemas) := by
  have hn : ∀ s ∈ loopSchemas, PlainName s.name ∧
      ∀ p ∈ s.properties, Property.Deep (fun p => p.name ≠ "" ∧ PlainName p.name) p := by decide
  refine not_ends_of_winds (fullyNamed_ofSchemas hn) .ofSchemas (All.ofSchemas <| by decide) ?_
  refine ⟨{"Node"}, ⟨_, rfl⟩, ?_⟩
  rintro _ rfl
  exact ⟨_, rfl, by decide, _, List.mem_cons_self, ⟨by decide, by decide, by decide⟩, rfl⟩

end Classwright
