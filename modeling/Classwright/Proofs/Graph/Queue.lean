import Classwright.Proofs.Graph.Invariant
import Mathlib.Data.Finset.Card
import Mathlib.Tactic.Tauto

namespace Classwright

open Schema Property

namespace DefinitionGraph

variable {g g' g'' : DefinitionGraph} {d e : Definition} {p q : Property} {shape : List Property}
  {owner name n : String} {index j : Nat} {created : Option String} {ws names : List String}
  {v : Visit} {vs : List Visit}

-- The capitalized name of a property is watched, and so is its type unless there is a definition.
def Watched (ws : List String) (g : DefinitionGraph) (p : Property) : Prop :=
  Naming.capitalize p.name ∈ ws ∧ (p.type.element.name ∈ ws ∨ g.contains p.type.element.name)

theorem Watched.of_extends (h : Watched ws g p) (hx : g'.Extends g) : Watched ws g' p :=
  ⟨h.left, h.right.imp_right hx.contains⟩

theorem Step.watched (s : g.Step owner index g' created) (hn : g.WellNamed) (h : g.All (Watched ws g)) :
    g'.All (Watched ws g') := by
  refine s.all (fun _ => (·.of_extends s.extends)) (fun p shape name hg he hw => ?_) h
  refine ⟨hw.left, .inr ?_⟩
  rw [hn.element_retarget hg, he]
  exact contains_give

-- No watched name is new.
def Stays (ws : List String) (g g' : DefinitionGraph) : Prop :=
  ∀ w ∈ ws, g'.contains w → g.contains w

theorem Stays.left (h : Stays ws g g'') (hx : g''.Extends g') : Stays ws g g' :=
  fun w hw hc => h w hw <| hx.contains hc

theorem Stays.right (h : Stays ws g g'') (hx : g'.Extends g) : Stays ws g' g'' :=
  fun w hw hc => hx.contains <| h w hw hc

-- The number of watched names that have no definition.
def absent (ws : List String) (g : DefinitionGraph) : Nat :=
  (ws.toFinset.filter fun w => ¬g.contains w).card

theorem absent_subset (hx : g'.Extends g) :
    (ws.toFinset.filter fun w => ¬g'.contains w) ⊆ ws.toFinset.filter fun w => ¬g.contains w := by
  intro w hw
  simp only [Finset.mem_filter] at hw ⊢
  exact ⟨hw.left, mt hx.contains hw.right⟩

theorem absent_le (hx : g'.Extends g) : absent ws g' ≤ absent ws g :=
  Finset.card_le_card <| absent_subset hx

theorem absent_lt_or_stays (ws : List String) (hx : g'.Extends g) :
    absent ws g' < absent ws g ∨ Stays ws g g' := by
  by_cases hs : Stays ws g g'
  case pos => exact .inr hs
  case neg =>
    simp only [Stays, not_forall] at hs
    obtain ⟨w, hw, hc', hc⟩ := hs
    -- This name was absent, and no longer is.
    refine .inl <| Finset.card_lt_card <| Finset.ssubset_iff_subset_ne.mpr ⟨absent_subset hx, ?_⟩
    intro he
    have hm : w ∈ ws.toFinset.filter fun w => ¬g.contains w := by simp [hw, hc]
    rw [← he] at hm
    exact (Finset.mem_filter.mp hm).right hc'

-- The places of the properties of a definition.
def placesOf (g : DefinitionGraph) (n : String) : List (String × Nat) :=
  match g.get? n with
  | none => []
  | some d => (List.range d.properties.length).map (n, ·)

theorem mem_placesOf {s : String × Nat} :
    s ∈ g.placesOf n ↔ s.fst = n ∧ ∃ d, g.get? n = some d ∧ s.snd < d.properties.length := by
  obtain ⟨m, j⟩ := s
  cases hd : g.get? n <;> simp [placesOf, hd]
  grind

theorem placesOf_of_extends (hx : g'.Extends g) (hc : g.contains n) : g'.placesOf n = g.placesOf n := by
  obtain ⟨d, hd⟩ := exists_of_contains hc
  obtain ⟨d', hd', _⟩ := hx n d hd
  simp only [placesOf, hd, hd', hx.length_eq hd hd']

theorem nodup_placesOf : (g.placesOf n).Nodup := by
  rw [placesOf]
  split
  case h_1 => exact List.nodup_nil
  case h_2 => exact List.nodup_range.map fun _ _ h => (Prod.mk.inj h).right

end DefinitionGraph

def Visit.place (v : Visit) : String × Nat :=
  ⟨v.owner, v.index⟩

namespace DefinitionGraph

variable {g g' g'' : DefinitionGraph} {d e : Definition} {p q : Property} {shape : List Property}
  {owner name n : String} {index j : Nat} {created : Option String} {ws names : List String}
  {v : Visit} {vs : List Visit} {done todo more : List (String × Nat)} {s : String × Nat}

-- A type is reached if it is watched, or a definition of which everything was visited.
def Reached (ws : List String) (g : DefinitionGraph) (done : List (String × Nat)) (p : Property) :
    Prop :=
  p.type.element.name ∈ ws ∨
    g.contains p.type.element.name ∧ g.placesOf p.type.element.name ⊆ done

theorem Reached.of_extends (h : Reached ws g done p) (hx : g'.Extends g) (hd : done ⊆ more) :
    Reached ws g' more p :=
  h.imp_right fun ⟨hc, hp⟩ => ⟨hx.contains hc, placesOf_of_extends hx hc ▸ List.Subset.trans hp hd⟩

-- The property at each place to visit has types that are reached once those before it were visited.
def Ordered (ws : List String) (g : DefinitionGraph) :
    List (String × Nat) → List (String × Nat) → Prop
  | _, [] => True
  | done, s :: rest =>
    (∀ d p, g.get? s.fst = some d → d.properties[s.snd]? = some p → Deep (Reached ws g done) p) ∧
      Ordered ws g (done ++ [s]) rest

theorem Ordered.append (h : Ordered ws g done todo)
    (hm : ∀ s ∈ more, ∀ d p, g.get? s.fst = some d → d.properties[s.snd]? = some p →
      Deep (Reached ws g (done ++ todo)) p) : Ordered ws g done (todo ++ more) := by
  induction todo generalizing done
  case cons s todo ih => exact ⟨h.left, ih h.right <| by simpa using hm⟩
  case nil =>
    rw [List.append_nil] at hm
    rw [List.nil_append]
    -- What is ahead of the further places does not matter: being reached is kept as more is done.
    clear h
    induction more generalizing done
    case nil => trivial
    case cons s more ih =>
      have ⟨hs, hm⟩ := List.forall_mem_cons.mp hm
      refine ⟨hs, ih fun t ht d p hd hp => (hm t ht d p hd hp).mono fun _ h => ?_⟩
      exact h.of_extends (.refl g) <| List.subset_append_left _ _

-- A step changes no property but its own.
theorem Ordered.step (h : Ordered ws g done todo) (s : g.Step owner index g' created)
    (ht : ∀ t ∈ todo, g.contains t.fst) (hn : (owner, index) ∉ todo) : Ordered ws g' done todo := by
  induction todo generalizing done
  case nil => trivial
  case cons t todo ih =>
    have ⟨hc, ht⟩ := List.forall_mem_cons.mp ht
    have ⟨hne, hn⟩ := not_or.mp <| mt List.mem_cons.mpr hn
    refine ⟨fun d' p hd' hp => ?_, ih h.right ht hn⟩
    obtain ⟨d, hd⟩ := exists_of_contains hc
    have hp : d.properties[t.snd]? = some p := by
      cases s
      case idle =>
        cases hd.symm.trans hd'
        exact hp
      case give =>
        cases hd'.symm.trans <| get?_give_of_some hd
        rwa [Definition.getElem?_properties_given, name_of_get? hd, if_neg ?_] at hp
        exact fun he => hne <| Prod.ext he.left.symm he.right.symm
    exact (h.left d p hd hp).mono fun _ h => h.of_extends s.extends <| List.Subset.refl _

-- A property is flat if a step would find nothing inline to make a definition of.
def Flat (g : DefinitionGraph) (p : Property) : Prop :=
  g.needsSynthesis p → ¬p.isInline

theorem needsSynthesis_of_extends (h : g'.needsSynthesis p) (hx : g'.Extends g) :
    g.needsSynthesis p := by
  rw [needsSynthesis_iff] at h ⊢
  exact h.imp_right fun ht hg => ht <| hx.needsTable_eq (contains_of_needsTable hg) ▸ hg

theorem Flat.of_extends (h : g.Flat p) (hx : g'.Extends g) : g'.Flat p :=
  fun hs => h <| needsSynthesis_of_extends hs hx

theorem establishes_flat : Establishes (fun _ => True) FullyNamed fun g _ p => g.Flat p where
  keeps := Flat.of_extends
  inv s _ h := h.step s
  step s _ h := s.at_place (fun _ hn hs => absurd hs hn)
    fun _ _ _ hg _ => h.not_isInline_retarget hg

-- What synthesis has before it: the places that are still to visit, in order. Everything else in the
-- graph was visited, and is flat.
structure Queue (ws : List String) (g : DefinitionGraph) (done todo : List (String × Nat)) :
    Prop where
  named   : g.FullyNamed
  watched : g.All (Watched ws g)
  nodup   : todo.Nodup
  there   : ∀ t ∈ todo, g.contains t.fst
  flat    : ∀ t ∈ done, g.At (fun g _ p => g.Flat p) t.fst t.snd
  covered : ∀ n, g.placesOf n ⊆ done ++ todo
  ordered : Ordered ws g done todo

namespace Queue

theorem fst_of_mem_placesOf (hs : s ∈ g.placesOf n) : s.fst = n ∧ g.contains n :=
  have ⟨hn, _, hd, _⟩ := mem_placesOf.mp hs
  ⟨hn, contains_of_get? hd⟩

theorem mem_created (hs : s ∈ created.toList.flatMap g.placesOf) :
    s.fst ∈ created ∧ g.contains s.fst := by
  obtain ⟨m, hm, hs⟩ := List.mem_flatMap.mp hs
  obtain ⟨rfl, hc⟩ := fst_of_mem_placesOf hs
  exact ⟨Option.mem_toList.mp hm, hc⟩

-- The new definition is last in the queue, so all that it leads to comes before it.
theorem deep_reached_created (h : Queue ws g done todo) (s : g.Step owner index g' created)
    (hn : n ∈ created) (hd : g'.get? n = some d) (hp : d.properties[j]? = some p) :
    Deep (Reached ws g' (done ++ todo)) p := by
  have hnc := s.not_contains_created hn
  have hx := s.extends
  cases s
  case idle => contradiction
  case give q shape name hg =>
    split at hn
    case isTrue => contradiction
    case isFalse =>
      cases Option.some_inj.mp hn
      cases hd.symm.trans <| hg.get?_fresh hnc
      refine (hg.deep_made h.watched p <| List.mem_of_getElem? hp).mono fun f hf => ?_
      refine hf.right.imp_right fun hc => ⟨hx.contains hc, ?_⟩
      rw [placesOf_of_extends hx hc]
      exact h.covered f.type.element.name

-- The property that was visited is done, and those of the new definition join the queue.
theorem step (h : Queue ws g done ((owner, index) :: todo)) (s : g.Step owner index g' created) :
    Queue ws g' (done ++ [(owner, index)]) (todo ++ created.toList.flatMap g'.placesOf) where
  named   := h.named.step s
  watched := s.watched h.named.toWellNamed h.watched
  nodup := by
    have ⟨_, hnd⟩ := List.nodup_cons.mp h.nodup
    refine List.nodup_append.mpr ⟨hnd, ?_, fun a ha b hb he => ?_⟩
    · cases created <;> simp [nodup_placesOf]
    · have hc := h.there a <| List.mem_cons_of_mem _ ha
      exact s.not_contains_created (mem_created hb).left <| he ▸ hc
  there t ht := by
    cases List.mem_append.mp ht
    case inl ht => exact s.extends.contains <| h.there t <| List.mem_cons_of_mem _ ht
    case inr ht => exact (mem_created ht).right
  flat t ht := by
    cases List.mem_append.mp ht
    case inl ht => exact establishes_flat.at_step h.named (h.flat t ht) s trivial
    case inr ht => exact List.mem_singleton.mp ht ▸ establishes_flat.step s trivial h.named
  covered n t ht := by
    by_cases hc : g.contains n
    case pos =>
      have := h.covered n <| placesOf_of_extends s.extends hc ▸ ht
      simp only [List.mem_append, List.mem_cons] at this ⊢
      tauto
    case neg =>
      have hm : n ∈ created := by
        have := s.names_eq ▸ contains_iff.mp (fst_of_mem_placesOf ht).right
        simpa [mt contains_iff.mpr hc] using this
      exact List.mem_append_right _ <| List.mem_append_right _ <|
        List.mem_flatMap.mpr ⟨n, Option.mem_toList.mpr hm, ht⟩
  ordered := by
    have ⟨hnm, _⟩ := List.nodup_cons.mp h.nodup
    have ⟨_, hc⟩ := List.forall_mem_cons.mp h.there
    refine (h.ordered.right.step s hc hnm).append fun t ht d p hd hp => ?_
    refine h.deep_reached_created s (mem_created ht).left hd hp |>.mono fun f hf => ?_
    exact hf.of_extends (.refl g') <| by simp

end Queue

mutual

-- The names that a property may give to definitions or look up, at any depth.
def namesIn : Property → List String
  | ⟨name, type, _, _, _, fields, _⟩ =>
    Naming.capitalize name :: type.element.name :: namesInAll fields

def namesInAll : List Property → List String
  | []      => []
  | p :: ps => namesIn p ++ namesInAll ps

end

mutual

theorem deep_of_namesIn : ∀ p : Property, namesIn p ⊆ ws →
    Deep (fun p => Naming.capitalize p.name ∈ ws ∧ p.type.element.name ∈ ws) p
  | ⟨_, _, _, _, _, fields, _⟩, h =>
    have ⟨hn, h⟩ := List.cons_subset.mp h
    have ⟨ht, h⟩ := List.cons_subset.mp h
    .intro ⟨hn, ht⟩ <| deep_of_namesInAll fields h

theorem deep_of_namesInAll : ∀ ps : List Property, namesInAll ps ⊆ ws → ∀ p ∈ ps,
    Deep (fun p => Naming.capitalize p.name ∈ ws ∧ p.type.element.name ∈ ws) p
  | [], _ => nofun
  | p :: ps, h =>
    have ⟨hp, h⟩ := List.append_subset.mp h
    List.forall_mem_cons.mpr ⟨deep_of_namesIn p hp, deep_of_namesInAll ps h⟩

end

def usedNames (g : DefinitionGraph) : List String :=
  g.definitions.flatMap fun d => namesInAll d.properties

theorem all_usedNames (g : DefinitionGraph) :
    g.All fun p => Naming.capitalize p.name ∈ g.usedNames ∧ p.type.element.name ∈ g.usedNames :=
  fun _ d hd => deep_of_namesInAll d.properties fun _ hm =>
    List.mem_flatMap.mpr ⟨d, mem_of_get? hd, hm⟩

-- At the beginning everything is in the queue, and all names that are used are watched.
theorem Queue.initial (hn : g.FullyNamed) : Queue g.usedNames g [] (g.names.flatMap g.placesOf) where
  named   := hn
  watched := g.all_usedNames.mono fun _ h => h.imp_right .inl
  nodup := by
    refine List.nodup_flatMap.mpr ⟨fun _ _ => nodup_placesOf, nodup_names.imp fun hne t ht ht' => ?_⟩
    exact hne <| (fst_of_mem_placesOf ht).left.symm.trans (fst_of_mem_placesOf ht').left
  there t ht := by
    obtain ⟨n, _, ht⟩ := List.mem_flatMap.mp ht
    have ⟨he, hc⟩ := fst_of_mem_placesOf ht
    exact he ▸ hc
  flat := nofun
  covered n t ht :=
    List.mem_flatMap.mpr ⟨n, contains_iff.mp (fst_of_mem_placesOf ht).right, ht⟩
  ordered := by
    refine (show Ordered g.usedNames g [] [] from trivial).append fun s _ d p hd hp => ?_
    have hp := g.all_usedNames s.fst d hd p <| List.mem_of_getElem? hp
    exact hp.mono fun _ h => .inl h.right

theorem Steps.queue (s : g.Steps vs g') (h : Queue ws g done (vs.map (·.place) ++ todo)) :
    ∃ names, g'.names = g.names ++ names ∧
      Queue ws g' (done ++ vs.map (·.place)) (todo ++ names.flatMap g'.placesOf) := by
  induction s generalizing done todo
  case refl => exact ⟨[], by simp, by simpa using h⟩
  case step g₁ g₂ g₃ owner index created vs s ss ih =>
    rw [List.map_cons, List.cons_append] at h
    have h := h.step s
    rw [List.append_assoc] at h
    obtain ⟨names, hn, h⟩ := ih h
    refine ⟨created.toList ++ names, by simp [hn, s.names_eq], ?_⟩
    have hp : created.toList.flatMap g₂.placesOf = created.toList.flatMap g₃.placesOf := by
      refine List.flatMap_congr fun n hm => (placesOf_of_extends ss.extends ?_).symm
      exact contains_iff.mpr <| s.names_eq ▸ List.mem_append_right _ hm
    simpa [hp, Visit.place] using h

end DefinitionGraph

-- A visit is fresh if the definition that a reference leads to was visited already.
def Visit.IsFresh (v : Visit) : Prop :=
  ∀ d p e, v.graph.get? v.owner = some d → d.properties[v.index]? = some p →
    v.graph.needsSynthesis p → v.graph.get? p.type.element.name = some e →
    ∀ q ∈ e.properties, v.graph.Flat q

namespace DefinitionGraph

variable {g g' : DefinitionGraph} {ws : List String} {vs : List Visit}
  {done todo : List (String × Nat)} {owner : String} {index : Nat}

theorem Queue.isFresh (h : Queue ws g done ((owner, index) :: todo))
    (hw : ∀ w ∈ ws, g.placesOf w ⊆ done) : Visit.IsFresh ⟨g, owner, index⟩ := by
  intro d p e hd hp hs he q hq
  obtain ⟨j, hj⟩ := List.mem_iff_getElem?.mp hq
  have hk := (h.ordered.left d p hd hp).here <| not_isScalarElement_of_needsSynthesis hs
  have hsub : g.placesOf p.type.element.name ⊆ done := hk.elim (hw _) (·.right)
  have hm : (p.type.element.name, j) ∈ g.placesOf p.type.element.name :=
    mem_placesOf.mpr ⟨rfl, e, he, (List.getElem?_eq_some_iff.mp hj).fst⟩
  obtain ⟨e', he', ha⟩ := h.flat _ <| hsub hm
  cases he.symm.trans he'
  exact ha q hj

-- As long as no watched name is new, and those that are not were visited, all visits are fresh.
theorem Steps.isFresh (s : g.Steps vs g') (h : Queue ws g done (vs.map (·.place) ++ todo))
    (hs : Stays ws g g') (hw : ∀ w ∈ ws, g.placesOf w ⊆ done) : ∀ v ∈ vs, v.IsFresh := by
  induction s generalizing done todo
  case refl => exact nofun
  case step g₁ g₂ g₃ owner index created vs s ss ih =>
    rw [List.map_cons, List.cons_append] at h
    refine List.forall_mem_cons.mpr ⟨h.isFresh hw, ?_⟩
    have hq := h.step s
    rw [List.append_assoc] at hq
    refine ih hq (hs.right s.extends) fun w hm => ?_
    by_cases hc : g₂.contains w
    case pos =>
      rw [placesOf_of_extends s.extends <| hs.left ss.extends w hm hc]
      exact List.subset_append_of_subset_left _ <| hw w hm
    case neg =>
      have hn : g₂.get? w = none := by simpa [contains] using hc
      simp [placesOf, hn]

end DefinitionGraph

namespace GraphM

variable {g g' : DefinitionGraph} {owner : String} {indices : List Nat} {pending names : List String}

theorem place_scanVisits (h : scanProperties owner indices g = .ok names g') :
    (scanVisits owner indices g).map (·.place) = indices.map (owner, ·) := by
  induction indices generalizing g g' names
  case nil => rfl
  case cons index rest ih =>
    obtain ⟨created, g₁, h₁, h⟩ := bind_eq_ok_iff.mp h
    obtain ⟨more, g₂, h₂, h⟩ := bind_eq_ok_iff.mp h
    have s := synthesizeProperty_eq_ok_iff.mp h₁
    rw [scanVisits, DefinitionGraph.synthesizeProperty_eq_ok_iff.mpr s]
    exact congrArg _ <| ih h₂

-- A pass visits the places of the pending definitions, in their order.
theorem place_passVisits (h : pass pending g = .ok names g') :
    (passVisits pending g).map (·.place) = pending.flatMap g'.placesOf := by
  induction pending generalizing g names
  case nil => rfl
  case cons owner rest ih =>
    obtain ⟨d, created, more, g₁, hd, h₂, h₃, rfl⟩ := pass_cons_eq_ok h
    have hx := (pass_ok h₃).left.extends.trans (scanProperties_ok h₂).left.extends
    have hp : g'.placesOf owner = (List.range d.properties.length).map (owner, ·) := by
      rw [DefinitionGraph.placesOf_of_extends hx <| DefinitionGraph.contains_of_get? hd,
        DefinitionGraph.placesOf, hd]
    simp only [passVisits, hd, h₂, List.map_append, List.flatMap_cons, ih h₃, hp,
      place_scanVisits h₂]

end GraphM
end Classwright
