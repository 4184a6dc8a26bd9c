import Classwright.Schema.Property
import Mathlib.Data.List.Forall2

namespace Classwright

theorem forall₂_trans {α β γ : Type} {R : α → β → Prop} {S : β → γ → Prop} {T : α → γ → Prop}
    {as : List α} {bs : List β} {cs : List γ} (h₁ : List.Forall₂ R as bs)
    (h₂ : List.Forall₂ S bs cs) (h : ∀ a b c, R a b → S b c → T a c) : List.Forall₂ T as cs := by
  induction h₁ generalizing cs
  case nil =>
    cases h₂
    exact .nil
  case cons hr _ ih =>
    rcases h₂ with _ | ⟨hs, h₂⟩
    exact .cons (h _ _ _ hr hs) <| ih h₂

end Classwright

namespace Classwright.Yaml

theorem Binary64.same_trans {x y z : Binary64} (h₁ : x.same y) (h₂ : y.same z) : x.same z := by
  cases x <;> cases y <;> cases z <;> simp_all [Binary64.same]
  case finite.finite.finite => grind

namespace Value

theorem sameEntries_iff {as bs : List (Value × Value)} :
    sameEntries as bs ↔ ∀ a ∈ as, ∃ b ∈ bs, same a.1 b.1 ∧ same a.2 b.2 := by
  induction as <;> simp_all [sameEntries]

mutual

theorem same_refl : ∀ v : Value, same v v
  | .null | .bool _ | .int _ | .str _ => by simp [same]
  | .float x => by simp [same, Binary64.same_refl]
  | .seq items => by rw [same]; exact sameItems_refl items
  | .map entries => by
    simp only [same, beq_self_eq_true, Bool.true_and, sameEntries_iff]
    exact fun a ha => ⟨a, ha, sameEntry_refl entries a ha⟩

theorem sameItems_refl : ∀ items : List Value, sameItems items items
  | []      => by simp [sameItems]
  | v :: vs => by simp [sameItems, same_refl v, sameItems_refl vs]

theorem sameEntry_refl : ∀ entries : List (Value × Value), ∀ a ∈ entries, same a.1 a.1 ∧ same a.2 a.2
  | (k, v) :: rest, a, ha => by
    cases ha
    case head    => exact ⟨same_refl k, same_refl v⟩
    case tail ha => exact sameEntry_refl rest a ha

end

mutual

theorem same_trans : ∀ {a b c : Value}, same a b → same b c → same a c
  | .null, b, c, h₁, h₂ => by
    cases b <;> cases c <;> simp only [same, Bool.false_eq_true] at h₁ h₂ ⊢
  | .bool _, b, c, h₁, h₂ | .int _, b, c, h₁, h₂ | .str _, b, c, h₁, h₂ => by
    cases b <;> cases c <;> simp only [same, Bool.false_eq_true, beq_iff_eq] at h₁ h₂ ⊢
    exact h₁.trans h₂
  | .float _, b, c, h₁, h₂ => by
    cases b <;> cases c <;> simp only [same, Bool.false_eq_true] at h₁ h₂ ⊢
    exact Binary64.same_trans h₁ h₂
  | .seq items, b, c, h₁, h₂ => by
    cases b <;> cases c <;> simp only [same, Bool.false_eq_true] at h₁ h₂ ⊢
    exact sameItems_trans h₁ h₂
  | .map entries, b, c, h₁, h₂ => by
    cases b <;> cases c <;>
      simp only [same, Bool.false_eq_true, Bool.and_eq_true, beq_iff_eq] at h₁ h₂ ⊢
    refine ⟨h₁.left.trans h₂.left, sameEntries_iff.mpr fun a ha => ?_⟩
    exact sameEntry_trans ha (sameEntries_iff.mp h₁.right a ha) <| sameEntries_iff.mp h₂.right

theorem sameItems_trans : ∀ {as bs cs : List Value},
    sameItems as bs → sameItems bs cs → sameItems as cs
  | [], bs, cs, h₁, h₂ => by cases bs <;> cases cs <;> simp_all [sameItems]
  | a :: as, bs, cs, h₁, h₂ => by
    cases bs <;> cases cs <;> simp_all only [sameItems, Bool.false_eq_true, Bool.and_eq_true]
    exact ⟨same_trans h₁.left h₂.left, sameItems_trans h₁.right h₂.right⟩

theorem sameEntry_trans : ∀ {as bs cs : List (Value × Value)} {a : Value × Value}, a ∈ as →
    (∃ b ∈ bs, same a.1 b.1 ∧ same a.2 b.2) → (∀ b ∈ bs, ∃ c ∈ cs, same b.1 c.1 ∧ same b.2 c.2) →
    ∃ c ∈ cs, same a.1 c.1 ∧ same a.2 c.2
  | (k, v) :: rest, bs, cs, a, ha, h₁, h₂ => by
    cases ha
    case tail ha => exact sameEntry_trans ha h₁ h₂
    case head =>
      obtain ⟨b, hb, hk, hv⟩ := h₁
      obtain ⟨c, hc, hk', hv'⟩ := h₂ b hb
      exact ⟨c, hc, same_trans hk hk', same_trans hv hv'⟩

end

-- Equality of what a property may leave out.
theorem beq_option_refl (v : Option Value) : (v == v) = true := by
  cases v
  case none   => rfl
  case some v => exact same_refl v

theorem beq_option_trans {a b c : Option Value} (h₁ : a == b) (h₂ : b == c) : a == c := by
  cases a <;> cases b <;> cases c <;> try trivial
  exact same_trans (a := _) (b := _) h₁ h₂

end Value
end Classwright.Yaml

namespace Classwright.Schema.Property

variable {p q r : Property} {ps qs rs : List Property}

theorem same_iff :
    same p q ↔ p.name = q.name ∧ p.type = q.type ∧ p.required = q.required ∧
      p.enumValues = q.enumValues ∧ (p.default == q.default) ∧ sameAll p.fields q.fields ∧
      p.refersTo = q.refersTo := by
  cases p; cases q
  simp [same, and_assoc]

theorem sameAll_iff : sameAll ps qs ↔ List.Forall₂ (same · ·) ps qs := by
  induction ps generalizing qs <;> cases qs <;> simp_all [sameAll]

mutual

theorem same_refl : ∀ p : Property, same p p
  | ⟨_, _, _, _, default, fields, _⟩ => by
    simp [same, sameAll_refl fields, Yaml.Value.beq_option_refl default]

theorem sameAll_refl : ∀ ps : List Property, sameAll ps ps
  | []      => by simp [sameAll]
  | p :: ps => by simp [sameAll, same_refl p, sameAll_refl ps]

end

mutual

theorem same_trans : ∀ {p q r : Property}, same p q → same q r → same p r
  | ⟨_, _, _, _, _, fields, _⟩, q, r, h₁, h₂ => by
    rw [same_iff] at h₁ h₂ ⊢
    obtain ⟨h₁n, h₁t, h₁r, h₁e, h₁d, h₁f, h₁k⟩ := h₁
    obtain ⟨h₂n, h₂t, h₂r, h₂e, h₂d, h₂f, h₂k⟩ := h₂
    exact ⟨h₁n.trans h₂n, h₁t.trans h₂t, h₁r.trans h₂r, h₁e.trans h₂e,
      Yaml.Value.beq_option_trans h₁d h₂d, sameAll_trans h₁f h₂f, h₁k.trans h₂k⟩

theorem sameAll_trans : ∀ {ps qs rs : List Property}, sameAll ps qs → sameAll qs rs → sameAll ps rs
  | [], qs, rs, h₁, h₂ => by cases qs <;> cases rs <;> simp_all [sameAll]
  | p :: ps, qs, rs, h₁, h₂ => by
    cases qs <;> cases rs <;> simp_all only [sameAll, Bool.false_eq_true, Bool.and_eq_true]
    exact ⟨same_trans h₁.left h₂.left, sameAll_trans h₁.right h₂.right⟩

end

theorem name_eq_of_same (h : same p q) : p.name = q.name :=
  (same_iff.mp h).left

theorem type_eq_of_same (h : same p q) : p.type = q.type :=
  (same_iff.mp h).right.left

theorem fields_of_same (h : same p q) : sameAll p.fields q.fields :=
  (same_iff.mp h).right.right.right.right.right.left

theorem isEmpty_of_sameAll (h : sameAll ps qs) : ps.isEmpty = qs.isEmpty := by
  cases ps <;> cases qs <;> simp_all [sameAll]

theorem map_name_of_sameAll (h : sameAll ps qs) : ps.map (·.name) = qs.map (·.name) := by
  rw [sameAll_iff] at h
  induction h
  case nil          => rfl
  case cons h _ ih  => simp [name_eq_of_same h, ih]

theorem exists_same_of_mem_left (h : sameAll ps qs) (hp : p ∈ ps) : ∃ q ∈ qs, same p q := by
  rw [sameAll_iff] at h
  induction h
  case nil => contradiction
  case cons h _ ih =>
    cases hp
    case head    => exact ⟨_, List.mem_cons_self, h⟩
    case tail hp => exact have ⟨q, hq, h⟩ := ih hp; ⟨q, List.mem_cons_of_mem _ hq, h⟩

theorem exists_same_of_mem_right (h : sameAll ps qs) (hq : q ∈ qs) : ∃ p ∈ ps, same p q := by
  rw [sameAll_iff] at h
  induction h
  case nil => contradiction
  case cons h _ ih =>
    cases hq
    case head    => exact ⟨_, List.mem_cons_self, h⟩
    case tail hq => exact have ⟨p, hp, h⟩ := ih hq; ⟨p, List.mem_cons_of_mem _ hp, h⟩

end Classwright.Schema.Property
