import Classwright.Proofs.Graph.Endpoint
import Classwright.Proofs.Graph.Link

namespace Classwright

open Schema DefinitionGraph

mutual

inductive Shape where
  | unseen
  | missing
  | scalar (element : TypeRef) (choices : Option (List String))
  | array (items : Shape)
  | object (fields : List Field)

inductive Field where
  | mk (name : String) (required : Bool) (default : Option Yaml.Value) (shape : Shape)

end

mutual

-- Equality of shapes; defaults are compared as YAML values.
def Shape.same : Shape → Shape → Bool
  | .unseen, .unseen => true
  | .missing, .missing => true
  | .scalar element choices, .scalar element' choices' => element == element' && choices == choices'
  | .array s, .array s' => s.same s'
  | .object fields, .object fields' => Field.sameAll fields fields'
  | _, _ => false

def Field.same : Field → Field → Bool
  | ⟨name, required, default, shape⟩, ⟨name', required', default', shape'⟩ =>
    name == name' && required == required' && default == default' && shape.same shape'

def Field.sameAll : List Field → List Field → Bool
  | [], [] => true
  | f :: fs, f' :: fs' => f.same f' && Field.sameAll fs fs'
  | _, _ => false

end

theorem Field.sameAll_iff {fs fs' : List Field} :
    Field.sameAll fs fs' ↔ List.Forall₂ (Field.same · ·) fs fs' := by
  induction fs generalizing fs' <;> cases fs' <;> simp_all [Field.sameAll]

mutual

theorem Shape.same_refl : ∀ s : Shape, s.same s
  | .unseen | .missing | .scalar .. => by simp [Shape.same]
  | .array s       => by simp [Shape.same, s.same_refl]
  | .object fields => by simp [Shape.same, Field.sameAll_refl fields]

theorem Field.same_refl : ∀ f : Field, f.same f
  | ⟨_, _, default, shape⟩ => by
    simp [Field.same, shape.same_refl, Yaml.Value.beq_option_refl default]

theorem Field.sameAll_refl : ∀ fs : List Field, Field.sameAll fs fs
  | []      => by simp [Field.sameAll]
  | f :: fs => by simp [Field.sameAll, f.same_refl, Field.sameAll_refl fs]

end

mutual

theorem Shape.same_trans : ∀ {s₁ s₂ s₃ : Shape}, s₁.same s₂ → s₂.same s₃ → s₁.same s₃
  | .unseen, s₂, s₃, h₁, h₂ | .missing, s₂, s₃, h₁, h₂ => by
    cases s₂ <;> cases s₃ <;> simp_all [Shape.same]
  | .scalar .., s₂, s₃, h₁, h₂ => by cases s₂ <;> cases s₃ <;> simp_all [Shape.same]
  | .array s, s₂, s₃, h₁, h₂ => by
    cases s₂ <;> cases s₃ <;> simp only [Shape.same, Bool.false_eq_true] at h₁ h₂ ⊢
    exact Shape.same_trans h₁ h₂
  | .object fields, s₂, s₃, h₁, h₂ => by
    cases s₂ <;> cases s₃ <;> simp only [Shape.same, Bool.false_eq_true] at h₁ h₂ ⊢
    exact Field.sameAll_trans h₁ h₂

theorem Field.same_trans : ∀ {f₁ f₂ f₃ : Field}, f₁.same f₂ → f₂.same f₃ → f₁.same f₃
  | ⟨_, _, _, shape⟩, ⟨_, _, _, shape₂⟩, ⟨_, _, _, shape₃⟩, h₁, h₂ => by
    simp only [Field.same, Bool.and_eq_true, beq_iff_eq] at h₁ h₂ ⊢
    obtain ⟨⟨⟨hn₁, hr₁⟩, hd₁⟩, hs₁⟩ := h₁
    obtain ⟨⟨⟨hn₂, hr₂⟩, hd₂⟩, hs₂⟩ := h₂
    exact ⟨⟨⟨hn₁.trans hn₂, hr₁.trans hr₂⟩, Yaml.Value.beq_option_trans hd₁ hd₂⟩,
      Shape.same_trans hs₁ hs₂⟩

theorem Field.sameAll_trans : ∀ {fs₁ fs₂ fs₃ : List Field},
    Field.sameAll fs₁ fs₂ → Field.sameAll fs₂ fs₃ → Field.sameAll fs₁ fs₃
  | [], fs₂, fs₃, h₁, h₂ => by cases fs₂ <;> cases fs₃ <;> simp_all [Field.sameAll]
  | f :: fs, fs₂, fs₃, h₁, h₂ => by
    cases fs₂ <;> cases fs₃ <;>
      simp_all only [Field.sameAll, Bool.false_eq_true, Bool.and_eq_true]
    exact ⟨Field.same_trans h₁.left h₂.left, Field.sameAll_trans h₁.right h₂.right⟩

end

namespace DefinitionGraph

-- The properties that a property is made of, if it is no scalar: those of an inline object, or those
-- of the definition that it leads to.
def content? (g : DefinitionGraph) (p : Property) : Option (List Property) :=
  if p.isInline && !g.needsTable p.type.element.name then some p.fields
  else (g.get? p.type.element.name).map (·.properties)

-- The shape of a property, down to a depth.
def shape (g : DefinitionGraph) : Nat → Property → Shape
  | 0, _ => .unseen
  | n + 1, p =>
    let element :=
      if p.type.isScalarElement then .scalar p.type.element p.choices
      else match g.content? p with
        | none => .missing
        | some fields => .object <| fields.map fun f => ⟨f.name, f.required, f.default, g.shape n f⟩
    if p.type.isArray then .array element else element

def field (g : DefinitionGraph) (n : Nat) (p : Property) : Field :=
  ⟨p.name, p.required, p.default, g.shape n p⟩

variable {g g' g'' : DefinitionGraph} {d d' : Definition} {p q : Property} {fs fs' : List Property}
  {owner name n : String} {index k : Nat} {created : Option String} {vs : List Visit}

theorem Field.same_field (hn : p.name = q.name) (hr : p.required = q.required)
    (hd : p.default == q.default) (hs : (g'.shape k p).same (g.shape k q)) :
    (g'.field k p).same (g.field k q) := by
  simp [field, Field.same, hn, hr, hd, hs]

-- Properties are made of the same if their fields are, one by one.
def SameContent (k : Nat) (g' : DefinitionGraph) (fs' : List Property) (g : DefinitionGraph)
    (fs : List Property) : Prop :=
  List.Forall₂ (fun q' q => (g'.field k q').same (g.field k q)) fs' fs

namespace SameContent

theorem refl : SameContent k g fs g fs :=
  List.forall₂_same.mpr fun _ _ => Field.same_refl _

theorem trans {g₁ g₂ g₃ : DefinitionGraph} {fs₁ fs₂ fs₃ : List Property}
    (h₁ : SameContent k g₁ fs₁ g₂ fs₂) (h₂ : SameContent k g₂ fs₂ g₃ fs₃) :
    SameContent k g₁ fs₁ g₃ fs₃ :=
  forall₂_trans h₁ h₂ fun _ _ _ => Field.same_trans

end SameContent

theorem sameContent_iff :
    SameContent k g' fs' g fs ↔ Field.sameAll (fs'.map (g'.field k)) (fs.map (g.field k)) := by
  rw [Field.sameAll_iff, List.forall₂_map_left_iff, List.forall₂_map_right_iff, SameContent]

-- Each definition has a shape that it had before, field by field.
def Keeps (k : Nat) (g' g : DefinitionGraph) : Prop :=
  ∀ n d, g.get? n = some d → ∃ d', g'.get? n = some d' ∧
    SameContent k g' d'.properties g d.properties

namespace Keeps

theorem refl (k : Nat) (g : DefinitionGraph) : Keeps k g g :=
  fun _ d hd => ⟨d, hd, .refl⟩

theorem trans {g₁ g₂ g₃ : DefinitionGraph} (h₁ : Keeps k g₁ g₂) (h₂ : Keeps k g₂ g₃) :
    Keeps k g₁ g₃ := by
  intro n d hd
  obtain ⟨d₂, hd₂, hs₂⟩ := h₂ n d hd
  obtain ⟨d₁, hd₁, hs₁⟩ := h₁ n d₂ hd₂
  exact ⟨d₁, hd₁, hs₁.trans hs₂⟩

end Keeps

-- The shape of a property of that content.
def shapeOf (g : DefinitionGraph) (k : Nat) : Option (List Property) → Shape
  | none    => .missing
  | some fs => .object <| fs.map (g.field k)

theorem shape_succ (hp : ¬p.type.isScalarElement) : g.shape (k + 1) p =
    if p.type.isArray then .array (g.shapeOf k <| g.content? p) else g.shapeOf k (g.content? p) := by
  simp only [shape, hp, Bool.false_eq_true, if_false]
  cases g.content? p <;> rfl

theorem shapeOf_same {fs' fs : Option (List Property)}
    (h : Option.Rel (SameContent k g' · g ·) fs' fs) : (g'.shapeOf k fs').same (g.shapeOf k fs) := by
  cases h
  case none => rfl
  case some h =>
    rw [shapeOf, shapeOf, Shape.same]
    exact sameContent_iff.mp h

theorem shape_same_of_content? (ha : q.type.isArray = p.type.isArray)
    (hq : ¬q.type.isScalarElement) (hp : ¬p.type.isScalarElement)
    (h : Option.Rel (SameContent k g' · g ·) (g'.content? q) (g.content? p)) :
    (g'.shape (k + 1) q).same (g.shape (k + 1) p) := by
  rw [shape_succ hq, shape_succ hp, ha]
  split
  case isTrue  => simpa [Shape.same] using shapeOf_same h
  case isFalse => exact shapeOf_same h

-- Equal properties have the same shape.
theorem shape_same_of_same (h : Property.same p q) : (g.shape k p).same (g.shape k q) := by
  induction k generalizing p q
  case zero => rfl
  case succ k ih =>
    have ht := Property.type_eq_of_same h
    have hc : p.choices = q.choices := by
      simp only [Property.choices, ht, (Property.same_iff.mp h).right.right.right.left]
    by_cases hs : q.type.isScalarElement
    case pos =>
      simp only [shape, ht, hs, if_true, hc]
      exact Shape.same_refl _
    case neg =>
      refine shape_same_of_content? (by rw [ht]) (ht ▸ hs) hs ?_
      simp only [content?, Property.isInline_of_same h, ht]
      split
      case isTrue =>
        refine .some <| (Property.sameAll_iff.mp <| Property.fields_of_same h).imp fun a b hab => ?_
        obtain ⟨hn, _, hr, _, hd, _⟩ := Property.same_iff.mp hab
        exact Field.same_field hn hr hd <| ih hab
      case isFalse =>
        cases g.get? q.type.element.name
        case none   => exact .none
        case some d => exact .some .refl

theorem SameContent.of_sameAll (h : Property.sameAll fs' fs) : SameContent k g fs' g fs :=
  (Property.sameAll_iff.mp h).imp fun _ _ h =>
    have ⟨hn, _, hr, _, hd, _⟩ := Property.same_iff.mp h
    Field.same_field hn hr hd <| shape_same_of_same h

-- The name of a property starts a new name, and its type is `object` or a definition.
def Told (g : DefinitionGraph) (p : Property) : Prop :=
  p.name ≠ "" ∧ PlainName p.name ∧ p.type.element.name ≠ arrayName ∧
    (p.type.element.name = objectName ∨ g.contains p.type.element.name)

instance : DecidablePred g.Told :=
  fun _ => inferInstanceAs (Decidable (_ ∧ _))

theorem Told.of_extends (h : g.Told p) (hx : g'.Extends g) : g'.Told p :=
  ⟨h.left, h.right.left, h.right.right.left, h.right.right.right.imp_right hx.contains⟩

-- Whether the type of a property has a table is told from the start.
theorem Told.needsTable_eq (h : g.Told p) (hx : g'.Extends g)
    (ho : g'.contains objectName → g.contains objectName) :
    g'.needsTable p.type.element.name = g.needsTable p.type.element.name := by
  by_cases hc : g.contains p.type.element.name
  case pos => exact hx.needsTable_eq hc
  case neg =>
    have he := h.right.right.right.resolve_right hc
    have hn := mt (contains_of_needsTable (g := g)) hc
    have hn' := mt (contains_of_needsTable (g := g')) <| mt ho (he ▸ hc)
    rw [he] at hn ⊢
    simp_all

structure Sound (g : DefinitionGraph) : Prop where
  names : ∀ n ∈ g.names, PlainName n
  told  : g.All g.Told

theorem sound_ofSchemas {schemas : List ObjectSchema}
    (h : ∀ s ∈ schemas, PlainName s.name ∧
      ∀ p ∈ s.properties, Property.Deep (ofSchemas schemas).Told p) : (ofSchemas schemas).Sound where
  names n hn := by
    obtain ⟨s, hs, rfl⟩ := contains_ofSchemas.mp <| contains_iff.mpr hn
    exact (h s hs).left
  told := .ofSchemas fun s hs => (h s hs).right

theorem Sound.fullyNamed (h : g.Sound) : g.FullyNamed where
  definitions := h.names
  properties  := h.told.mono fun _ h => h.right.left
  nonempty    := h.told.mono fun _ h => h.left

-- A property keeps its shape if definitions keep that of their properties.
theorem Told.shape_same (h : ¬q.type.isScalarElement → g.Told q) (hx : g'.Extends g)
    (ho : g'.contains objectName → g.contains objectName)
    (hd : Keeps k g' g)
    (hf : ¬q.type.isScalarElement → ∀ f ∈ q.fields, (g'.shape k f).same (g.shape k f)) :
    (g'.shape (k + 1) q).same (g.shape (k + 1) q) := by
  by_cases hs : q.type.isScalarElement
  case pos =>
    simp only [shape, hs, if_true]
    exact Shape.same_refl _
  case neg =>
    have h := h hs
    refine shape_same_of_content? rfl hs hs ?_
    simp only [content?, h.needsTable_eq hx ho]
    split
    case isTrue =>
      refine .some <| List.forall₂_same.mpr fun f hm => ?_
      exact Field.same_field rfl rfl (Yaml.Value.beq_option_refl _) <| hf hs f hm
    -- The type is a definition then: `object` without one would be inline.
    case isFalse hi =>
      have hc : g.contains q.type.element.name := by
        by_contra hc
        have he := h.right.right.right.resolve_right hc
        have ht := mt (contains_of_needsTable (g := g)) hc
        exact hi <| by simp_all [Property.isInline]
      obtain ⟨d, hg⟩ := exists_of_contains hc
      obtain ⟨d', hg', hsame⟩ := hd _ d hg
      rw [hg, hg']
      exact .some hsame

-- A reference is faithful if a definition that merely has the name of the property, where there is
-- one without a table, is made of the same as the one that the reference leads to.
def Faithful (g : DefinitionGraph) (p : Property) : Prop :=
  ∀ fs, ¬p.isInline → g.sharedProperties? (Naming.capitalize p.name) = some fs →
    ∃ d, g.get? p.type.element.name = some d ∧ ∀ k, SameContent k g fs g d.properties

-- Nothing is taken for the reference, or just what it leads to.
def Undisturbed (g : DefinitionGraph) (p : Property) : Prop :=
  p.isInline ∨ (g.sharedProperties? <| Naming.capitalize p.name).isNone ∨
    Naming.capitalize p.name = p.type.element.name

instance : DecidablePred g.Undisturbed :=
  fun _ => inferInstanceAs (Decidable (_ ∨ _))

theorem Undisturbed.faithful (h : g.Undisturbed p) : g.Faithful p := by
  intro fs hi hs
  rcases h with h | h | h
  · contradiction
  · simp [hs] at h
  · obtain ⟨d, hd, _, rfl⟩ := sharedProperties?_eq_some_iff.mp hs
    exact ⟨d, h ▸ hd, fun _ => .refl⟩

theorem isArray_withElement {t : TypeRef} (ht : t.element.name ≠ arrayName) (hn : PlainName n)
    (hb : ¬IsBuiltIn n) : (t.withElement (.ofName n)).isArray = t.isArray := by
  have hne : n ≠ arrayName := fun he => hb <| he ▸ by decide
  rw [TypeRef.ofName_eq hn]
  cases t
  case named m _ => simp_all [TypeRef.withElement, TypeRef.isArray, TypeRef.name, TypeRef.element]
  case holding m _ _ =>
    by_cases hm : m = arrayName <;>
      simp_all [TypeRef.withElement, TypeRef.isArray, TypeRef.name, TypeRef.element]

namespace Gives

variable {shape : List Property}

theorem told (hg : g.Gives owner index p shape name) (h : g.Sound) : g.Told p :=
  hg.here h.told

theorem told_retarget (hg : g.Gives owner index p shape name) (h : g.Sound) :
    (g.give owner index name shape).Told (retarget name p) := by
  rw [Told, h.fullyNamed.element_retarget hg]
  refine ⟨(hg.told h).left, (hg.told h).right.left, fun ha => ?_, .inr contains_give⟩
  exact h.fullyNamed.not_isBuiltIn hg <| ha ▸ by decide

-- What a step finds for a property is what the property was made of.
theorem content?_same (hg : g.Gives owner index p shape name) (hf : g.Faithful p) :
    Option.Rel (SameContent k g · g ·) (some shape) (g.content? p) := by
  have ht : ¬g.needsTable p.type.element.name := by
    have := hg.needs
    simp_all [needsSynthesis]
  rw [content?]
  -- Its own fields, the properties of a definition with its name, or those of its type.
  rcases shape?_cases hg.made with ⟨hi, rfl⟩ | ⟨hi, n, d, hd, rfl, ⟨rfl, hn⟩ | ⟨rfl, _⟩⟩
  · simp only [hi, ht, Bool.true_and, Bool.not_false, if_true]
    exact .some .refl
  · obtain ⟨e, he, hs⟩ := hf _ hi <| sharedProperties?_eq_some_iff.mpr ⟨d, hd, hn, rfl⟩
    simp only [hi, Bool.false_and, Bool.false_eq_true, if_false, he]
    exact .some <| hs k
  · simp only [hi, Bool.false_and, Bool.false_eq_true, if_false, hd]
    exact .some .refl

theorem content?_retarget (hg : g.Gives owner index p shape name) (h : g.Sound) :
    g'.content? (retarget name p) = (g'.get? name).map (·.properties) := by
  simp only [content?, h.fullyNamed.not_isInline_retarget hg, Bool.false_and, Bool.false_eq_true,
    if_false, h.fullyNamed.element_retarget hg]

theorem keeps_of_shape_same (hg : g.Gives owner index p shape name) (h : g.Sound)
    (hq : ∀ q, Property.Deep g.Told q →
      ((g.give owner index name shape).shape k q).same (g.shape k q))
    (hp : ((g.give owner index name shape).shape k (retarget name p)).same (g.shape k p)) :
    Keeps k (g.give owner index name shape) g := by
  intro n d hd
  have hdef := Yaml.Value.beq_option_refl
  refine ⟨_, get?_give_of_some hd, hg.forall₂_given hd (fun q hm => ?_) ?_⟩
  · exact Field.same_field rfl rfl (hdef _) <| hq _ <| h.told n d hd q hm
  · exact Field.same_field rfl rfl (hdef _) hp

-- The definition that a step settles on is made of what the step found for the property.
theorem exists_same (hg : g.Gives owner index p shape name) (h : g.Sound)
    (hq : ∀ q, Property.Deep g.Told q →
      ((g.give owner index name shape).shape k q).same (g.shape k q))
    (hd : Keeps k (g.give owner index name shape) g) :
    ∃ e, (g.give owner index name shape).get? name = some e ∧
      SameContent k (g.give owner index name shape) e.properties g shape := by
  by_cases hc : g.contains name
  case pos =>
    obtain ⟨d, hg'⟩ := exists_of_contains hc
    obtain ⟨e, he, hs⟩ := hd name d hg'
    exact ⟨e, he, hs.trans <| .of_sameAll <| hg.same hg'⟩
  case neg =>
    refine ⟨_, hg.get?_fresh hc, List.forall₂_same.mpr fun f hm => ?_⟩
    exact Field.same_field rfl rfl (Yaml.Value.beq_option_refl _) <|
      hq f <| hg.deep_made h.told f hm

-- A step keeps the shape of every property, and the one it gives a type keeps its own. The induction
-- is on the depth: one level down, definitions have the properties from before or the new type, and
-- what is created or used again is made of what the property was made of.
theorem shape_same (hg : g.Gives owner index p shape name) (h : g.Sound) (hf : g.Faithful p)
    (k : Nat) :
    (∀ q, Property.Deep g.Told q →
        ((g.give owner index name shape).shape k q).same (g.shape k q)) ∧
      ((g.give owner index name shape).shape k (retarget name p)).same (g.shape k p) := by
  induction k
  case zero => exact ⟨fun _ _ => rfl, rfl⟩
  case succ k ih =>
    have hd := hg.keeps_of_shape_same h ih.left ih.right
    constructor
    · have s := Step.give p shape name hg
      exact fun q hq => Told.shape_same hq.here s.extends
        (s.contains_of_isBuiltIn <| by decide) hd fun hs f hm => ih.left f <| hq.field hs hm
    · have hn := h.fullyNamed
      refine shape_same_of_content?
        (isArray_withElement (hg.told h).right.right.left (hn.plainName hg) (hn.not_isBuiltIn hg))
        (hn.not_isScalarElement_retarget hg) hg.not_isScalarElement ?_
      obtain ⟨e, he, hs⟩ := hg.exists_same h ih.left hd
      rw [content?_retarget hg h, he]
      cases hc : g.content? p <;> have hr := hc ▸ hg.content?_same hf (k := k) <;> cases hr
      case some.some hs' => exact .some <| hs.trans hs'

end Gives

theorem Step.sound (s : g.Step owner index g' created) (h : g.Sound) : g'.Sound where
  names := (h.fullyNamed.step s).definitions
  told  := s.all (fun _ => (·.of_extends s.extends))
    (fun _ _ _ hg he _ => he ▸ hg.told_retarget h) h.told

end DefinitionGraph

-- A visit is faithful if its property is, or is left alone.
def Visit.IsFaithful (v : Visit) : Prop :=
  ∀ d p, v.graph.get? v.owner = some d → d.properties[v.index]? = some p →
    v.graph.needsSynthesis p → v.graph.Faithful p

def Visit.IsUndisturbed (v : Visit) : Prop :=
  ∀ d ∈ v.graph.get? v.owner, ∀ p ∈ d.properties[v.index]?, v.graph.Undisturbed p

instance : DecidablePred Visit.IsUndisturbed :=
  fun v => inferInstanceAs (Decidable (∀ d ∈ v.graph.get? v.owner, ∀ p ∈ _, _))

theorem Visit.IsUndisturbed.isFaithful {v : Visit} (h : v.IsUndisturbed) : v.IsFaithful :=
  fun d p hd hp _ => (h d hd p hp).faithful

namespace DefinitionGraph

variable {g g' : DefinitionGraph} {p q : Property} {owner n : String} {index k : Nat}
  {created : Option String} {vs : List Visit} {fs fs' : List Property}

theorem Step.keeps (s : g.Step owner index g' created) (h : g.Sound)
    (hf : Visit.IsFaithful ⟨g, owner, index⟩) : Keeps k g' g := by
  cases s
  case idle => exact .refl k g
  case give p shape name hg =>
    obtain ⟨d, hd, hp⟩ := hg.found
    have ⟨hq, hr⟩ := hg.shape_same h (hf d p hd hp hg.needs) k
    exact hg.keeps_of_shape_same h hq hr

theorem Steps.keeps (s : g.Steps vs g') (h : g.Sound) (hf : ∀ v ∈ vs, v.IsFaithful) :
    Keeps k g' g := by
  induction s
  case refl => exact .refl k _
  case step s _ ih =>
    have ⟨hv, hf⟩ := List.forall_mem_cons.mp hf
    exact (ih (s.sound h) hf).trans <| s.keeps h hv

-- Where all properties are settled, shapes are told by definitions alone.
theorem settled_of_content? (hs : ∀ n d, g.get? n = some d → ∀ p ∈ d.properties, g.Settled p)
    (hp : g.Settled p) (hn : ¬p.type.isScalarElement) (hc : g.content? p = some fs) :
    ∀ f ∈ fs, g.Settled f := by
  obtain ⟨e, he, h⟩ := hp.resolve_left hn
  rw [content?, needsTable_of_get? he, he] at hc
  split at hc
  case isTrue ht =>
    have hf : p.fields = [] := by simp_all
    simp [← Option.some_inj.mp hc, hf]
  case isFalse => exact Option.some_inj.mp hc ▸ hs _ e he

theorem Retains.content?_eq (h : g'.Retains g) (hc : g.contains p.type.element.name) :
    g'.content? p = g.content? p := by
  obtain ⟨e, he⟩ := exists_of_contains hc
  obtain ⟨e', he', hp, ht⟩ := h _ e he
  simp [content?, he, he', hp, ht, needsTable_of_get?]

theorem Retains.shape_eq (h : g'.Retains g)
    (hs : ∀ n d, g.get? n = some d → ∀ p ∈ d.properties, g.Settled p) (hp : g.Settled p) :
    g'.shape k p = g.shape k p := by
  induction k generalizing p
  case zero => rfl
  case succ k ih =>
    by_cases hn : p.type.isScalarElement
    case pos => simp only [shape, hn, if_true]
    case neg =>
      obtain ⟨e, he, _⟩ := hp.resolve_left hn
      rw [shape_succ hn, shape_succ hn, h.content?_eq <| contains_of_get? he]
      have hf : g'.shapeOf k (g.content? p) = g.shapeOf k (g.content? p) := by
        cases hc : g.content? p
        case none => rfl
        case some fs =>
          refine congrArg Shape.object <| List.map_congr_left fun f hm => ?_
          rw [field, field, ih <| settled_of_content? hs hp hn hc f hm]
      rw [hf]

theorem Retains.keeps (h : g'.Retains g)
    (hs : ∀ n d, g.get? n = some d → ∀ p ∈ d.properties, g.Settled p) (k : Nat) :
    Keeps k g' g := by
  intro n d hd
  obtain ⟨d', hd', hp, _⟩ := h n d hd
  refine ⟨d', hd', ?_⟩
  rw [hp]
  refine List.forall₂_same.mpr fun f hm => Field.same_field rfl rfl (Yaml.Value.beq_option_refl _) ?_
  exact h.shape_eq hs (hs n d hd f hm) ▸ Shape.same_refl _

-- Shapes do not tell which edges properties refer to.
theorem shape_unlinkProperty : g.shape k (unlinkProperty p) = g.shape k p := by
  cases k <;> rfl

theorem SameContent.of_unlinked (hs : ∀ p, (g'.shape k p).same (g.shape k p))
    (h : fs'.map unlinkProperty = fs.map unlinkProperty) : SameContent k g' fs' g fs := by
  rw [← List.forall₂_eq_eq_eq, List.forall₂_map_left_iff, List.forall₂_map_right_iff] at h
  refine h.imp fun p q he => Field.same_field ?_ ?_ ?_ ?_
  · exact congrArg (·.name) he
  · exact congrArg (·.required) he
  · exact congrArg (·.default) he ▸ Yaml.Value.beq_option_refl _
  · have hp := shape_unlinkProperty (g := g) (p := p) (k := k)
    rw [he, shape_unlinkProperty] at hp
    exact hp ▸ hs p

theorem Alike.shape_same (h : g'.Alike g) (p : Property) : (g'.shape k p).same (g.shape k p) := by
  induction k generalizing p
  case zero => rfl
  case succ k ih =>
    by_cases hs : p.type.isScalarElement
    case pos =>
      simp only [shape, hs, if_true]
      exact Shape.same_refl _
    case neg =>
      refine shape_same_of_content? rfl hs hs ?_
      simp only [content?, h.needsTable_eq]
      split
      case isTrue => exact .some <| .of_unlinked ih rfl
      case isFalse =>
        cases hd : g.get? p.type.element.name
        case none =>
          have hn : g'.get? p.type.element.name = none := by
            have := h p.type.element.name
            simp_all
          rw [hn]
          exact .none
        case some d =>
          obtain ⟨d', hd', hp, _⟩ := h.exists_of_get? hd
          rw [hd']
          exact .some <| .of_unlinked ih hp

theorem Alike.keeps (h : g'.Alike g) (k : Nat) : Keeps k g' g := by
  intro n d hd
  obtain ⟨d', hd', hp, _⟩ := h.exists_of_get? hd
  exact ⟨d', hd', .of_unlinked h.shape_same hp⟩

end DefinitionGraph
end Classwright
