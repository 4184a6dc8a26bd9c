import Classwright.Graph.Synthesis
import Classwright.Proofs.Schema.Name
import Classwright.Proofs.Schema.Same

namespace Classwright.Schema

namespace TypeRef

variable {t : TypeRef} {n : String}

theorem ofName_eq (h : PlainName n) : ofName n = .named n false := by
  simp [ofName, make, h.resolveReference_eq]

@[simp] theorem element_withElement_ofName : (t.withElement (ofName n)).element = ofName n := by
  cases t
  case named => rfl
  case holding m _ _ => by_cases h : m == arrayName <;> simp [withElement, h, element, ofName, make]

@[simp] theorem name_ofName : (ofName n).name = resolveReference n :=
  rfl

theorem not_isScalarElement_withElement (hp : PlainName n) (h : ¬IsBuiltIn n) :
    ¬(t.withElement (ofName n)).isScalarElement := by
  rw [isScalarElement, element_withElement_ofName, ofName_eq hp]
  intro hn
  simp only [isNative, primitive?, name, isEnum, Bool.or_false] at hn
  obtain ⟨p, hp⟩ := Option.isSome_iff_exists.mp hn
  exact h <| .of_ofName?_eq_some hp

end TypeRef

namespace Property

-- A property is inline if its element has no name of its own to look up, or brings fields along.
def isInline (p : Property) : Bool :=
  p.type.element.name == objectName || !p.fields.isEmpty

theorem isInline_of_same {p q : Property} (h : same p q) : p.isInline = q.isInline := by
  simp [isInline, type_eq_of_same h, isEmpty_of_sameAll <| fields_of_same h]

-- A predicate holds deeply of a property if it holds of it and of all fields of its inline objects.
-- Scalars are made of nothing, so nothing is asked of them.
inductive Deep (P : Property → Prop) : Property → Prop
  | scalar {p} : p.type.isScalarElement → Deep P p
  | intro {p} : P p → (∀ f ∈ p.fields, Deep P f) → Deep P p

namespace Deep

variable {P Q : Property → Prop} {p f : Property}

theorem here (h : Deep P p) (hs : ¬p.type.isScalarElement) : P p := by
  cases h
  case scalar    => contradiction
  case intro h _ => exact h

theorem field (h : Deep P p) (hs : ¬p.type.isScalarElement) (hf : f ∈ p.fields) : Deep P f := by
  cases h
  case scalar    => contradiction
  case intro _ h => exact h f hf

theorem mono (hPQ : ∀ p, P p → Q p) (h : Deep P p) : Deep Q p := by
  induction h
  case scalar h     => exact scalar h
  case intro h _ ih => exact intro (hPQ _ h) ih

theorem iff : Deep P p ↔ p.type.isScalarElement ∨ P p ∧ ∀ f ∈ p.fields, Deep P f where
  mp h := by
    cases h
    case scalar h   => exact .inl h
    case intro h hf => exact .inr ⟨h, hf⟩
  mpr
    | .inl h       => scalar h
    | .inr ⟨h, hf⟩ => intro h hf

mutual

def decidable [DecidablePred P] : ∀ p, Decidable (Deep P p)
  | ⟨_, _, _, _, _, fields, _⟩ =>
    have := decidableAll fields
    decidable_of_iff' _ iff

def decidableAll [DecidablePred P] : ∀ ps : List Property, Decidable (∀ p ∈ ps, Deep P p)
  | []      => .isTrue nofun
  | p :: ps =>
    have := decidable p
    have := decidableAll ps
    decidable_of_iff' _ List.forall_mem_cons

end

instance [DecidablePred P] : DecidablePred (Deep P) :=
  decidable

end Deep

@[simp] theorem name_retarget {p : Property} {n : String} :
    (DefinitionGraph.retarget n p).name = p.name :=
  rfl

@[simp] theorem fields_retarget {p : Property} {n : String} :
    (DefinitionGraph.retarget n p).fields = [] :=
  rfl

@[simp] theorem element_retarget {p : Property} {n : String} :
    (DefinitionGraph.retarget n p).type.element = .ofName n :=
  TypeRef.element_withElement_ofName

theorem Deep.retarget {P : Property → Prop} {p : Property} {n : String}
    (h : P (DefinitionGraph.retarget n p)) : Deep P (DefinitionGraph.retarget n p) :=
  .intro h <| by simp

end Property
end Classwright.Schema
