import Classwright.Classes.Model
import Classwright.Language.Kotlin
import Classwright.Proofs.Built
import Classwright.Proofs.Enumerations
import Classwright.Proofs.Text.Literal
import Classwright.Proofs.Text.Number

namespace Classwright

namespace Classes.Model

open Schema Code Yaml Lexicon

variable {lex : Lexicon} {owner : String} {p : Property} {value : Value} {l : String} {x : Binary64}
  {n : Int}

-- A literal of the type that a property is declared with.
def Fits (lex : Lexicon) (owner : String) (p : Property) (value : Value) (l : String) : Prop :=
  match declaredType owner p with
  | .named .. => ∃ e text constant, enumOf? owner p = some e ∧ value = .str text ∧
    (constant, text) ∈ e.constants ∧ l = e.name ++ "." ++ constant
  | .native .string _  => isQuoted l
  | .native .boolean _ => l = lex.trueLiteral ∨ l = lex.falseLiteral
  | .native .integer _ => IsInteger l.toList
  | .native .number _  => IsDecimal l.toList
  | _ => False

-- The defaults that have a literal of their type.
def HasLiteral (p : Property) (value : Value) : Prop :=
  match p.choices with
  | some values => ∃ text, value = .str text ∧
    values.find? (Naming.enumConstant · == Naming.enumConstant text) = some text
  | none => ∀ x, value = .float x → x.isFinite

theorem decimalText_of_isDecimal (h : IsDecimal l.toList) : decimalText l = l := by
  refine if_pos <| List.any_eq_true.mpr ?_
  rcases h.mem with hm | hm
  · exact ⟨_, hm, rfl⟩
  · exact ⟨_, hm, rfl⟩

theorem decimalText_text : decimalText x.text = x.text := by
  cases x
  case finite => exact decimalText_of_isDecimal <| Binary64.isDecimal_text_iff.mpr rfl
  case nan    => rfl
  case infinite negative => cases negative <;> rfl

theorem isDecimal_decimalText_toString : IsDecimal (decimalText (toString n)).toList := by
  have hi := isInteger_toString n
  have hm : ¬(toString n).toList.any fun c => c == '.' || c == 'e' || c == 'E' := by
    simp only [List.any_eq_true, not_exists, not_and]
    intro c hc
    rcases hi.eq_or_isDigit hc with rfl | hd
    · decide
    · simp only [Bool.or_eq_true, beq_iff_eq]
      rintro ((rfl | rfl) | rfl) <;> exact absurd hd (by decide)
  rw [decimalText, if_neg hm, String.toList_append]
  exact .fraction hi <| .toDigits 0

theorem declaredType_of_choices {values : List String} (ha : ¬p.type.isArray)
    (h : p.choices = some values) :
    declaredType owner p = .named (enumName owner p.name) (!p.required) := by
  simp [declaredType, h, ha, TypeExpr.setNullable]

theorem element_of_not_isArray {t : TypeRef} (h : ¬t.isArray) : t.element = t := by
  cases t
  case named => rfl
  case holding name _ _ =>
    have h : name ≠ arrayName := by simpa [TypeRef.isArray, TypeRef.name] using h
    simp [TypeRef.element, h]

theorem declaredType_of_primitive? {primitive : Primitive} (ha : ¬p.type.isArray)
    (h : p.choices = none) (hp : p.type.primitive? = some primitive) :
    declaredType owner p = .native primitive (!p.required) := by
  simp [declaredType, h, ha, elementType, element_of_not_isArray ha, hp, TypeExpr.setNullable]

theorem fits_iff_of_choices {values : List String} (hc : p.choices = some values)
    (h : literal lex owner p value = some l) : Fits lex owner p value l ↔ HasLiteral p value := by
  unfold literal at h
  split at h
  case isTrue => cases h
  case isFalse ha =>
    simp only [Fits, HasLiteral, declaredType_of_choices ha hc, hc, enumOf?, Option.map_some,
      Option.some.injEq]
    constructor
    · rintro ⟨_, text, constant, rfl, rfl, hm, rfl⟩
      have h : enumName owner p.name ++ "." ++ Naming.enumConstant text =
          enumName owner p.name ++ "." ++ constant := by
        simpa [hc] using h
      have h : Naming.enumConstant text = constant := String.append_right_inj _ |>.mp h
      exact ⟨text, rfl, h ▸ EnumDecl.mem_constants_iff.mp hm⟩
    · rintro ⟨text, rfl, hf⟩
      have h : enumName owner p.name ++ "." ++ Naming.enumConstant text = l := by
        simpa [hc] using h
      exact ⟨_, text, _, rfl, rfl, EnumDecl.mem_constants_iff.mpr hf, h.symm⟩

theorem fits_iff_of_choices_eq_none (hc : p.choices = none)
    (h : literal lex owner p value = some l) : Fits lex owner p value l ↔ HasLiteral p value := by
  unfold literal at h
  split at h
  case isTrue => cases h
  case isFalse ha =>
    have hd : ∀ {primitive}, p.type.primitive? = some primitive →
        declaredType owner p = .native primitive (!p.required) :=
      declaredType_of_primitive? ha hc
    simp only [HasLiteral, hc]
    cases value <;> simp only [hc, Option.isSome_none, Bool.false_eq_true, if_false, reduceCtorEq] at h
    case str s =>
      split_ifs at h with hp
      cases h
      simp only [Fits, hd hp]
      exact iff_of_true isQuoted_stringLiteral nofun
    case bool b =>
      split_ifs at h with hp
      cases h
      simp only [Fits, hd hp]
      exact iff_of_true (by cases b <;> simp [boolLiteral]) nofun
    case int n =>
      split_ifs at h with hp hp <;> cases h <;> simp only [Fits, hd hp]
      · exact iff_of_true (isInteger_toString n) nofun
      · exact iff_of_true isDecimal_decimalText_toString nofun
    case float x =>
      split_ifs at h with hp
      cases h
      simp [Fits, hd hp, decimalText_text, Binary64.isDecimal_text_iff]

theorem fits_iff_of_literal_eq_some (h : literal lex owner p value = some l) :
    Fits lex owner p value l ↔ HasLiteral p value := by
  cases hc : p.choices
  case none => exact fits_iff_of_choices_eq_none hc h
  case some => exact fits_iff_of_choices hc h

-- A literal has the type of its property exactly if the default has one, and a property of any other
-- type has no literal.
theorem literal_fits_iff (lex : Lexicon) (owner : String) (p : Property) (value : Value) :
    (∀ l, literal lex owner p value = some l → (Fits lex owner p value l ↔ HasLiteral p value)) ∧
      (p.type.isArray ∨ p.choices = none ∧ p.type.primitive? = none →
        literal lex owner p value = none) := by
  refine ⟨fun _ => fits_iff_of_literal_eq_some, fun h => ?_⟩
  rcases h with ha | ⟨hc, hp⟩
  · simp [literal, ha]
  · cases value <;> simp [literal, hc, hp]

end Classes.Model

namespace Blueprint

open Schema Yaml Classes Classes.Model

-- A lamp with defaults that are no constants of their enumerations, and one that is no number.
def lampDocument : Swagger.Document :=
  let choice (type : String) (values : List Value) (default : Value) : Value :=
    .map [(.str "type", .str type), (.str "enum", .seq values), (.str "default", default)]
  documentOf [("Lamp", objectOf [
    ("watts", choice "integer" [.int 1, .int 2] (.int 1)),
    ("color", choice "string" [.str "red"] (.str "blue")),
    ("mode", choice "string" [.str "on", .str "ON"] (.str "ON")),
    ("level", .map [(.str "type", .str "number"), (.str "default", .float <| .infinite false)])])]

def lampProperties : List Property := [
  { Property.ofType "watts" (.named "integer" true) false with
    enumValues := some ["1", "2"], default := some (.int 1) },
  { Property.ofType "color" (.named "string" true) false with
    enumValues := some ["red"], default := some (.str "blue") },
  { Property.ofType "mode" (.named "string" true) false with
    enumValues := some ["on", "ON"], default := some (.str "ON") },
  { Property.ofType "level" (.named "number" false) false with
    default := some (.float <| .infinite false) }]

theorem schemas_lampDocument : lampDocument.schemas = [⟨"Lamp", lampProperties⟩] := by
  with_unfolding_all rfl

def lampGraph : DefinitionGraph where
  definitions := [.make "Lamp" lampProperties]
  nodup := by decide

theorem ofDocument_lampDocument : ofDocument 3 lampDocument = .ok ⟨lampGraph, []⟩ := by
  rw [ofDocument, initialGraph, schemas_lampDocument]
  rfl

theorem lamp_on_fits : literal .kotlin "Lamp" lampProperties[2] (.str "on") = some "LampMode.ON" ∧
    Fits .kotlin "Lamp" lampProperties[2] (.str "on") "LampMode.ON" := by
  have h : literal .kotlin "Lamp" lampProperties[2] (.str "on") = some "LampMode.ON" := rfl
  exact ⟨h, ((literal_fits_iff _ _ _ _).left _ h).mpr ⟨"on", rfl, rfl⟩⟩

-- All defaults of the lamp have literals, and none of these has the type of its field.
theorem lamp_defaults_do_not_fit : ofDocument 3 lampDocument = .ok ⟨lampGraph, []⟩ ∧
    lampGraph.get? "Lamp" = some (.make "Lamp" lampProperties) ∧
    ∀ p ∈ lampProperties, ∃ value l, p.default = some value ∧
      literal .kotlin "Lamp" p value = some l ∧ ¬Fits .kotlin "Lamp" p value l := by
  refine ⟨ofDocument_lampDocument, rfl, ?_⟩
  simp only [lampProperties, List.forall_mem_cons]
  refine ⟨⟨.int 1, "1", rfl, rfl, ?watts⟩, ⟨.str "blue", "LampColor.BLUE", rfl, rfl, ?color⟩,
    ⟨.str "ON", "LampMode.ON", rfl, rfl, ?mode⟩,
    ⟨.float (.infinite false), ".inf", rfl, rfl, ?level⟩, List.forall_mem_nil _⟩
  all_goals refine mt (fits_iff_of_literal_eq_some rfl).mp ?_
  case watts =>
    rintro ⟨_, ht, _⟩
    cases ht
  case color =>
    rintro ⟨_, ht, hf⟩
    cases ht
    exact absurd hf (by decide)
  case mode =>
    rintro ⟨_, ht, hf⟩
    cases ht
    exact absurd hf (by decide)
  case level => exact fun h => absurd (h _ rfl) (by decide)

end Blueprint

end Classwright
