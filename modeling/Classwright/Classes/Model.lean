import Classwright.Classes.Naming
import Classwright.Code.ClassDecl
import Classwright.Settings.Basic

namespace Classwright.Classes.Model

open Schema Code Settings Template Yaml

def decimalText (text : String) : String :=
  if text.toList.any fun c => c == '.' || c == 'e' || c == 'E' then text else text ++ ".0"

-- A default as a literal of the property's type; none if the two disagree.
def literal (lex : Lexicon) (owner : String) (p : Property) (value : Value) : Option String :=
  if p.type.isArray then none
  else match value with
    | .str s =>
      if p.choices.isSome then some (enumName owner p.name ++ "." ++ Naming.enumConstant s)
      else if p.type.primitive? = some .string then some (lex.stringLiteral s)
      else none
    | .bool b => if p.type.primitive? = some .boolean then some (lex.boolLiteral b) else none
    | .int n =>
      if p.type.primitive? = some .integer then some (toString n)
      else if p.type.primitive? = some .number then some (decimalText (toString n))
      else none
    | .float x => if p.type.primitive? = some .number then some (decimalText x.text) else none
    | _ => none

-- The default of a field: its literal, or else null where null is allowed.
def defaultOf (lex : Lexicon) (owner : String) (p : Property) : Option String :=
  if !lex.supportsDefaults then none
  else (p.default.bind (literal lex owner p)).or
    (if p.required then none else some lex.nullLiteral)

def equalityForm (lex : Lexicon) (p : Property) : String :=
  if p.type.isArray then lex.equality.array
  else if p.choices.isSome then lex.equality.generic
  else match p.type.primitive? with
    | some .string => lex.equality.generic
    | some _ => lex.equality.numeric
    | none => lex.equality.object

def equalsMethod (lex : Lexicon) (d : Definition) : Method :=
  let forms := lex.equality
  let guards := forms.guards.map fun line => Statement.line (fill line [("class", d.name)])
  let clauses := d.properties.map fun p => fill (equalityForm lex p) [("name", p.name)]
  let comparison :=
    if clauses.isEmpty then lex.trueLiteral else forms.conjunction.intercalate clauses
  { Method.make forms.methodName [.make forms.parameterName (.any true)] (.native .boolean false)
      (guards ++ [.line (lex.returnStatement comparison)]) with
    isOverride := true }

def hashCodeMethod? (lex : Lexicon) (d : Definition) : Option Method :=
  if !lex.needsHashCode then none
  else lex.hashCode.map fun template =>
    let value := fill template [("fields", Lexicon.commaList (d.properties.map (·.name)))]
    { Method.make "hashCode" [] (.named lex.hashCodeType false)
        [.line (lex.returnStatement value)] with
      isOverride := true }

def enumOf? (owner : String) (p : Property) : Option EnumDecl :=
  p.choices.map fun values => ⟨enumName owner p.name, values⟩

def fieldOf (lex : Lexicon) (owner : String) (p : Property) : Field :=
  .make p.name (declaredType owner p) (defaultOf lex owner p)

-- The imports of the types of a property; its own enumeration needs none.
def importsOf (s : ClassSettings) (owner : String) (p : Property) : List Import :=
  let hoisted := (enumOf? owner p).map (·.name)
  ((declaredType owner p).namedTypes.filter (hoisted != some ·)).map (.ofClass s.package)

def classOf (lex : Lexicon) (s : ClassSettings) (d : Definition) : ClassDecl :=
  let fields := d.properties.map (fieldOf lex d.name)
  { ClassDecl.make d.name s.package with
    isData := !d.properties.isEmpty
    inherits := s.inherits
    implements := s.implements
    fields := fields
    constructor := some ⟨d.name, fields.map (·.toParameter)⟩
    methods := equalsMethod lex d :: (hashCodeMethod? lex d).toList
    enums := d.properties.filterMap (enumOf? d.name)
    : ClassDecl }.addImports (d.properties.flatMap (importsOf s d.name))

end Classwright.Classes.Model
