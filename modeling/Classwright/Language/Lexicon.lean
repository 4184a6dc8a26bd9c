import Classwright.Schema.TypeRef
import Classwright.Text.Naming
import Classwright.Text.Template

namespace Classwright

open Schema

inductive Language where
  | java
  | kotlin
  | typescript
  | python
  deriving Repr, DecidableEq

namespace Language

def all : List Language := [.java, .kotlin, .typescript, .python]

def name : Language → String
  | .java => "java"
  | .kotlin => "kotlin"
  | .typescript => "typescript"
  | .python => "python"

-- A language by a name given on the command line: short names and either letter case count.
def ofName? (name : String) : Option Language :=
  match name.toLower with
  | "java" => some .java
  | "kotlin" => some .kotlin
  | "kt" => some .kotlin
  | "typescript" => some .typescript
  | "ts" => some .typescript
  | "python" => some .python
  | "py" => some .python
  | _ => none

-- A language by a name in a settings file, where only one short name is known.
def ofKey? (key : String) : Option Language :=
  match key with
  | "java" => some .java
  | "kotlin" => some .kotlin
  | "typescript" => some .typescript
  | "ts" => some .typescript
  | "python" => some .python
  | _ => none

def unsupported (name : String) : String := "unsupported language: " ++ name.toLower

end Language

structure PerPrimitive where
  string : String
  number : String
  integer : String
  boolean : String

namespace PerPrimitive

def get (texts : PerPrimitive) : Primitive → String
  | .string => texts.string
  | .number => texts.number
  | .integer => texts.integer
  | .boolean => texts.boolean

end PerPrimitive

structure EnumLayout where
  opening : String
  -- Slots `constant` and `value`.
  constant : String
  between : String
  last : String
  closing : String

structure ClassLayout where
  opening : String
  closing : String
  -- What stands in a class without members.
  emptyBody : String

structure EqualityForms where
  methodName : String
  parameterName : String
  -- The lines before the comparison; slot `class`.
  guards : List String
  -- The forms of a comparison of two fields; slot `name`.
  numeric : String
  generic : String
  object : String
  array : String
  conjunction : String

structure TableForms where
  -- Slots `row` and `column`.
  rowGetters : PerPrimitive
  listLiteral : String
  -- The strings of a joined string; slot `value`.
  split : String
  -- Strings joined into one; slot `value`.
  join : String
  -- The ids of objects joined into one string; slot `value`.
  joinIds : String
  -- The value of `expr` for each `row` of `items`.
  mapRows : String
  -- The first of a list, or null; slot `value`.
  firstOrNull : String
  -- `value`, or null if `check` is null.
  nullGuard : String
  -- Slots `type` and `value`.
  enumFromValue : String
  enumToValue : String
  -- Slots `type`, `item` and `items`.
  forEach : String
  databaseDeclaration : String
  rowDeclaration : String

structure RequestForms where
  -- Slots `name` and `value`.
  variableDeclaration : String
  ifNotNull : String
  toText : String
  -- The url with its query, if there is one; slots `url` and `query`.
  finishUrl : String

-- What a language writes for each construct of a generated class: flags, and templates of which the
-- comments name the slots. Printers read only the lexicon; none of them asks which language it is
-- printing.
structure Lexicon where
  language : Language
  fileExtension : String
  snakeCaseFileNames : Bool
  -- Slot `package`; none if files do not name their package.
  packageLine : Option String
  prelude : List String
  -- Slots `package`, `name` and `file`.
  importLine : String
  -- The same inside one package; none if a package needs no imports of its own members.
  siblingImportLine : Option String
  classLayout : ClassLayout
  enumLayout : EnumLayout
  indent : String
  blockOpen : String
  blockClose : Option String
  -- What stands in a block without statements.
  emptyBlock : Option String
  statementEnd : String
  usesDataClasses : Bool
  declaresFields : Bool
  constructorInHeader : Bool
  constructorDeclaresFields : Bool
  needsHashCode : Bool
  supportsDefaults : Bool
  -- Enumerations stand inside the class that they belong to.
  nestsEnums : Bool
  classKeyword : String
  dataClassKeyword : String
  staticClassKeyword : String
  dataClassDecorator : Option String
  extendsClause : String
  implementsClause : String
  -- Slot `list`; if there is such a clause, it lists superclass and interfaces together.
  supertypesClause : Option String
  -- Slots `name`, `type` and `init`, as in the three that follow.
  field : String
  constant : String
  parameter : String
  fieldParameter : String
  initializer : String
  -- Slots `class` and `params`.
  constructor : String
  -- Slots `override`, `name`, `params` and `ret`.
  method : String
  staticMethod : String
  overrideMarker : String
  -- The parameter that stands for the object itself.
  receiver : Option String
  -- Slots `owner` and `name`.
  enumReference : String
  nativeTypes : PerPrimitive
  -- The native types where null or a type argument is wanted.
  boxedTypes : Option PerPrimitive
  listType : String
  nullableType : String
  voidType : String
  anyType : String
  selfReference : String
  nullLiteral : String
  trueLiteral : String
  falseLiteral : String
  nonNullAssertion : Option String
  -- Slots `class` and `args`.
  construct : String
  namedArguments : Bool
  -- Slots `object` and `name`, where `object` may be null.
  nullableMember : String
  equality : EqualityForms
  -- Slot `fields`; none if the language derives hashing on its own.
  hashCode : Option String
  hashCodeType : String
  table : TableForms
  request : RequestForms

namespace Lexicon

open Template

def fileStem (lex : Lexicon) (className : String) : String :=
  if lex.snakeCaseFileNames then Naming.snake className else className

def fileName (lex : Lexicon) (className : String) : String :=
  lex.fileStem className ++ "." ++ lex.fileExtension

def statement (lex : Lexicon) (code : String) : String := code ++ lex.statementEnd

def returnStatement (lex : Lexicon) (value : String) : String := lex.statement ("return " ++ value)

def member (_ : Lexicon) (object name : String) : String := object ++ "." ++ name

def selfMember (lex : Lexicon) (name : String) : String := lex.member lex.selfReference name

def escapeChar (c : Char) : List Char :=
  if c == '\\' || c == '"' then ['\\', c] else [c]

def stringLiteral (_ : Lexicon) (value : String) : String :=
  "\"" ++ .ofList (value.toList.flatMap escapeChar) ++ "\""

def boolLiteral (lex : Lexicon) (value : Bool) : String :=
  if value then lex.trueLiteral else lex.falseLiteral

def assertNonNull (lex : Lexicon) (value : String) : String :=
  match lex.nonNullAssertion with
  | some template => fill template [("value", value)]
  | none => value

def commaList (items : List String) : String := ", ".intercalate items

def staticCall (_ : Lexicon) (className method : String) (args : List String) : String :=
  className ++ "." ++ method ++ "(" ++ commaList args ++ ")"

-- An object of a class; the arguments are pairs of parameter and value, in order.
def constructObject (lex : Lexicon) (className : String) (args : List (String × String)) : String :=
  let written := args.map fun (name, value) =>
    if lex.namedArguments then name ++ "=" ++ value else value
  fill lex.construct [("class", className), ("args", commaList written)]

def listLiteral (lex : Lexicon) (items : List String) : String :=
  fill lex.table.listLiteral [("items", commaList items)]

end Lexicon

end Classwright
