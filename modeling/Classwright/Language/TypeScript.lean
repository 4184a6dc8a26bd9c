import Classwright.Language.Lexicon

namespace Classwright.Lexicon

def typescript : Lexicon where
  language := .typescript
  fileExtension := "ts"
  snakeCaseFileNames := false
  packageLine := none
  prelude := []
  importLine := "import \x7b {name} \x7d from \"{package}/{file}\";"
  siblingImportLine := some "import \x7b {name} \x7d from \"./{file}\";"
  classLayout := {
    opening := " \x7b\n"
    closing := "\x7d"
    emptyBody := "" }
  enumLayout := {
    opening := "export enum {name} \x7b"
    constant := "\n    {constant} = \"{value}\""
    between := ","
    last := ","
    closing := "\n\x7d" }
  indent := "    "
  blockOpen := " \x7b"
  blockClose := some "\x7d"
  emptyBlock := none
  statementEnd := ";"
  usesDataClasses := false
  declaresFields := false
  constructorInHeader := false
  constructorDeclaresFields := true
  needsHashCode := false
  supportsDefaults := true
  nestsEnums := false
  classKeyword := "export class"
  dataClassKeyword := "export class"
  staticClassKeyword := "export class"
  dataClassDecorator := none
  extendsClause := " extends {name}"
  implementsClause := " implements {names}"
  supertypesClause := none
  field := "{name}: {type}{init};"
  constant := "static readonly {name}: {type}{init};"
  parameter := "{name}: {type}{init}"
  fieldParameter := "public {name}: {type}{init}"
  initializer := " = {value}"
  constructor := "constructor({params})"
  method := "{override}{name}({params}): {ret}"
  staticMethod := "static {name}({params}): {ret}"
  overrideMarker := ""
  receiver := none
  enumReference := "{name}"
  nativeTypes := {
    string := "string"
    number := "number"
    integer := "number"
    boolean := "boolean" }
  boxedTypes := none
  listType := "Array<{item}>"
  nullableType := "{type} | null"
  voidType := "void"
  anyType := "unknown"
  selfReference := "this"
  nullLiteral := "null"
  trueLiteral := "true"
  falseLiteral := "false"
  nonNullAssertion := some "{value}!"
  construct := "new {class}({args})"
  namedArguments := false
  nullableMember := "{object}?.{name}"
  equality := {
    methodName := "equals"
    parameterName := "other"
    guards := [
      "if (this === other) return true;",
      "if (!(other instanceof {class})) return false;",
      "const that = other;"]
    numeric := "this.{name} === that.{name}"
    generic := "this.{name} === that.{name}"
    object := "(this.{name} === that.{name} || (this.{name} != null && this.{name}.equals(that.{name})))"
    array := "JSON.stringify(this.{name}) === JSON.stringify(that.{name})"
    conjunction := " && " }
  hashCode := none
  hashCodeType := "number"
  table := {
    rowGetters := {
      string := "{row}.getString({column})"
      number := "{row}.getNumber({column})"
      integer := "{row}.getNumber({column})"
      boolean := "{row}.getBoolean({column})" }
    listLiteral := "[{items}]"
    split := "({value}?.split(\";\") ?? null)"
    join := "({value}?.join(\";\") ?? null)"
    joinIds := "({value}?.map((e) => String(e.id)).join(\";\") ?? null)"
    mapRows := "{items}.map((row) => {expr})"
    firstOrNull := "({value}[0] ?? null)"
    nullGuard := "{check} == null ? null : {value}"
    enumFromValue := "({value} as {type} | null)"
    enumToValue := "{value}"
    forEach := "for (const {item} of {items})"
    databaseDeclaration := "export interface Database \x7b
    execute(sql: string, args: unknown[]): void;

    query(sql: string, args: unknown[]): Row[];
\x7d"
    rowDeclaration := "export interface Row \x7b
    getString(column: string): string | null;

    getNumber(column: string): number | null;

    getBoolean(column: string): boolean | null;
\x7d" }
  request := {
    variableDeclaration := "let {name} = {value}"
    ifNotNull := "if ({value} != null)"
    toText := "{value}"
    finishUrl := "{query} === \"\" ? {url} : {url} + \"?\" + {query}.substring(1)" }

end Classwright.Lexicon
