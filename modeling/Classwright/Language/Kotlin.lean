import Classwright.Language.Lexicon

namespace Classwright.Lexicon

def kotlin : Lexicon where
  language := .kotlin
  fileExtension := "kt"
  snakeCaseFileNames := false
  packageLine := some "package {package}"
  prelude := ["import java.util.Objects"]
  importLine := "import {package}.{name}"
  siblingImportLine := none
  classLayout := {
    opening := " \x7b\n"
    closing := "\x7d"
    emptyBody := "" }
  enumLayout := {
    opening := "enum class {name}(val value: String) \x7b"
    constant := "\n    {constant}(\"{value}\")"
    between := ","
    last := ";"
    closing := "

    companion object \x7b
        fun fromValue(value: String?): {name}? = values().firstOrNull \x7b it.value == value \x7d
    \x7d
\x7d" }
  indent := "    "
  blockOpen := " \x7b"
  blockClose := some "\x7d"
  emptyBlock := none
  statementEnd := ""
  usesDataClasses := true
  declaresFields := false
  constructorInHeader := true
  constructorDeclaresFields := true
  needsHashCode := false
  supportsDefaults := true
  nestsEnums := true
  classKeyword := "class"
  dataClassKeyword := "data class"
  staticClassKeyword := "object"
  dataClassDecorator := none
  extendsClause := "{name}()"
  implementsClause := "{names}"
  supertypesClause := some " : {list}"
  field := "var {name}: {type}{init}"
  constant := "const val {name}: {type}{init}"
  parameter := "{name}: {type}{init}"
  fieldParameter := "val {name}: {type}{init}"
  initializer := " = {value}"
  constructor := "constructor({params})"
  method := "{override}fun {name}({params}): {ret}"
  staticMethod := "fun {name}({params}): {ret}"
  overrideMarker := "override "
  receiver := none
  enumReference := "{owner}.{name}"
  nativeTypes := {
    string := "String"
    number := "Double"
    integer := "Long"
    boolean := "Boolean" }
  boxedTypes := none
  listType := "List<{item}>"
  nullableType := "{type}?"
  voidType := "Unit"
  anyType := "Any"
  selfReference := "this"
  nullLiteral := "null"
  trueLiteral := "true"
  falseLiteral := "false"
  nonNullAssertion := some "{value}!!"
  construct := "{class}({args})"
  namedArguments := false
  nullableMember := "{object}?.{name}"
  equality := {
    methodName := "equals"
    parameterName := "other"
    guards := [
      "if (this === other) return true",
      "if (other !is {class}) return false",
      "val that = other"]
    numeric := "this.{name} == that.{name}"
    generic := "Objects.equals(this.{name}, that.{name})"
    object := "(this.{name}?.equals(that.{name}) ?: (that.{name} == null))"
    array := "this.{name}?.toList() == that.{name}?.toList()"
    conjunction := " && " }
  hashCode := none
  hashCodeType := "Int"
  table := {
    rowGetters := {
      string := "{row}.getString({column})"
      number := "{row}.getDouble({column})"
      integer := "{row}.getLong({column})"
      boolean := "{row}.getBoolean({column})" }
    listLiteral := "listOf<Any?>({items})"
    split := "{value}?.split(\";\")"
    join := "{value}?.joinToString(\";\")"
    joinIds := "{value}?.joinToString(\";\") \x7b it.id.toString() \x7d"
    mapRows := "{items}.map \x7b row -> {expr} \x7d"
    firstOrNull := "{value}.firstOrNull()"
    nullGuard := "if ({check} == null) null else {value}"
    enumFromValue := "{type}.fromValue({value})"
    enumToValue := "{value}?.value"
    forEach := "for ({item} in {items})"
    databaseDeclaration := "interface Database \x7b
    fun execute(sql: String, args: List<Any?>)

    fun query(sql: String, args: List<Any?>): List<Row>
\x7d"
    rowDeclaration := "interface Row \x7b
    fun getString(column: String): String?

    fun getLong(column: String): Long?

    fun getDouble(column: String): Double?

    fun getBoolean(column: String): Boolean?
\x7d" }
  request := {
    variableDeclaration := "var {name} = {value}"
    ifNotNull := "if ({value} != null)"
    toText := "{value}"
    finishUrl := "if ({query}.isEmpty()) {url} else {url} + \"?\" + {query}.substring(1)" }

end Classwright.Lexicon
