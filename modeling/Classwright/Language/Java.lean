import Classwright.Language.Lexicon

namespace Classwright.Lexicon

def java : Lexicon where
  language := .java
  fileExtension := "java"
  snakeCaseFileNames := false
  packageLine := some "package {package};"
  prelude := ["import java.util.*;", "import java.util.stream.*;"]
  importLine := "import {package}.{name};"
  siblingImportLine := none
  classLayout := {
    opening := " \x7b\n"
    closing := "\x7d"
    emptyBody := "" }
  enumLayout := {
    opening := "public enum {name} \x7b"
    constant := "\n    {constant}(\"{value}\")"
    between := ","
    last := ";"
    closing := "

    public final String value;

    {name}(String value) \x7b
        this.value = value;
    \x7d

    public static {name} fromValue(String value) \x7b
        for ({name} item : values()) \x7b
            if (item.value.equals(value)) return item;
        \x7d
        return null;
    \x7d
\x7d" }
  indent := "    "
  blockOpen := " \x7b"
  blockClose := some "\x7d"
  emptyBlock := none
  statementEnd := ";"
  usesDataClasses := false
  declaresFields := true
  constructorInHeader := false
  constructorDeclaresFields := false
  needsHashCode := true
  supportsDefaults := false
  nestsEnums := true
  classKeyword := "public class"
  dataClassKeyword := "public class"
  staticClassKeyword := "public final class"
  dataClassDecorator := none
  extendsClause := " extends {name}"
  implementsClause := " implements {names}"
  supertypesClause := none
  field := "public {type} {name}{init};"
  constant := "public static final {type} {name}{init};"
  parameter := "{type} {name}"
  fieldParameter := "{type} {name}"
  initializer := " = {value}"
  constructor := "public {class}({params})"
  method := "{override}public {ret} {name}({params})"
  staticMethod := "public static {ret} {name}({params})"
  overrideMarker := "@Override\n"
  receiver := none
  enumReference := "{owner}.{name}"
  nativeTypes := {
    string := "String"
    number := "double"
    integer := "long"
    boolean := "boolean" }
  boxedTypes := some {
    string := "String"
    number := "Double"
    integer := "Long"
    boolean := "Boolean" }
  listType := "List<{item}>"
  nullableType := "{type}"
  voidType := "void"
  anyType := "Object"
  selfReference := "this"
  nullLiteral := "null"
  trueLiteral := "true"
  falseLiteral := "false"
  nonNullAssertion := none
  construct := "new {class}({args})"
  namedArguments := false
  nullableMember := "({object} == null ? null : {object}.{name})"
  equality := {
    methodName := "equals"
    parameterName := "other"
    guards := [
      "if (this == other) return true;",
      "if (!(other instanceof {class})) return false;",
      "{class} that = ({class}) other;"]
    numeric := "Objects.equals(this.{name}, that.{name})"
    generic := "Objects.equals(this.{name}, that.{name})"
    object := "Objects.equals(this.{name}, that.{name})"
    array := "Objects.deepEquals(this.{name}, that.{name})"
    conjunction := " && " }
  hashCode := some "Objects.hash({fields})"
  hashCodeType := "int"
  table := {
    rowGetters := {
      string := "{row}.getString({column})"
      number := "{row}.getDouble({column})"
      integer := "{row}.getLong({column})"
      boolean := "{row}.getBoolean({column})" }
    listLiteral := "Arrays.<Object>asList({items})"
    split := "({value} == null ? null : Arrays.asList({value}.split(\";\")))"
    join := "({value} == null ? null : String.join(\";\", {value}))"
    joinIds := "({value} == null ? null : {value}.stream().map(e -> String.valueOf(e.id)).collect(Collectors.joining(\";\")))"
    mapRows := "{items}.stream().map(row -> {expr}).collect(Collectors.toList())"
    firstOrNull := "{value}.stream().findFirst().orElse(null)"
    nullGuard := "{check} == null ? null : {value}"
    enumFromValue := "{type}.fromValue({value})"
    enumToValue := "({value} == null ? null : {value}.value)"
    forEach := "for ({type} {item} : {items})"
    databaseDeclaration := "public interface Database \x7b
    void execute(String sql, List<Object> args);

    List<Row> query(String sql, List<Object> args);
\x7d"
    rowDeclaration := "public interface Row \x7b
    String getString(String column);

    Long getLong(String column);

    Double getDouble(String column);

    Boolean getBoolean(String column);
\x7d" }
  request := {
    variableDeclaration := "var {name} = {value}"
    ifNotNull := "if ({value} != null)"
    toText := "{value}"
    finishUrl := "{query}.isEmpty() ? {url} : {url} + \"?\" + {query}.substring(1)" }

end Classwright.Lexicon
