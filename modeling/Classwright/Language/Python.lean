import Classwright.Language.Lexicon

namespace Classwright.Lexicon

def python : Lexicon where
  language := .python
  fileExtension := "py"
  snakeCaseFileNames := true
  packageLine := none
  prelude := [
    "from __future__ import annotations",
    "from dataclasses import dataclass",
    "from enum import Enum",
    "from typing import Any, List, Optional, Protocol"]
  importLine := "from {package}.{file} import {name}"
  siblingImportLine := some "from {package}.{file} import {name}"
  classLayout := {
    opening := ":\n"
    closing := ""
    emptyBody := "    pass\n" }
  enumLayout := {
    opening := "class {name}(Enum):"
    constant := "\n    {constant} = \"{value}\""
    between := ""
    last := ""
    closing := "" }
  indent := "    "
  blockOpen := ":"
  blockClose := none
  emptyBlock := some "pass"
  statementEnd := ""
  usesDataClasses := true
  declaresFields := false
  constructorInHeader := false
  constructorDeclaresFields := false
  needsHashCode := false
  supportsDefaults := true
  nestsEnums := false
  classKeyword := "class"
  dataClassKeyword := "class"
  staticClassKeyword := "class"
  dataClassDecorator := some "@dataclass(kw_only=True)"
  extendsClause := "{name}"
  implementsClause := "{names}"
  supertypesClause := some "({list})"
  field := "{name}: {type}{init}"
  constant := "{name}: {type}{init}"
  parameter := "{name}: {type}{init}"
  fieldParameter := "{name}: {type}{init}"
  initializer := " = {value}"
  constructor := "def __init__({params}) -> None"
  method := "{override}def {name}({params}) -> {ret}"
  staticMethod := "@staticmethod\ndef {name}({params}) -> {ret}"
  overrideMarker := ""
  receiver := some "self"
  enumReference := "{name}"
  nativeTypes := {
    string := "str"
    number := "float"
    integer := "int"
    boolean := "bool" }
  boxedTypes := none
  listType := "List[{item}]"
  nullableType := "Optional[{type}]"
  voidType := "None"
  anyType := "Any"
  selfReference := "self"
  nullLiteral := "None"
  trueLiteral := "True"
  falseLiteral := "False"
  nonNullAssertion := none
  construct := "{class}({args})"
  namedArguments := true
  nullableMember := "({object}.{name} if {object} is not None else None)"
  equality := {
    methodName := "__eq__"
    parameterName := "other"
    guards := [
      "if self is other:\n    return True",
      "if not isinstance(other, {class}):\n    return False",
      "that = other"]
    numeric := "self.{name} == that.{name}"
    generic := "self.{name} == that.{name}"
    object := "self.{name} == that.{name}"
    array := "list(self.{name} or []) == list(that.{name} or [])"
    conjunction := " and " }
  hashCode := none
  hashCodeType := "int"
  table := {
    rowGetters := {
      string := "{row}[{column}]"
      number := "{row}[{column}]"
      integer := "{row}[{column}]"
      boolean := "{row}[{column}]" }
    listLiteral := "[{items}]"
    split := "({value}.split(\";\") if {value} is not None else None)"
    join := "(\";\".join({value}) if {value} is not None else None)"
    joinIds := "(\";\".join(str(e.id) for e in {value}) if {value} is not None else None)"
    mapRows := "[{expr} for row in {items}]"
    firstOrNull := "next(iter({value}), None)"
    nullGuard := "None if {check} is None else {value}"
    enumFromValue := "({type}({value}) if {value} is not None else None)"
    enumToValue := "({value}.value if {value} is not None else None)"
    forEach := "for {item} in {items}"
    databaseDeclaration := "class Database(Protocol):
    def execute(self, sql: str, args: List[Any]) -> None: ...

    def query(self, sql: str, args: List[Any]) -> List[Row]: ..."
    rowDeclaration := "class Row(Protocol):
    def __getitem__(self, column: str) -> Any: ..." }
  request := {
    variableDeclaration := "{name} = {value}"
    ifNotNull := "if {value} is not None"
    toText := "str({value})"
    finishUrl := "{url} + \"?\" + {query}[1:] if {query} else {url}" }

end Classwright.Lexicon
