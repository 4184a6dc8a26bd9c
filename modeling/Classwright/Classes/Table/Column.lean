import Classwright.Classes.Table.Sql
import Classwright.Classes.Table.Storage
import Classwright.Report

namespace Classwright.Classes.Table

open Schema Template

def columnConstant (column : String) : String := Naming.upperSnake column ++ "_FIELD"

-- A column is named after its property, below the names of the properties that flatten it.
structure Column where
  name : String
  sqlType : String
  isId : Bool
  required : Bool
  value : String
  deriving Repr, DecidableEq

namespace Column

def constant (c : Column) : String := columnConstant c.name

def definition (c : Column) : String := columnDefinition c.name c.sqlType c.isId c.required

end Column

structure Source where
  object : String
  nullable : Bool
  required : Bool

namespace Source

def member (lex : Lexicon) (source : Source) (name : String) : String :=
  if source.nullable then fill lex.nullableMember [("object", source.object), ("name", name)]
  else lex.member source.object name

def field (lex : Lexicon) (source : Source) (p : Property) : Source :=
  ⟨source.member lex p.name, true, source.required && p.required⟩

end Source

-- The column of a property below a row of names, if its storage has one of its own.
def ownColumn? (lex : Lexicon) (path : String) (source : Source) (p : Property) :
    Storage → Option Column
  | storage =>
    let member := source.member lex p.name
    let column (sqlType value : String) : Column :=
      ⟨path ++ Naming.snake p.name, sqlType, p.name == idName, source.required && p.required, value⟩
    match storage with
    | .scalar _ isEnum =>
      (columnType? isEnum p.type.element.name).map fun sqlType =>
        column sqlType (if isEnum then fill lex.table.enumToValue [("value", member)] else member)
    | .stringList => some (column "TEXT" (fill lex.table.join [("value", member)]))
    | .foreignKey _ id =>
      (columnType? false id.name).map fun sqlType =>
        column sqlType (fill lex.nullableMember [("object", member), ("name", idName)])
    | .idList _ => some (column "TEXT" (fill lex.table.joinIds [("value", member)]))
    | _ => none

mutual

def columnsOf (lex : Lexicon) (path : String) (source : Source) (p : Property) :
    Storage → List Column
  | .flattened _ parts =>
    columnsOfParts lex (path ++ Naming.snake p.name ++ "_") (source.field lex p) parts
  | storage => (ownColumn? lex path source p storage).toList

def columnsOfParts (lex : Lexicon) (path : String) (source : Source) :
    List (Property × Storage) → List Column
  | [] => []
  | (p, storage) :: rest =>
    columnsOf lex path source p storage ++ columnsOfParts lex path source rest

end

mutual

-- What is left out of the columns of a property of `owner`, or why it has none.
def survey (owner : String) (p : Property) : Storage → Reported Unit
  | .scalar _ isEnum =>
    if (columnType? isEnum p.type.element.name).isSome then ⟨[], .ok ()⟩
    else ⟨[.noColumnType owner p.name], .ok ()⟩
  | .flattened definition parts => surveyParts definition parts
  | .unsupported why => ⟨[.notStored owner p.name why.reason], .ok ()⟩
  | .unresolved error => ⟨[], .error error⟩
  | _ => ⟨[], .ok ()⟩

def surveyParts (owner : String) : List (Property × Storage) → Reported Unit
  | [] => ⟨[], .ok ()⟩
  | (p, storage) :: rest => (survey owner p storage).bind fun _ => surveyParts owner rest

end

end Classwright.Classes.Table
