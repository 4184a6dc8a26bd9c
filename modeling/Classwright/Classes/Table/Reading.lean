import Classwright.Classes.Table.Column
import Classwright.Code.Import
import Classwright.Settings.Basic

namespace Classwright.Classes.Table

open Schema Code Settings Template

structure Cell where
  column : String
  primitive : Primitive
  deriving Repr, DecidableEq

inductive Finder where
  | byId
  | byIdList
  -- By the foreign key to `owner`.
  | byOwner (owner : String)
  deriving Repr, DecidableEq

namespace Finder

def methodName : Finder → String
  | .byId => "selectById"
  | .byIdList => "selectAllIdsInList"
  | .byOwner owner => "selectBy" ++ owner ++ "Id"

end Finder

-- The expression that rebuilds a property from a row, as a tree whose leaves are cells of the row.
inductive Reading where
  | value (cell : Cell)
  -- The constant of the enumeration that belongs to a property of `owner`.
  | choice (owner property : String) (cell : Cell)
  | strings (cell : Cell)
  -- An object built from its fields; if there is a guard and it is null, so is the object.
  | object (definition : String) (fields : List (String × Reading)) (guard : Option Cell)
  -- What the table of `target` finds for a cell.
  | found (target : String) (finder : Finder) (key : Cell)
  | present (reading : Reading)
  | null
  deriving Repr, Inhabited

namespace Reading

def presentIf (required : Bool) (reading : Reading) : Reading :=
  if required then .present reading else reading

end Reading

mutual

-- The first cell of a required property that a row has only if the object was there.
def presence? (path : String) (p : Property) : Storage → Option Cell
  | .scalar primitive _ => some ⟨path ++ Naming.snake p.name, primitive⟩
  | .stringList => some ⟨path ++ Naming.snake p.name, .string⟩
  | .idList _ => some ⟨path ++ Naming.snake p.name, .string⟩
  | .foreignKey _ id => some ⟨path ++ Naming.snake p.name, id⟩
  | .flattened _ parts => presenceOfParts? (path ++ Naming.snake p.name ++ "_") parts
  | _ => none

-- The first cell among those of the required properties; none if every property is optional.
def presenceOfParts? (path : String) : List (Property × Storage) → Option Cell
  | [] => none
  | (p, storage) :: rest =>
    (if p.required then presence? path p storage else none).or (presenceOfParts? path rest)

end

mutual

-- The reading of a property of `owner`, in the rows of a table whose ids have the type `id`.
def readingOf (id : Primitive) (path owner : String) (p : Property) : Storage → Reading
  | .scalar primitive isEnum =>
    let cell : Cell := ⟨path ++ Naming.snake p.name, primitive⟩
    .presentIf p.required (if isEnum then .choice owner p.name cell else .value cell)
  | .stringList => .presentIf p.required (.strings ⟨path ++ Naming.snake p.name, .string⟩)
  | .flattened definition parts =>
    let inner := path ++ Naming.snake p.name ++ "_"
    .object definition (fieldReadings id inner definition parts)
      (if p.required then none else presenceOfParts? inner parts)
  | .foreignKey target key =>
    .presentIf p.required (.found target .byId ⟨path ++ Naming.snake p.name, key⟩)
  | .idList target => .found target .byIdList ⟨path ++ Naming.snake p.name, .string⟩
  | .navigation target parent => .found target (.byOwner parent) ⟨idName, id⟩
  | .unsupported _ => .null
  | .unresolved _ => .null

def fieldReadings (id : Primitive) (path owner : String) :
    List (Property × Storage) → List (String × Reading)
  | [] => []
  | (p, storage) :: rest =>
    (p.name, readingOf id path owner p storage) :: fieldReadings id path owner rest

end

namespace Cell

-- The value of the cell; `table` is the class that holds the constants of the columns.
def print (lex : Lexicon) (table : String) (cell : Cell) : String :=
  fill (lex.table.rowGetters.get cell.primitive)
    [("row", "row"), ("column", table ++ "." ++ columnConstant cell.column)]

end Cell

namespace Reading

mutual

def print (lex : Lexicon) (table : String) : Reading → String
  | .value cell => cell.print lex table
  | .choice owner property cell =>
    let enumeration :=
      fill lex.enumReference [("owner", owner), ("name", enumName owner property)]
    fill lex.table.enumFromValue [("type", enumeration), ("value", cell.print lex table)]
  | .strings cell => fill lex.table.split [("value", cell.print lex table)]
  | .object definition fields guard =>
    let built := lex.constructObject definition (printFields lex table fields)
    match guard with
    | some cell =>
      fill lex.table.nullGuard [("check", cell.print lex table), ("value", built)]
    | none => built
  | .found target finder key =>
    lex.staticCall (tableClassName target) finder.methodName ["db", key.print lex table]
  | .present reading => lex.assertNonNull (reading.print lex table)
  | .null => lex.nullLiteral

def printFields (lex : Lexicon) (table : String) : List (String × Reading) → List (String × String)
  | [] => []
  | (name, reading) :: rest => (name, reading.print lex table) :: printFields lex table rest

end

mutual

def imports (lex : Lexicon) (model database : ClassSettings) : Reading → List Import
  | .choice owner property _ =>
    if lex.nestsEnums then [.ofClass model.package owner]
    else [⟨model.package, enumName owner property, owner⟩]
  | .object definition fields _ =>
    .ofClass model.package definition :: fieldImports lex model database fields
  | .found target _ _ => [.ofClass database.package (tableClassName target)]
  | .present reading => reading.imports lex model database
  | .value _ => []
  | .strings _ => []
  | .null => []

def fieldImports (lex : Lexicon) (model database : ClassSettings) :
    List (String × Reading) → List Import
  | [] => []
  | (_, reading) :: rest =>
    reading.imports lex model database ++ fieldImports lex model database rest

end

end Reading

end Classwright.Classes.Table
