import Classwright.Classes.Table.Reading
import Classwright.Code.ClassDecl

namespace Classwright.Classes.Table

open Schema Code Settings Template

-- The type of a definition's id; an id without a primitive type is text.
def idType (d : Definition) : Primitive := (idType? d).getD .string

structure Lookup where
  finder : Finder
  parameter : String
  type : Primitive
  condition : Condition
  deriving Repr, DecidableEq

-- The lookup for an incoming edge of `d`; an owner without an id to look by gets none.
def lookup? (d owner : Definition) (edge : Edge) : Option Lookup :=
  match edge.relationship with
  | .oneToN => some ⟨.byIdList, "ids", .string, .listed⟩
  | .nToOne => some {
      finder := .byOwner owner.name
      parameter := foreignKeyName owner.name
      type := ((d.property? edge.property).bind (·.type.primitive?)).getD .string
      condition := .holds (Naming.snake edge.property) }
  | .oneToOne =>
    if owner.needsTable then
      (idType? owner).map fun id => {
        finder := .byOwner owner.name
        parameter := foreignKeyName owner.name
        type := id
        condition := .namedBy (tableName owner.name) (Naming.snake edge.property) }
    else none

def lookups (g : DefinitionGraph) (d : Definition) : Except Error (List Lookup) :=
  d.edges.foldr
    (fun edge rest => do
      let owner ← g.require edge.definition
      return (lookup? d owner edge).toList ++ (← rest))
    (.ok [])

structure ClassContext where
  lex : Lexicon
  definition : Definition

namespace ClassContext

variable (ctx : ClassContext)

def className : String := tableClassName ctx.definition.name

def table : String := tableName ctx.definition.name

def model : TypeExpr := .named ctx.definition.name false

def models : TypeExpr := .list ctx.model false

def id : TypeExpr := .native (idType ctx.definition) true

-- A static method whose first parameter is the database.
def method (name : String) (parameters : List Parameter) (returns : TypeExpr)
    (body : List Statement) : Method :=
  { Method.make name (.make "db" (.named databaseType false) :: parameters) returns body with
    isStatic := true }

def call (name : String) (args : List String) : String :=
  ctx.lex.staticCall ctx.className name ("db" :: args)

def line (code : String) : Statement := .line (ctx.lex.statement code)

def answer (value : String) : Statement := .line (ctx.lex.returnStatement value)

def execute (sql : String) (args : List String) : Statement :=
  ctx.line ("db.execute(" ++ ctx.lex.stringLiteral sql ++ ", " ++ ctx.lex.listLiteral args ++ ")")

def selected (condition : Condition) (parameter : String) : String :=
  ctx.call "select" [ctx.lex.stringLiteral condition.text, ctx.lex.listLiteral [parameter]]

def createTable (columns : List Column) : Method :=
  method "createTable" [] .void
    [ctx.execute (Sql.createTable ctx.table (columns.map (·.definition))) []]

def readFromDb (readings : List (String × Reading)) : Method :=
  method "readFromDb" [.make "row" (.named rowType false)] ctx.model
    [ctx.answer (ctx.lex.constructObject ctx.definition.name
      (Reading.printFields ctx.lex ctx.className readings))]

def insertOrUpdate (columns : List Column) : Method :=
  method "insertOrUpdate" [.make "item" ctx.model] .void
    [ctx.execute (Sql.insertOrReplace ctx.table (columns.map (·.name))) (columns.map (·.value))]

def batchInsertOrUpdate : Method :=
  let header := fill ctx.lex.table.forEach
    [("type", ctx.model.print ctx.lex), ("item", "item"), ("items", "items")]
  method "batchInsertOrUpdate" [.make "items" ctx.models] .void
    [.block header [ctx.line (ctx.call "insertOrUpdate" ["item"])]]

def deleteById : Method :=
  method "deleteById" [.make idName ctx.id] .void
    [ctx.execute (Sql.deleteWhere ctx.table (.holds idName)) [idName]]

def readListFromDb : Method :=
  method "readListFromDb" [.make "rows" (.list (.named rowType false) false)] ctx.models
    [ctx.answer (fill ctx.lex.table.mapRows
      [("items", "rows"), ("expr", ctx.call "readFromDb" ["row"])])]

def select : Method :=
  let query := ctx.lex.stringLiteral (Sql.selectWhere ctx.table) ++ " + whereClause"
  method "select"
    [.make "whereClause" (.native .string false), .make "args" (.list (.any true) false)] ctx.models
    [ctx.answer (ctx.call "readListFromDb" ["db.query(" ++ query ++ ", args)"])]

def selectAll : Method :=
  let query := ctx.lex.stringLiteral (Sql.selectAll ctx.table) ++ ", " ++ ctx.lex.listLiteral []
  method "selectAll" [] ctx.models
    [ctx.answer (ctx.call "readListFromDb" ["db.query(" ++ query ++ ")"])]

def selectById : Method :=
  method Finder.byId.methodName [.make idName ctx.id] (ctx.model.setNullable true)
    [ctx.answer (fill ctx.lex.table.firstOrNull
      [("value", ctx.selected (.holds idName) idName)])]

def basicMethods (columns : List Column) (readings : List (String × Reading)) : List Method := [
  ctx.createTable columns,
  ctx.readFromDb readings,
  ctx.insertOrUpdate columns,
  ctx.batchInsertOrUpdate,
  ctx.deleteById,
  ctx.readListFromDb,
  ctx.select,
  ctx.selectAll,
  ctx.selectById]

def lookupMethod (l : Lookup) : Method :=
  method l.finder.methodName [.make l.parameter (.native l.type true)] ctx.models
    [ctx.answer (ctx.selected l.condition l.parameter)]

def constants (columns : List Column) : List Field :=
  let text (name value : String) : Field :=
    .constant name (.native .string false) (ctx.lex.stringLiteral value)
  text "TABLE_NAME" ctx.table :: columns.map fun c => text c.constant c.name

end ClassContext

-- Keeps the first method of each signature; `seen` are those that are taken.
def distinctMethods (lex : Lexicon) (seen : List (String × List String)) :
    List Method → List Method
  | [] => []
  | m :: rest =>
    if seen.contains (m.signature lex) then distinctMethods lex seen rest
    else m :: distinctMethods lex (m.signature lex :: seen) rest

def itemSource : Source := ⟨"item", false, true⟩

def columns (lex : Lexicon) (g : DefinitionGraph) (d : Definition) : List Column :=
  columnsOfParts lex "" itemSource (storedParts g d)

def readings (g : DefinitionGraph) (d : Definition) : List (String × Reading) :=
  fieldReadings (idType d) "" d.name (storedParts g d)

def classWith (lex : Lexicon) (model database : ClassSettings) (g : DefinitionGraph)
    (d : Definition) (lookups : List Lookup) : ClassDecl :=
  let ctx : ClassContext := ⟨lex, d⟩
  let columns := columns lex g d
  let readings := readings g d
  { ClassDecl.make ctx.className database.package with
    isStatic := true
    inherits := database.inherits
    implements := database.implements
    constants := ctx.constants columns
    methods := distinctMethods lex []
      (ctx.basicMethods columns readings ++ lookups.map ctx.lookupMethod)
    : ClassDecl }.addImports ([
      .ofClass model.package d.name,
      .ofClass database.package databaseType,
      .ofClass database.package rowType] ++ Reading.fieldImports lex model database readings)

def classOf (lex : Lexicon) (model database : ClassSettings) (g : DefinitionGraph)
    (d : Definition) : Reported ClassDecl := do
  surveyParts d.name (storedParts g d)
  let found ← Reported.ofExcept (lookups g d)
  return classWith lex model database g d found

end Classwright.Classes.Table
