import Classwright.Code.TypeExpr
import Classwright.Graph.Link

namespace Classwright.Classes

open Schema Code

def databaseType : String := "Database"

def rowType : String := "Row"

def enumName (owner property : String) : String := owner ++ Naming.capitalize property

def tableName (definition : String) : String := Naming.snake definition

def tableClassName (definition : String) : String := definition ++ "TableSchema"

def requestClassName (endpoint : String) : String := endpoint ++ "Api"

def elementType (element : TypeRef) : TypeExpr :=
  match element.primitive? with
  | some p => .native p false
  | none => .named element.name false

-- The declared type of a property; what is not required is nullable.
def declaredType (owner : String) (p : Property) : TypeExpr :=
  let element :=
    if p.choices.isSome then .named (enumName owner p.name) false else elementType p.type.element
  (if p.type.isArray then .list element false else element).setNullable !p.required

end Classwright.Classes
