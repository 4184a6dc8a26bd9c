import Classwright.Language.Lexicon

namespace Classwright.Code

open Schema Template

inductive TypeExpr where
  | native (primitive : Primitive) (nullable : Bool)
  | named (name : String) (nullable : Bool)
  | list (item : TypeExpr) (nullable : Bool)
  | void
  | any (nullable : Bool)
  deriving Repr, DecidableEq, Inhabited

namespace TypeExpr

def setNullable (nullable : Bool) : TypeExpr → TypeExpr
  | .native p _ => .native p nullable
  | .named name _ => .named name nullable
  | .list item _ => .list item nullable
  | .void => .void
  | .any _ => .any nullable

def isNullable : TypeExpr → Bool
  | .native _ nullable => nullable
  | .named _ nullable => nullable
  | .list _ nullable => nullable
  | .void => false
  | .any nullable => nullable

def namedTypes : TypeExpr → List String
  | .named name _ => [name]
  | .list item _ => item.namedTypes
  | _ => []

def orNull (lex : Lexicon) (nullable : Bool) (text : String) : String :=
  if nullable then fill lex.nullableType [("type", text)] else text

def nativeText (lex : Lexicon) (p : Primitive) (nullable asArgument : Bool) : String :=
  match lex.boxedTypes with
  | some boxed =>
    if nullable || asArgument then boxed.get p else lex.nativeTypes.get p
  | none => orNull lex nullable (lex.nativeTypes.get p)

-- The text of a type; `asArgument` tells whether it stands between the brackets of a list type.
def render (lex : Lexicon) (asArgument : Bool) : TypeExpr → String
  | .native p nullable => nativeText lex p nullable asArgument
  | .named name nullable => orNull lex nullable name
  | .list item nullable => orNull lex nullable (fill lex.listType [("item", item.render lex true)])
  | .void => lex.voidType
  | .any nullable => orNull lex nullable lex.anyType

def print (lex : Lexicon) (type : TypeExpr) : String := type.render lex false

end TypeExpr

end Classwright.Code
