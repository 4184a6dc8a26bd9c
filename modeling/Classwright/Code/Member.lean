import Classwright.Code.Statement
import Classwright.Code.TypeExpr

namespace Classwright.Code

open Template

def initializer (lex : Lexicon) : Option String → String
  | some value => fill lex.initializer [("value", value)]
  | none => ""

def declare (lex : Lexicon) (template name : String) (type : TypeExpr) (default : Option String) :
    String :=
  fill template [("name", name), ("type", type.print lex), ("init", initializer lex default)]

structure Parameter where
  name : String
  type : TypeExpr
  default : Option String
  deriving Repr, DecidableEq

namespace Parameter

def make (name : String) (type : TypeExpr) : Parameter := ⟨name, type, none⟩

def printWith (lex : Lexicon) (template : String) (p : Parameter) : String :=
  declare lex template p.name p.type p.default

def print (lex : Lexicon) (p : Parameter) : String := p.printWith lex lex.parameter

end Parameter

structure Field where
  name : String
  type : TypeExpr
  default : Option String
  isConstant : Bool
  deriving Repr, DecidableEq

namespace Field

def make (name : String) (type : TypeExpr) (default : Option String) : Field :=
  ⟨name, type, default, false⟩

def constant (name : String) (type : TypeExpr) (value : String) : Field :=
  ⟨name, type, some value, true⟩

def toParameter (f : Field) : Parameter := ⟨f.name, f.type, f.default⟩

def print (lex : Lexicon) (f : Field) : String :=
  declare lex (if f.isConstant then lex.constant else lex.field) f.name f.type f.default

end Field

structure Method where
  name : String
  parameters : List Parameter
  returns : TypeExpr
  body : List Statement
  isStatic : Bool
  isOverride : Bool
  deriving Repr

namespace Method

def make (name : String) (parameters : List Parameter) (returns : TypeExpr)
    (body : List Statement) : Method :=
  ⟨name, parameters, returns, body, false, false⟩

def signature (lex : Lexicon) (m : Method) : String × List String :=
  (m.name, m.parameters.map fun p => p.type.print lex)

def toStatement (lex : Lexicon) (m : Method) : Statement :=
  let receiver := if m.isStatic then [] else lex.receiver.toList
  let parameters := receiver ++ m.parameters.map (·.print lex)
  let header := fill (if m.isStatic then lex.staticMethod else lex.method) [
    ("override", if m.isOverride then lex.overrideMarker else ""),
    ("name", m.name),
    ("params", Lexicon.commaList parameters),
    ("ret", m.returns.print lex)]
  .block header m.body

def print (lex : Lexicon) (m : Method) : String := (m.toStatement lex).print lex

end Method

structure Constructor where
  className : String
  parameters : List Parameter
  deriving Repr

namespace Constructor

def headerParameters (lex : Lexicon) (c : Constructor) : String :=
  Lexicon.commaList (c.parameters.map (·.printWith lex lex.fieldParameter))

def assignment (lex : Lexicon) (p : Parameter) : Statement :=
  .line (lex.statement (lex.selfMember p.name ++ " = " ++ p.name))

def toStatement (lex : Lexicon) (c : Constructor) : Statement :=
  let template := if lex.constructorDeclaresFields then lex.fieldParameter else lex.parameter
  let parameters := lex.receiver.toList ++ c.parameters.map (·.printWith lex template)
  let header :=
    fill lex.constructor [("class", c.className), ("params", Lexicon.commaList parameters)]
  .block header (if lex.constructorDeclaresFields then [] else c.parameters.map (assignment lex))

def print (lex : Lexicon) (c : Constructor) : String := (c.toStatement lex).print lex

end Constructor

end Classwright.Code
