import Classwright.Language.Lexicon

namespace Classwright.Code

open Template

structure EnumDecl where
  name : String
  values : List String
  deriving Repr, DecidableEq

namespace EnumDecl

-- Constants with their values; `used` are the names that are taken. Two values may come to the same
-- constant; then the first one keeps it.
def constantsFrom (used : List String) : List String → List (String × String)
  | [] => []
  | value :: rest =>
    let name := Naming.enumConstant value
    if used.contains name then constantsFrom used rest
    else (name, value) :: constantsFrom (name :: used) rest

def constants (e : EnumDecl) : List (String × String) := constantsFrom [] e.values

def constantText (layout : EnumLayout) (constant : String × String) : String :=
  fill layout.constant [("constant", constant.1), ("value", constant.2)]

def constantTexts (layout : EnumLayout) : List (String × String) → List String
  | [] => []
  | [constant] => [constantText layout constant ++ layout.last]
  | constant :: rest =>
    (constantText layout constant ++ layout.between) :: constantTexts layout rest

def print (lex : Lexicon) (e : EnumDecl) : String :=
  let layout := lex.enumLayout
  fill layout.opening [("name", e.name)] ++ String.join (constantTexts layout e.constants) ++
    fill layout.closing [("name", e.name)]

end EnumDecl

end Classwright.Code
