import Classwright.Language.Lexicon

namespace Classwright.Code

open Template

-- Imports are ordered by package, then name, and then the class in whose file they stand.
structure Import where
  package : String
  name : String
  owner : String
  deriving Repr, DecidableEq

namespace Import

def ofClass (package name : String) : Import := ⟨package, name, name⟩

def splitLastPoint? (cs : List Char) : Option (List Char × List Char) :=
  let simple := (cs.reverse.takeWhile (· != '.')).reverse
  if simple.length < cs.length then some (cs.take (cs.length - simple.length - 1), simple) else none

-- The import of a name with its package; a bare name needs none.
def ofQualified? (name : String) : Option Import :=
  (splitLastPoint? name.toList).map fun (package, simple) =>
    ofClass (.ofList package) (.ofList simple)

def simpleName (name : String) : String :=
  match splitLastPoint? name.toList with
  | some (_, simple) => .ofList simple
  | none => name

-- The line of an import in a file of package `current`, unless it needs none there.
def print? (lex : Lexicon) (current : String) (i : Import) : Option String :=
  let template := if i.package == current then lex.siblingImportLine else some lex.importLine
  template.map (fill · [("package", i.package), ("name", i.name), ("file", lex.fileStem i.owner)])

def le (i j : Import) : Bool :=
  if i.package != j.package then i.package < j.package
  else if i.name != j.name then i.name < j.name
  else i.owner ≤ j.owner

end Import

end Classwright.Code
