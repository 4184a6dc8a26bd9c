import Classwright.Code.EnumDecl
import Classwright.Code.Import
import Classwright.Code.Member

namespace Classwright.Code

open Template

structure ClassDecl where
  name : String
  package : String
  isData : Bool
  -- All members are static, so there are no objects and no constructor.
  isStatic : Bool
  inherits : Option String
  implements : List String
  imports : List Import
  constants : List Field
  fields : List Field
  constructor : Option Constructor
  methods : List Method
  enums : List EnumDecl
  deriving Repr

def printFile (lex : Lexicon) (package : String) (imports declarations : List String) : String :=
  let packageLine :=
    match lex.packageLine with
    | some template => if package == "" then "" else fill template [("package", package)]
    | none => ""
  let head := if packageLine == "" then "" else packageLine ++ "\n\n"
  let importLines := String.join (imports.map (· ++ "\n"))
  let gap := if imports.isEmpty then "" else "\n"
  head ++ importLines ++ gap ++ "\n\n".intercalate (declarations.map (· ++ "\n"))

namespace ClassDecl

def make (name package : String) : ClassDecl where
  name := name
  package := package
  isData := false
  isStatic := false
  inherits := none
  implements := []
  imports := []
  constants := []
  fields := []
  constructor := none
  methods := []
  enums := []

-- Adds an import, unless it is the class itself or there already.
def addImport (c : ClassDecl) (i : Import) : ClassDecl :=
  if i.name == c.name || c.imports.contains i then c else { c with imports := c.imports ++ [i] }

def addImports (c : ClassDecl) (imports : List Import) : ClassDecl := imports.foldl addImport c

def usesDataClass (lex : Lexicon) (c : ClassDecl) : Bool := c.isData && lex.usesDataClasses

def printsFields (lex : Lexicon) (c : ClassDecl) : Bool :=
  if c.usesDataClass lex then !lex.constructorInHeader else lex.declaresFields

def printsConstructor (lex : Lexicon) (c : ClassDecl) : Bool :=
  !c.usesDataClass lex && !c.isStatic && !lex.constructorInHeader

def fieldLines (lex : Lexicon) (fields : List Field) : List String :=
  fields.flatMap fun f => indentText lex 1 (f.print lex)

-- The parts of the body; a part may be empty.
def sections (lex : Lexicon) (c : ClassDecl) : List (List String) :=
  let constructors :=
    if c.printsConstructor lex then
      c.constructor.toList.map fun k => (k.toStatement lex).printLines lex 1
    else []
  [fieldLines lex c.constants] ++
    (if c.printsFields lex then [fieldLines lex c.fields] else []) ++
    constructors ++
    c.methods.map (fun m => (m.toStatement lex).printLines lex 1) ++
    (if lex.nestsEnums then c.enums.map fun e => indentText lex 1 (e.print lex) else [])

def bodyLines (lex : Lexicon) (c : ClassDecl) : List String :=
  [""].intercalate ((c.sections lex).filter (!·.isEmpty))

def supertypes (lex : Lexicon) (c : ClassDecl) : String :=
  let superclass := c.inherits.map fun name =>
    fill lex.extendsClause [("name", Import.simpleName name)]
  let interfaces := c.implements.map Import.simpleName
  match lex.supertypesClause with
  | some clause =>
    let list := superclass.toList ++ interfaces
    if list.isEmpty then "" else fill clause [("list", Lexicon.commaList list)]
  | none =>
    superclass.getD "" ++
      if interfaces.isEmpty then ""
      else fill lex.implementsClause [("names", Lexicon.commaList interfaces)]

def keyword (lex : Lexicon) (c : ClassDecl) : String :=
  if c.isStatic then lex.staticClassKeyword
  else if c.usesDataClass lex then lex.dataClassKeyword
  else lex.classKeyword

def declaration (lex : Lexicon) (c : ClassDecl) : String :=
  let parameters :=
    match c.constructor with
    | some k =>
      if lex.constructorInHeader && !c.isStatic then "(" ++ k.headerParameters lex ++ ")" else ""
    | none => ""
  c.keyword lex ++ " " ++ c.name ++ parameters ++ c.supertypes lex

-- The imports of the file, sorted and without repetitions. Qualified supertypes are among them.
def allImports (c : ClassDecl) : List Import :=
  let imports := c.imports ++ (c.inherits.toList ++ c.implements).filterMap Import.ofQualified?
  (imports.mergeSort Import.le).eraseReps

def importLines (lex : Lexicon) (c : ClassDecl) : List String :=
  let printed :=
    (c.allImports.filter (·.name != c.name)).filterMap (·.print? lex c.package)
  lex.prelude ++ printed.eraseReps

def classText (lex : Lexicon) (c : ClassDecl) : String :=
  let lines := c.bodyLines lex
  let body := if lines.isEmpty then lex.classLayout.emptyBody else "\n".intercalate lines ++ "\n"
  let decorators := if c.usesDataClass lex then lex.dataClassDecorator.toList else []
  Text.trimEnd (String.join (decorators.map (· ++ "\n")) ++ c.declaration lex ++
    lex.classLayout.opening ++ body ++ lex.classLayout.closing)

def print (lex : Lexicon) (c : ClassDecl) : String :=
  let enums := if lex.nestsEnums then [] else c.enums.map (·.print lex)
  printFile lex c.package (c.importLines lex) (enums ++ [c.classText lex])

end ClassDecl

end Classwright.Code
