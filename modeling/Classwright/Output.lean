import Classwright.Classes.Model
import Classwright.Classes.Request
import Classwright.Classes.Table.Class
import Classwright.File.Path
import Classwright.Graph.Blueprint
import Classwright.Language.All

namespace Classwright

open Code Settings Classes

structure GeneratedFile where
  directory : String
  fileName : String
  definition : String
  content : String
  deriving Repr, DecidableEq

namespace GeneratedFile

def path (f : GeneratedFile) : String := Path.join f.directory f.fileName

def ofClass (lex : Lexicon) (s : ClassSettings) (tag : Option String) (c : ClassDecl) :
    GeneratedFile where
  directory := s.directory tag
  fileName := lex.fileName c.name
  definition := c.name
  content := c.print lex

def ofInterface (lex : Lexicon) (s : ClassSettings) (name declaration : String)
    (imports : List Import) : GeneratedFile where
  directory := s.directory none
  fileName := lex.fileName name
  definition := name
  content :=
    let importLines := lex.prelude ++ imports.filterMap (·.print? lex s.package)
    printFile lex s.package importLines [declaration]

def ofInterfaces (lex : Lexicon) (s : ClassSettings) : List GeneratedFile := [
  ofInterface lex s databaseType lex.table.databaseDeclaration [.ofClass s.package rowType],
  ofInterface lex s rowType lex.table.rowDeclaration []]

def ofDefinition (s : LanguageSettings) (g : DefinitionGraph) (d : Definition) :
    Reported (List GeneratedFile) := do
  let lex := s.language.lexicon
  let model := ofClass lex (s.kind .model) d.tag (Model.classOf lex (s.kind .model) d)
  if d.needsTable then
    let table ← Table.classOf lex (s.kind .model) (s.kind .database) g d
    return [model, ofClass lex (s.kind .database) d.tag table]
  else return [model]

def ofDefinitions (s : LanguageSettings) (g : DefinitionGraph) :
    List Definition → Reported (List GeneratedFile)
  | [] => pure []
  | d :: rest => do
    let files ← ofDefinition s g d
    return files ++ (← ofDefinitions s g rest)

def ofEndpoint (s : LanguageSettings) (e : Endpoint) : GeneratedFile :=
  let lex := s.language.lexicon
  ofClass lex (s.kind .api) e.tag (Request.classOf lex (s.kind .api) (s.kind .model) e)

end GeneratedFile

namespace Blueprint

open GeneratedFile

-- The models with their tables come in the order of the graph, then the storage interfaces if there
-- is any table, and then the requests.
def filesOf (b : Blueprint) (s : LanguageSettings) : Reported (List GeneratedFile) := do
  let classes ← ofDefinitions s b.graph b.graph.definitions
  let interfaces :=
    if b.graph.definitions.any (·.needsTable) then
      ofInterfaces s.language.lexicon (s.kind .database)
    else []
  return classes ++ interfaces ++ b.endpoints.map (ofEndpoint s)

def files (b : Blueprint) : List LanguageSettings → Reported (List GeneratedFile)
  | [] => pure []
  | s :: rest => do
    let own ← if s.enabled then b.filesOf s else pure []
    return own ++ (← b.files rest)

def generate (passes : Nat) (d : Swagger.Document) (languages : List LanguageSettings) :
    Reported (List GeneratedFile) := do
  let b ← (⟨warnings passes d, ofDocument passes d⟩ : Reported Blueprint)
  b.files languages

end Blueprint

end Classwright
