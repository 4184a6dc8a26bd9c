import Classwright.Language.Lexicon

namespace Classwright.Settings

inductive ClassKind where
  | model
  | database
  | api
  deriving Repr, DecidableEq

namespace ClassKind

def all : List ClassKind := [.model, .database, .api]

def name : ClassKind → String
  | .model => "model"
  | .database => "database"
  | .api => "api"

end ClassKind

structure ClassSettings where
  package : String
  -- The directory of the files, below the output directory; slot `tag`.
  module : String
  inherits : Option String
  implements : List String
  deriving Repr, DecidableEq

namespace ClassSettings

def standard (language : Language) (kind : ClassKind) : ClassSettings where
  package := kind.name
  module := language.name ++ "/" ++ kind.name
  inherits := none
  implements := []

def directory (s : ClassSettings) (tag : Option String) : String :=
  Template.fill s.module [("tag", tag.getD "default")]

end ClassSettings

-- The settings of one language; kinds that are not configured have the standard settings.
structure LanguageSettings where
  language : Language
  enabled : Bool
  model : Option ClassSettings
  database : Option ClassSettings
  api : Option ClassSettings
  deriving Repr, DecidableEq

namespace LanguageSettings

def standard (language : Language) : LanguageSettings := ⟨language, true, none, none, none⟩

def configured (s : LanguageSettings) : ClassKind → Option ClassSettings
  | .model => s.model
  | .database => s.database
  | .api => s.api

def kind (s : LanguageSettings) (kind : ClassKind) : ClassSettings :=
  (s.configured kind).getD (.standard s.language kind)

end LanguageSettings

end Classwright.Settings
