import Classwright.Settings.Entry
import Classwright.Yaml.Reader

namespace Classwright.Settings

open Yaml

structure Hooks where
  beforeGenerate : List String
  afterGenerate : List String
  deriving Repr, DecidableEq

structure Config where
  version : String
  input : Option String
  output : Option String
  languages : List LanguageSettings
  hooks : Hooks
  deriving Repr, DecidableEq

structure Overrides where
  input : Option String
  output : Option String
  languages : List Language
  deriving Repr, DecidableEq

namespace Hooks

def none : Hooks := ⟨[], []⟩

def ofEntry? (e : Entry) : Option Hooks := do
  let fields ← Fields.ofEntry? ["beforeGenerate", "afterGenerate"] e
  return {
    beforeGenerate := ← fields.get? "beforeGenerate" [] Entry.texts?
    afterGenerate := ← fields.get? "afterGenerate" [] Entry.texts? }

end Hooks

namespace Config

def defaultPath : String := "./.config/swagger-class-generator.yaml"

def defaultOutput : String := "generated"

def standard : Config := ⟨"1.0", none, some defaultOutput, [], .none⟩

def inputOfEntry? (e : Entry) : Option String :=
  (Fields.ofEntry? ["source"] e).bind (·.required? "source" Entry.text?)

def ofEntry? (e : Entry) : Option Config := do
  let fields ← Fields.ofEntry? ["version", "input", "output", "languages", "hooks"] e
  return {
    version := ← fields.required? "version" Entry.text?
    input := ← fields.optional? "input" inputOfEntry?
    output := ← fields.optional? "output" Entry.text?
    languages := ← fields.get? "languages" [] fun e =>
      e.items?.bind (·.mapM LanguageSettings.ofEntry?)
    hooks := ← fields.get? "hooks" .none Hooks.ofEntry? }

def ofText? (text : String) : Option Config :=
  (Node.ofText? text).bind fun n => ofEntry? (.ofNode n)

def chosen (configured : List LanguageSettings) (language : Language) : LanguageSettings :=
  { (configured.find? (·.language == language)).getD (.standard language) with enabled := true }

-- The languages of a run: those that are named, those that are configured, or all.
def chosenLanguages (configured : List LanguageSettings) (named : List Language) :
    List LanguageSettings :=
  if !named.isEmpty then named.map (chosen configured)
  else if configured.isEmpty then Language.all.map .standard
  else configured

-- Version and hooks stay as they are configured.
def override (c : Config) (o : Overrides) : Config :=
  { c with
    input := o.input.or c.input
    output := o.output.or c.output
    languages := chosenLanguages c.languages o.languages }

end Config

end Classwright.Settings
