import Classwright.Settings.Basic
import Classwright.Yaml.Scalar

namespace Classwright.Settings

open Yaml

structure Leaf where
  text : Option String
  flag : Option Bool
  isAbsent : Bool
  isEmpty : Bool

-- Two kinds of input have this form: the nodes of a settings file, where any scalar serves as a
-- text, and values, where only texts do.
inductive Entry where
  | leaf (scalar : Leaf)
  | list (items : List Entry)
  | record (fields : List (Entry × Entry))

namespace Leaf

def ofScalar (text : String) (plain : Bool) : Leaf where
  text := some text
  flag := if plain then boolWord? text else none
  isAbsent := plain && (text == "" || isNullWord text)
  isEmpty := plain && text == ""

def ofValue : Value → Leaf
  | .str text => ⟨some text, none, false, false⟩
  | .bool flag => ⟨none, some flag, false, false⟩
  | .null => ⟨none, none, true, true⟩
  | _ => ⟨none, none, false, false⟩

end Leaf

namespace Entry

mutual

def ofNode : Node → Entry
  | .scalar text plain => .leaf (.ofScalar text plain)
  | .seq items => .list (ofItems items)
  | .map entries => .record (ofFields entries)

def ofItems : List Node → List Entry
  | [] => []
  | item :: rest => ofNode item :: ofItems rest

def ofFields : List (Node × Node) → List (Entry × Entry)
  | [] => []
  | (key, value) :: rest => (ofNode key, ofNode value) :: ofFields rest

end

mutual

def ofValue : Value → Entry
  | .seq items => .list (ofItemValues items)
  | .map entries => .record (ofFieldValues entries)
  | value => .leaf (.ofValue value)

def ofItemValues : List Value → List Entry
  | [] => []
  | item :: rest => ofValue item :: ofItemValues rest

def ofFieldValues : List (Value × Value) → List (Entry × Entry)
  | [] => []
  | (key, value) :: rest => (ofValue key, ofValue value) :: ofFieldValues rest

end

def text? : Entry → Option String
  | .leaf scalar => scalar.text
  | _ => none

def flag? : Entry → Option Bool
  | .leaf scalar => scalar.flag
  | _ => none

def items? : Entry → Option (List Entry)
  | .leaf scalar => if scalar.isEmpty then some [] else none
  | .list items => some items
  | .record _ => none

def texts? (e : Entry) : Option (List String) := e.items?.bind (·.mapM text?)

def optional? {α : Type} (read : Entry → Option α) : Entry → Option (Option α)
  | .leaf scalar => if scalar.isAbsent then some none else (read (.leaf scalar)).map some
  | e => (read e).map some

end Entry

abbrev Fields := List (String × Entry)

namespace Fields

def ofRecord? (names : List String) : List (Entry × Entry) → Option Fields
  | [] => some []
  | (key, value) :: rest => do
    let name ← key.text?
    let fields ← ofRecord? names rest
    if !names.contains name then return fields
    if fields.any (·.1 == name) then none
    return (name, value) :: fields

def ofEntry? (names : List String) : Entry → Option Fields
  | .leaf scalar => if scalar.isEmpty then some [] else none
  | .list _ => none
  | .record fields => ofRecord? names fields

def required? {α : Type} (fields : Fields) (name : String) (read : Entry → Option α) : Option α :=
  (fields.lookup name).bind read

def get? {α : Type} (fields : Fields) (name : String) (default : α) (read : Entry → Option α) :
    Option α :=
  match fields.lookup name with
  | some e => read e
  | none => some default

def optional? {α : Type} (fields : Fields) (name : String) (read : Entry → Option α) :
    Option (Option α) :=
  fields.get? name none (Entry.optional? read)

end Fields

namespace ClassSettings

def ofEntry? (e : Entry) : Option ClassSettings := do
  let fields ← Fields.ofEntry? ["package", "module", "inheritsFrom", "implementsInterfaces"] e
  return {
    package := ← fields.required? "package" Entry.text?
    module := ← fields.required? "module" Entry.text?
    inherits := ← fields.optional? "inheritsFrom" Entry.text?
    implements := ← fields.get? "implementsInterfaces" [] Entry.texts? }

end ClassSettings

namespace LanguageSettings

def ofEntry? (e : Entry) : Option LanguageSettings := do
  let fields ← Fields.ofEntry? ["language", "enabled", "model", "database", "api"] e
  return {
    language := ← fields.required? "language" fun e => e.text?.bind Language.ofKey?
    enabled := ← fields.get? "enabled" true Entry.flag?
    model := ← fields.optional? "model" ClassSettings.ofEntry?
    database := ← fields.optional? "database" ClassSettings.ofEntry?
    api := ← fields.optional? "api" ClassSettings.ofEntry? }

end LanguageSettings

end Classwright.Settings
