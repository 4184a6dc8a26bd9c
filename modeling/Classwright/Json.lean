import Classwright.Yaml.Value

namespace Classwright

-- JSON values, with the members of an object in a fixed order.
inductive Json where
  | null
  | bool (b : Bool)
  | number (text : String)
  | str (s : String)
  | arr (items : List Json)
  | obj (members : List (String × Json))
  deriving Repr, Inhabited

namespace Json

def nat (n : Nat) : Json := .number (toString n)

-- A finite number; an exponent that is not negative has a plus sign.
def floatText (x : Binary64) : String := x.textWith true

def ofOption {α : Type} (write : α → Json) : Option α → Json
  | none => .null
  | some a => write a

def ofList {α : Type} (write : α → Json) (items : List α) : Json := .arr (items.map write)

def hexDigit (n : Nat) : Char := Nat.digitChar n

def escapeChar (c : Char) : List Char :=
  match c with
  | '"' => ['\\', '"']
  | '\\' => ['\\', '\\']
  | '\n' => ['\\', 'n']
  | '\r' => ['\\', 'r']
  | '\t' => ['\\', 't']
  | '\x08' => ['\\', 'b']
  | '\x0c' => ['\\', 'f']
  | c =>
    if c.toNat < 0x20 then
      ['\\', 'u', '0', '0', hexDigit (c.toNat / 16), hexDigit (c.toNat % 16)]
    else [c]

def quote (s : String) : String :=
  "\"" ++ .ofList (s.toList.flatMap escapeChar) ++ "\""

def boolText (b : Bool) : String := if b then "true" else "false"

mutual

def compact : Json → String
  | .null => "null"
  | .bool b => boolText b
  | .number text => text
  | .str s => quote s
  | .arr items => "[" ++ ",".intercalate (compactItems items) ++ "]"
  | .obj members => "\x7b" ++ ",".intercalate (compactMembers members) ++ "\x7d"

def compactItems : List Json → List String
  | [] => []
  | item :: rest => compact item :: compactItems rest

def compactMembers : List (String × Json) → List String
  | [] => []
  | (name, value) :: rest => (quote name ++ ":" ++ compact value) :: compactMembers rest

end

def newLine (depth : Nat) : String := "\n" ++ .ofList (List.replicate (2 * depth) ' ')

-- Brackets around items of one line each; empty brackets close at once.
def block (opening closing : String) (depth : Nat) (items : List String) : String :=
  if items.isEmpty then opening ++ closing
  else opening ++ newLine (depth + 1) ++ ("," ++ newLine (depth + 1)).intercalate items ++
    newLine depth ++ closing

mutual

def pretty (depth : Nat) : Json → String
  | .null => "null"
  | .bool b => boolText b
  | .number text => text
  | .str s => quote s
  | .arr items => block "[" "]" depth (prettyItems (depth + 1) items)
  | .obj members => block "\x7b" "\x7d" depth (prettyMembers (depth + 1) members)

def prettyItems (depth : Nat) : List Json → List String
  | [] => []
  | item :: rest => pretty depth item :: prettyItems depth rest

def prettyMembers (depth : Nat) : List (String × Json) → List String
  | [] => []
  | (name, value) :: rest => (quote name ++ ": " ++ pretty depth value) :: prettyMembers depth rest

end

end Json

namespace Yaml.Value

inductive KeyError where
  | notScalar
  | notFinite
  deriving Repr, DecidableEq

def memberName : Value → Except KeyError String
  | .str s => .ok s
  | .bool b => .ok (Json.boolText b)
  | .int n => .ok (toString n)
  | .float x => if x.isFinite then .ok (Json.floatText x) else .error .notFinite
  | _ => .error .notScalar

mutual

def toJson : Value → Except KeyError Json
  | .null => .ok .null
  | .bool b => .ok (.bool b)
  | .int n => .ok (.number (toString n))
  | .float x => .ok (if x.isFinite then .number (Json.floatText x) else .null)
  | .str s => .ok (.str s)
  | .seq items => (itemsToJson items).map .arr
  | .map entries => (entriesToJson entries).map .obj

def itemsToJson : List Value → Except KeyError (List Json)
  | [] => .ok []
  | item :: rest => do
    let item ← toJson item
    return item :: (← itemsToJson rest)

def entriesToJson : List (Value × Value) → Except KeyError (List (String × Json))
  | [] => .ok []
  | (key, value) :: rest => do
    let name ← memberName key
    let value ← toJson value
    return (name, value) :: (← entriesToJson rest)

end

end Yaml.Value

end Classwright
