import Classwright.Number.Shortest

namespace Classwright.Yaml

-- A mapping keeps its entries in document order and has no two equal keys. Values with a tag
-- (`!name`) are left out: the reader takes no tags, and nothing that is read from a document
-- depends on one.
inductive Value where
  | null
  | bool (b : Bool)
  | int (n : Int)
  | float (x : Binary64)
  | str (s : String)
  | seq (items : List Value)
  | map (entries : List (Value × Value))
  deriving Repr, Inhabited

namespace Value

mutual

def same : Value → Value → Bool
  | .null, .null => true
  | .bool a, .bool b => a == b
  | .int a, .int b => a == b
  | .float a, .float b => a.same b
  | .str a, .str b => a == b
  | .seq as, .seq bs => sameItems as bs
  | .map as, .map bs => as.length == bs.length && sameEntries as bs
  | _, _ => false

def sameItems : List Value → List Value → Bool
  | [], [] => true
  | a :: as, b :: bs => same a b && sameItems as bs
  | _, _ => false

def sameEntries : List (Value × Value) → List (Value × Value) → Bool
  | [], _ => true
  | (key, value) :: rest, others =>
    others.any (fun other => same key other.1 && same value other.2) && sameEntries rest others

end

instance : BEq Value := ⟨same⟩

def str? : Value → Option String
  | .str s => some s
  | _ => none

def bool? : Value → Option Bool
  | .bool b => some b
  | _ => none

def seq? : Value → Option (List Value)
  | .seq items => some items
  | _ => none

def map? : Value → Option (List (Value × Value))
  | .map entries => some entries
  | _ => none

-- The entry of a mapping under a text key; other values have no entries.
def get? (v : Value) (key : String) : Option Value :=
  match v with
  | .map entries => (entries.find? (·.1.str? == some key)).map (·.2)
  | _ => none

def numberText? : Value → Option String
  | .int n => some (toString n)
  | .float x => some x.text
  | _ => none

def scalarText? : Value → Option String
  | .str s => some s
  | .bool b => some (if b then "true" else "false")
  | v => v.numberText?

end Value

end Classwright.Yaml
