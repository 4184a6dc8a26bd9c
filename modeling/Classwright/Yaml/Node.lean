namespace Classwright.Yaml

inductive Node where
  | scalar (text : String) (plain : Bool)
  | seq (items : List Node)
  | map (entries : List (Node × Node))
  deriving Repr, Inhabited

namespace Node

def empty : Node := .scalar "" true

def isEmpty : Node → Bool
  | .scalar text plain => plain && text == ""
  | _ => false

end Node

end Classwright.Yaml
