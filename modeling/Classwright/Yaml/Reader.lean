import Classwright.Yaml.Scalar
import Classwright.Yaml.Token

namespace Classwright.Yaml

-- A reading is the node that was read and the tokens behind it.
abbrev Reading := Node × List Token

mutual

def flowNode? : Nat → List Token → Option Reading
  | 0, _ => none
  | fuel + 1, tokens =>
    match tokens with
    | .scalar text plain :: rest => some (.scalar text plain, rest)
    | .flowSeq :: .flowSeqEnd :: rest => some (.seq [], rest)
    | .flowSeq :: rest => flowItems? fuel [] rest
    | .flowMap :: .flowMapEnd :: rest => some (.map [], rest)
    | .flowMap :: rest => flowEntries? fuel [] rest
    | _ => none

def flowItems? : Nat → List Node → List Token → Option Reading
  | 0, _, _ => none
  | fuel + 1, items, tokens => do
    let (item, rest) ← flowItem? fuel tokens
    match rest with
    | .flowSeqEnd :: rest => return (.seq (item :: items).reverse, rest)
    | .comma :: .flowSeqEnd :: rest => return (.seq (item :: items).reverse, rest)
    | .comma :: rest => flowItems? fuel (item :: items) rest
    | _ => none

def flowItem? : Nat → List Token → Option Reading
  | 0, _ => none
  | fuel + 1, tokens =>
    match tokens with
    | .key :: rest => do
      let (entry, rest) ← flowEntry? fuel rest
      return (.map [entry], rest)
    | _ => flowNode? fuel tokens

def flowEntries? : Nat → List (Node × Node) → List Token → Option Reading
  | 0, _, _ => none
  | fuel + 1, entries, tokens => do
    let (entry, rest) ←
      match tokens with
      | .key :: rest => flowEntry? fuel rest
      | _ => (flowNode? fuel tokens).map fun (key, rest) => ((key, .empty), rest)
    match rest with
    | .flowMapEnd :: rest => return (.map (entry :: entries).reverse, rest)
    | .comma :: .flowMapEnd :: rest => return (.map (entry :: entries).reverse, rest)
    | .comma :: rest => flowEntries? fuel (entry :: entries) rest
    | _ => none

def flowEntry? : Nat → List Token → Option ((Node × Node) × List Token)
  | 0, _ => none
  | fuel + 1, tokens => do
    let (key, rest) ← flowNode? fuel tokens
    match rest with
    | .colon :: .comma :: rest => return ((key, .empty), .comma :: rest)
    | .colon :: .flowSeqEnd :: rest => return ((key, .empty), .flowSeqEnd :: rest)
    | .colon :: .flowMapEnd :: rest => return ((key, .empty), .flowMapEnd :: rest)
    | .colon :: rest =>
      let (value, rest) ← flowNode? fuel rest
      return ((key, value), rest)
    | _ => none

end

mutual

def blockNode? : Nat → List Token → Option Reading
  | 0, _ => none
  | fuel + 1, tokens =>
    match tokens with
    | .blockSeq :: rest => do
      let (items, rest) ← blockItems? fuel [] rest
      match rest with
      | .blockEnd :: rest => return (.seq items, rest)
      | _ => none
    | .blockMap :: rest => blockEntries? fuel [] rest
    | _ => flowNode? fuel tokens

def blockItems? : Nat → List Node → List Token → Option (List Node × List Token)
  | 0, _, _ => none
  | fuel + 1, items, tokens =>
    match tokens with
    | .dash :: rest => do
      let (item, rest) ←
        match rest with
        | .dash :: _ => some (.empty, rest)
        | .blockEnd :: _ => some (.empty, rest)
        | .key :: _ => some (.empty, rest)
        | _ => blockNode? fuel rest
      blockItems? fuel (item :: items) rest
    | _ => some (items.reverse, tokens)

def blockEntries? : Nat → List (Node × Node) → List Token → Option Reading
  | 0, _, _ => none
  | fuel + 1, entries, tokens =>
    match tokens with
    | .blockEnd :: rest => some (.map entries.reverse, rest)
    | .key :: rest => do
      let (key, rest) ← blockNode? fuel rest
      match rest with
      | .colon :: rest =>
        let (value, rest) ←
          match rest with
          | .key :: _ => some (.empty, rest)
          | .blockEnd :: _ => some (.empty, rest)
          | .dash :: _ => (blockItems? fuel [] rest).map fun (items, rest) => (.seq items, rest)
          | _ => blockNode? fuel rest
        blockEntries? fuel ((key, value) :: entries) rest
      | _ => none
    | _ => none

end

def isAllowed (c : Char) : Bool :=
  let n := c.toNat
  n == 0x9 || n == 0xA || n == 0xD || (0x20 ≤ n && n ≤ 0x7E) || n == 0x85 ||
    (0xA0 ≤ n && n ≤ 0xFFFD) || 0x10000 ≤ n

def unifyBreaks : List Char → List Char
  | [] => []
  | '\r' :: '\n' :: cs => '\n' :: unifyBreaks cs
  | c :: cs => (if c == '\r' || c == '\u0085' then '\n' else c) :: unifyBreaks cs

namespace Node

def ofDocument? (fuel : Nat) : List Token → Option Reading
  | [] => some (.empty, [])
  | .documentStart :: [] => some (.empty, [])
  | .documentStart :: .documentEnd :: rest => some (.empty, .documentEnd :: rest)
  | .documentStart :: rest => blockNode? fuel rest
  | tokens => blockNode? fuel tokens

-- The node tree of a text; a text without a node is empty. Anchors, tags, block scalars, complex
-- keys and directives are not part of the language that is read, and a text holds one document.
def ofText? (text : String) : Option Node := do
  let cs := text.toList
  if !cs.all isAllowed then none
  let tokens ← Token.ofChars? (unifyBreaks cs)
  let (node, rest) ← ofDocument? (4 * tokens.length + 8) tokens
  if rest.all (· == .documentEnd) then return node else none

end Node

def Value.ofText? (text : String) : Option Value :=
  Node.ofText? text >>= Node.value? Node.maxDepth

end Classwright.Yaml
