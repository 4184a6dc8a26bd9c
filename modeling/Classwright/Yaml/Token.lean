import Classwright.Yaml.Text

namespace Classwright.Yaml

-- Columns are told here: block collections open and end by tokens of their own.
inductive Token where
  | documentStart
  | documentEnd
  -- A block collection starts; its entries stand in one column.
  | blockSeq
  | blockMap
  | blockEnd
  | dash
  | flowSeq
  | flowSeqEnd
  | flowMap
  | flowMapEnd
  | comma
  | key
  | colon
  | scalar (text : String) (plain : Bool)
  deriving DecidableEq

structure KeyMark where
  position : Nat
  index : Nat
  line : Nat
  column : Nat
  -- Nothing but a key may stand here.
  required : Bool

structure Scan where
  cursor : Cursor
  tokens : List Token
  count : Nat
  columns : List Nat
  keyMark : Option KeyMark
  outerMarks : List (Option KeyMark)
  keyAllowed : Bool

namespace Scan

def start (cs : List Char) : Scan := ⟨.start cs, [], 0, [], none, [], true⟩

def inFlow (s : Scan) : Bool := !s.outerMarks.isEmpty

def base (s : Scan) : Nat :=
  match s.columns with
  | [] => 0
  | column :: _ => column + 1

def push (s : Scan) (t : Token) : Scan := { s with tokens := t :: s.tokens, count := s.count + 1 }

def insert (s : Scan) (position : Nat) (t : Token) : Scan :=
  { s with tokens := s.tokens.insertIdx (s.count - position) t, count := s.count + 1 }

def mark (s : Scan) (length : Nat) (t : Token) : Scan :=
  { s.push t with cursor := s.cursor.advance length }

-- Ends the block collections that stand right of a place; none stands left of it.
def closeFrom (s : Scan) (left : Nat → Bool) : List Nat → Scan
  | [] => { s with columns := [] }
  | column :: rest =>
    if left column then closeFrom (s.push .blockEnd) left rest
    else { s with columns := column :: rest }

def closeTo (s : Scan) (column : Nat) : Scan :=
  if s.inFlow then s else closeFrom s (column < ·) s.columns

def closeAll (s : Scan) : Scan := if s.inFlow then s else closeFrom s (fun _ => true) s.columns

-- Begins a block collection in a column, unless there is one.
def openAt (s : Scan) (column position : Nat) (t : Token) : Scan :=
  if s.inFlow || s.columns.head?.any (column ≤ ·) then s
  else { s.insert position t with columns := column :: s.columns }

def dropMark? (s : Scan) : Option Scan :=
  match s.keyMark with
  | some m => if m.required then none else some { s with keyMark := none }
  | none => some s

def saveMark? (s : Scan) : Option Scan :=
  if s.keyAllowed then do
    let c := s.cursor
    let required := !s.inFlow && s.columns.head? == some c.column
    return { ← s.dropMark? with keyMark := some ⟨s.count, c.index, c.line, c.column, required⟩ }
  else some s

def maxKeySize : Nat := 1024

def isStale (c : Cursor) (m : KeyMark) : Bool :=
  m.line < c.line || m.index + maxKeySize < c.index

def dropStale? (s : Scan) : Option Scan :=
  let stale (m : Option KeyMark) : Bool := m.any (isStale s.cursor)
  let missed (m : Option KeyMark) : Bool := m.any fun m => isStale s.cursor m && m.required
  if missed s.keyMark || s.outerMarks.any missed then none
  else
    let kept (m : Option KeyMark) : Option KeyMark := if stale m then none else m
    some { s with keyMark := kept s.keyMark, outerMarks := s.outerMarks.map kept }

-- Goes on to the next token; what has ended on the way is closed.
def skip? (s : Scan) : Option Scan :=
  let (cursor, keyAllowed) := s.cursor.skip s.inFlow s.keyAllowed
  let s := { s with cursor := cursor, keyAllowed := keyAllowed }
  s.dropStale?.map (·.closeTo cursor.column)

def documentMark? (s : Scan) (t : Token) : Option Scan :=
  s.closeAll.dropMark?.map fun s => { s.mark 3 t with keyAllowed := false }

def openBracket? (s : Scan) (t : Token) : Option Scan :=
  s.saveMark?.map fun s =>
    { s.mark 1 t with keyMark := none, outerMarks := s.keyMark :: s.outerMarks, keyAllowed := true }

def closeBracket? (s : Scan) (t : Token) : Option Scan :=
  s.dropMark?.map fun s =>
    { s.mark 1 t with
      keyMark := s.outerMarks.head?.getD none
      outerMarks := s.outerMarks.drop 1
      keyAllowed := false }

def comma? (s : Scan) : Option Scan :=
  s.dropMark?.map fun s => { s.mark 1 .comma with keyAllowed := true }

def dash? (s : Scan) : Option Scan :=
  if !s.inFlow && !s.keyAllowed then none
  else
    (s.openAt s.cursor.column s.count .blockSeq).dropMark?.map fun s =>
      { s.mark 1 .dash with keyAllowed := true }

def colon? (s : Scan) : Option Scan :=
  match s.keyMark with
  | some m =>
    let s := (s.insert m.position .key).openAt m.column m.position .blockMap
    some { s.mark 1 .colon with keyMark := none, keyAllowed := false }
  | none =>
    if !s.inFlow && !s.keyAllowed then none
    else
      let s := s.openAt s.cursor.column s.count .blockMap
      some { s.mark 1 .colon with keyAllowed := !s.inFlow }

def quoted? (s : Scan) (quote : Char) : Option Scan := do
  let s ← s.saveMark?
  let c := s.cursor.step
  let scanned ← scanQuoted quote 0 .none [] 0 c.rest
  return { s.push (.scalar (.ofList scanned.text) false) with
    cursor := c.advance scanned.length
    keyAllowed := false }

def plain? (s : Scan) : Option Scan := do
  let s ← s.saveMark?
  let (text, c, broken) ← scanPlain s.inFlow s.base (s.cursor.rest.length + 1) [] s.cursor
  return { s.push (.scalar (.ofList text) true) with cursor := c, keyAllowed := broken }

def token? (s : Scan) (x : Char) (rest : List Char) : Option Scan :=
  if s.cursor.column == 0 && startsWithMarker '-' (x :: rest) then s.documentMark? .documentStart
  else if s.cursor.column == 0 && startsWithMarker '.' (x :: rest) then s.documentMark? .documentEnd
  else if x == '[' then s.openBracket? .flowSeq
  else if x == ']' then s.closeBracket? .flowSeqEnd
  else if x == '\x7b' then s.openBracket? .flowMap
  else if x == '\x7d' then s.closeBracket? .flowMapEnd
  else if x == ',' then s.comma?
  else if x == '-' && blankNext rest then s.dash?
  else if x == ':' && (s.inFlow || blankNext rest) then s.colon?
  else if x == '"' || x == '\'' then s.quoted? x
  else if startsPlain s.inFlow x rest then s.plain?
  else none

-- Reads at most `fuel` tokens.
def run? : Nat → Scan → Option Scan
  | 0, _ => none
  | fuel + 1, s => do
    let s ← s.skip?
    match s.cursor.rest with
    | [] => s.closeAll.dropMark?
    | x :: rest => run? fuel (← s.token? x rest)

end Scan

-- The tokens of a text; none if it is malformed.
def Token.ofChars? (cs : List Char) : Option (List Token) :=
  (Scan.run? (cs.length + 1) (.start cs)).map (·.tokens.reverse)

end Classwright.Yaml
