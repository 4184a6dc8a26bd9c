import Classwright.Number.Digits
import Classwright.Text.ByteClass

namespace Classwright.Text

inductive Regex where
  | empty
  | byte (c : Char)
  | anyByte
  | oneOf (set : ByteSet)
  | start
  | finish
  | wordStart
  | wordEnd
  | wordEdge
  | noWordEdge
  | freeBefore
  | freeBehind
  | group (number : Nat) (r : Regex)
  | again (number : Nat)
  | both (first second : Regex)
  | either (first second : Regex)
  | times (r : Regex) (least : Nat) (most : Option Nat)
  deriving Repr, DecidableEq, Inhabited

namespace Regex

structure Mode where
  ignoresCase : Bool
  byLine : Bool

structure Place where
  before : Option Char
  rest : List Char
  position : Nat
  groups : List (Nat × List Char)

def isWordByte (c : Char) : Bool := c.isAlphanum || c == '_'

namespace Place

def ofText (cs : List Char) : Place := ⟨none, cs, 0, []⟩

def next? (p : Place) : Option (Char × Place) :=
  match p.rest with
  | [] => none
  | c :: rest => some (c, { p with before := some c, rest := rest, position := p.position + 1 })

def isStart (mode : Mode) (p : Place) : Bool :=
  match p.before with
  | none => true
  | some c => mode.byLine && c == '\n'

def isFinish (mode : Mode) (p : Place) : Bool :=
  match p.rest with
  | [] => true
  | c :: _ => mode.byLine && c == '\n'

def isBehindWord (p : Place) : Bool := p.before.any isWordByte

def isBeforeWord (p : Place) : Bool := p.rest.head?.any isWordByte

def skip? (same : Char → Char → Bool) (p : Place) : List Char → Option Place
  | [] => some p
  | c :: cs =>
    match p.next? with
    | some (d, next) => if same c d then skip? same next cs else none
    | none => none

end Place

-- What is left to be matched behind a part; it gives the place where all of it ends.
abbrev Rest := Place → Option Place

-- The longer of two matches, of which the second is only looked for if it can be longer.
def longer (a : Option Place) (b : Unit → Option Place) : Option Place :=
  match a with
  | none => b ()
  | some p =>
    if p.rest.isEmpty then some p
    else match b () with
      | some q => if p.position < q.position then some q else some p
      | none => some p

def iterate (part : Place → Rest → Option Place) (least : Nat) (most : Option Nat) (k : Rest) :
    Nat → Nat → Place → Option Place
  | 0, _, p => k p
  | limit + 1, count, p =>
    let more := most.all (count < ·)
    let further (_ : Unit) : Option Place :=
      part p fun q =>
        if q.position == p.position then if count < least then k q else none
        else iterate part least most k limit (count + 1) q
    if !more then k p
    else if count < least then further ()
    else longer (further ()) fun _ => k p

def Mode.same (mode : Mode) (c d : Char) : Bool :=
  c == d || (mode.ignoresCase && c.toLower == d.toLower)

def Mode.inSet (mode : Mode) (set : ByteSet) (c : Char) : Bool :=
  if mode.ignoresCase then
    let found := set.members.any fun member => member.holds c.toLower || member.holds c.toUpper
    found != set.negated
  else set.holds c

-- Of all matches that start at the first possible place the longest one counts; among those of one
-- length, the one in which earlier parts are longer.
def run (mode : Mode) : Regex → Place → Rest → Option Place
  | .empty, p, k => k p
  | .byte c, p, k =>
    match p.next? with
    | some (d, q) => if mode.same c d then k q else none
    | none => none
  | .anyByte, p, k =>
    match p.next? with
    | some (_, q) => k q
    | none => none
  | .oneOf set, p, k =>
    match p.next? with
    | some (c, q) => if mode.inSet set c then k q else none
    | none => none
  | .start, p, k => if p.isStart mode then k p else none
  | .finish, p, k => if p.isFinish mode then k p else none
  | .wordStart, p, k => if !p.isBehindWord && p.isBeforeWord then k p else none
  | .wordEnd, p, k => if p.isBehindWord && !p.isBeforeWord then k p else none
  | .wordEdge, p, k => if p.isBehindWord != p.isBeforeWord then k p else none
  | .noWordEdge, p, k => if p.isBehindWord == p.isBeforeWord then k p else none
  | .freeBefore, p, k => if p.isBehindWord then none else k p
  | .freeBehind, p, k => if p.isBeforeWord then none else k p
  | .group number r, p, k =>
    run mode r p fun q =>
      let text := p.rest.take (q.position - p.position)
      k { q with groups := (number, text) :: q.groups.filter (·.1 != number) }
  | .again number, p, k =>
    match p.groups.lookup number with
    | some text => (p.skip? mode.same text).bind k
    | none => none
  | .both a b, p, k => run mode a p fun q => run mode b q k
  | .either a b, p, k => longer (run mode a p k) fun _ => run mode b p k
  | .times r least most, p, k =>
    iterate (run mode r) least most k (p.rest.length + least + 1) 0 p

def matchAt (mode : Mode) (r : Regex) (p : Place) : Option Place :=
  run mode r { p with groups := [] } some

def find? (mode : Mode) (r : Regex) : Nat → Place → Option (Place × Place)
  | 0, _ => none
  | limit + 1, p =>
    match matchAt mode r p with
    | some q => some (p, q)
    | none =>
      match p.next? with
      | some (_, next) => find? mode r limit next
      | none => none

def search (mode : Mode) (r : Regex) (cs : List Char) : Option (Place × Place) :=
  find? mode r (cs.length + 1) (.ofText cs)

structure Notation where
  extended : Bool
  -- Marks in wrong places are faults; a backslash and the letter n stand for a line break, also in
  -- brackets.
  strict : Bool

inductive Fault where
  | bracket
  | opening
  | closing
  | brace
  | content
  | range
  | reference
  | backslash
  | preceding
  | className
  deriving Repr, DecidableEq

namespace Fault

def reason : Fault → String
  | .bracket => "Unmatched [, [^, [:, [., or [="
  | .opening => "Unmatched ( or \\("
  | .closing => "Unmatched ) or \\)"
  | .brace => "Unmatched \\\x7b"
  | .content => "Invalid content of \\\x7b\\\x7d"
  | .range => "Invalid range end"
  | .reference => "Invalid back reference"
  | .backslash => "Trailing backslash"
  | .preceding => "Invalid preceding regular expression"
  | .className => "Invalid character class name"

end Fault

def readSetByte (n : Notation) : List Char → Except Fault (Char × List Char)
  | '[' :: '.' :: c :: '.' :: ']' :: rest => .ok (c, rest)
  | '[' :: '=' :: c :: '=' :: ']' :: rest => .ok (c, rest)
  | '\\' :: 'n' :: rest => if n.strict then .ok ('\n', rest) else .ok ('\\', 'n' :: rest)
  | c :: rest => .ok (c, rest)
  | [] => .error .bracket

-- Reads the members of a bracket expression; the first may be a closing bracket.
def readMembers (n : Notation) : Nat → Bool → List Char →
    Except Fault (List SetMember × List Char)
  | 0, _, _ => .error .bracket
  | limit + 1, isFirst, cs => do
    match cs with
    | ']' :: rest =>
      if isFirst then member limit cs else return ([], rest)
    | '[' :: ':' :: rest =>
      let name := rest.takeWhile fun c => c != ':' && c != ']'
      match rest.drop name.length with
      | ':' :: ']' :: behind =>
        if (ByteClass.named? (.ofList name)).isNone then .error .className
        else
          let (members, rest) ← readMembers n limit false behind
          return (.named (.ofList name) :: members, rest)
      | _ => .error .bracket
    | cs => member limit cs
where
  member (limit : Nat) (cs : List Char) : Except Fault (List SetMember × List Char) := do
    let (c, rest) ← readSetByte n cs
    match rest with
    | '-' :: ']' :: _ =>
      let (members, rest) ← readMembers n limit false rest
      return (.range c c :: members, rest)
    | '-' :: behind =>
      let (d, rest) ← readSetByte n behind
      if d < c then .error .range
      else
        let (members, rest) ← readMembers n limit false rest
        return (.range c d :: members, rest)
    | rest =>
      let (members, rest) ← readMembers n limit false rest
      return (.range c c :: members, rest)

def readSet (n : Notation) (cs : List Char) : Except Fault (Regex × List Char) := do
  let (negated, cs) :=
    match cs with
    | '^' :: rest => (true, rest)
    | cs => (false, cs)
  let (members, rest) ← readMembers n (cs.length + 1) true cs
  return (.oneOf ⟨negated, members⟩, rest)

def wordSet (negated : Bool) : Regex := .oneOf ⟨negated, [.named "alnum", .range '_' '_']⟩

def spaceSet (negated : Bool) : Regex := .oneOf ⟨negated, [.named "space"]⟩

def letter? (n : Notation) (c : Char) : Option Regex :=
  match c with
  | 'w' => some (wordSet false)
  | 'W' => some (wordSet true)
  | 's' => some (spaceSet false)
  | 'S' => some (spaceSet true)
  | 'b' => some .wordEdge
  | 'B' => some .noWordEdge
  | '<' => some .wordStart
  | '>' => some .wordEnd
  | '\x60' => some .start
  | '\'' => some .finish
  | 'n' => if n.strict then some (.byte '\n') else none
  | _ => none

inductive Item where
  | atom (r : Regex)
  | star
  | plus
  | question
  | interval
  | bar
  | opens
  | closes
  | caret
  | dollar
  | reference (number : Nat)

def mark? (n : Notation) (c : Char) : Option Item :=
  match c with
  | '+' => some .plus
  | '?' => some .question
  | '|' => some .bar
  | '(' => some .opens
  | ')' => some .closes
  | '\x7b' => some .interval
  | '\x7d' => if n.extended then none else some (.atom (.byte c))
  | _ => none

def readItem (n : Notation) : List Char → Except Fault (Item × List Char)
  | [] => .error .backslash
  | '\\' :: [] => .error .backslash
  | '\\' :: c :: rest =>
    if c.isDigit && c != '0' then .ok (.reference (c.toNat - '0'.toNat), rest)
    else match letter? n c with
      | some r => .ok (.atom r, rest)
      | none =>
        if n.extended then .ok (.atom (.byte c), rest)
        else .ok ((mark? n c).getD (.atom (.byte c)), rest)
  | '[' :: rest => do
    let (r, rest) ← readSet n rest
    return (.atom r, rest)
  | '.' :: rest => .ok (.atom .anyByte, rest)
  | '*' :: rest => .ok (.star, rest)
  | '^' :: rest => .ok (.caret, rest)
  | '$' :: rest => .ok (.dollar, rest)
  | c :: rest =>
    if n.extended then .ok ((mark? n c).getD (.atom (.byte c)), rest)
    else .ok (.atom (.byte c), rest)

def readInterval (n : Notation) (cs : List Char) :
    Except Fault (Nat × Option Nat × List Char) := do
  let first := cs.takeWhile Char.isDigit
  let rest := cs.drop first.length
  let (last, rest) :=
    match rest with
    | ',' :: rest =>
      let digits := rest.takeWhile Char.isDigit
      (some digits, rest.drop digits.length)
    | rest => (none, rest)
  let rest? :=
    match rest with
    | '\x7d' :: rest => if n.extended then some rest else none
    | '\\' :: '\x7d' :: rest => if n.extended then none else some rest
    | _ => none
  let least := (digitsValue? 10 first).getD 0
  match rest? with
  | none => .error (if rest.contains '\x7d' then .content else .brace)
  | some rest =>
    match last with
    | none => if first.isEmpty then .error .content else return (least, some least, rest)
    | some [] => return (least, none, rest)
    | some digits =>
      let most := (digitsValue? 10 digits).getD 0
      if most < least then .error .content else return (least, some most, rest)

structure Reading where
  rest : List Char
  groups : Nat
  depth : Nat

abbrev Read := StateT Reading (Except Fault)

namespace Read

def endsBranch (n : Notation) (cs : List Char) : Bool :=
  match cs with
  | [] => true
  | '\\' :: c :: _ => !n.extended && (c == ')' || c == '|')
  | c :: _ => n.extended && (c == ')' || c == '|')

def repetitions (n : Notation) : Nat → Regex → Read Regex
  | 0, r => return r
  | limit + 1, r => do
    let s ← get
    match s.rest with
    | [] => return r
    | _ =>
      match readItem n s.rest with
      | .ok (.star, rest) => more limit rest (.times r 0 none)
      | .ok (.plus, rest) => more limit rest (.times r 1 none)
      | .ok (.question, rest) => more limit rest (.times r 0 (some 1))
      | .ok (.interval, rest) =>
        match readInterval n rest with
        | .ok (least, most, rest) => more limit rest (.times r least most)
        | .error fault => if n.extended && !n.strict then return r else throw fault
      | _ => return r
where
  more (limit : Nat) (rest : List Char) (r : Regex) : Read Regex := do
    modify fun s => { s with rest := rest }
    repetitions n limit r

-- Reads a row of expressions; `whole` reads what stands in a group.
def branch (n : Notation) (whole : Read Regex) : Nat → Bool → Regex → Read Regex
  | 0, _, r => return r
  | limit + 1, isFirst, r => do
    let s ← get
    if s.rest.isEmpty then return r
    let (item, rest) ← readItem n s.rest
    let advance : Read Unit := modify fun s => { s with rest := rest }
    let literal (c : Char) : Read Regex := do
      advance
      follow limit r (.byte c)
    match item with
    | .bar => return r
    | .closes =>
      if s.depth == 0 && n.extended && !n.strict then literal ')'
      else return r
    | .opens =>
      set { s with rest := rest, groups := s.groups + 1, depth := s.depth + 1 }
      let body ← whole
      let t ← get
      match readItem n t.rest with
      | .ok (.closes, behind) =>
        set { t with rest := behind, depth := s.depth }
        follow limit r (.group (s.groups + 1) body)
      | _ => throw .opening
    | .caret =>
      if n.extended || isFirst then
        advance
        if n.extended && !n.strict then follow limit r .start
        else branch n whole limit true (.both r .start)
      else literal '^'
    | .dollar =>
      if n.extended || endsBranch n rest then
        advance
        branch n whole limit false (.both r .finish)
      else literal '$'
    | .star =>
      if isFirst then
        if n.extended then
          if n.strict then throw .preceding
          advance
          branch n whole limit true r
        else literal '*'
      else literal '*'
    | .plus => if n.extended then skipMark limit rest r else literal '+'
    | .question => if n.extended then skipMark limit rest r else literal '?'
    | .interval =>
      if n.extended && !n.strict then literal '\x7b' else throw .preceding
    | .reference number =>
      if s.groups < number then throw .reference
      advance
      follow limit r (.again number)
    | .atom a =>
      advance
      follow limit r a
where
  follow (limit : Nat) (r a : Regex) : Read Regex := do
    let a ← repetitions n limit a
    branch n whole limit false (if r == .empty then a else .both r a)
  skipMark (limit : Nat) (rest : List Char) (r : Regex) : Read Regex := do
    if n.strict then throw .preceding
    modify fun s => { s with rest := rest }
    branch n whole limit true r

-- Reads branches with bars between them, in groups nested at most so deep.
def expression (n : Notation) (limit : Nat) : Nat → Read Regex
  | 0 => throw .opening
  | depth + 1 => do
    let first ← branch n (expression n limit depth) limit true .empty
    alternatives depth limit first
where
  alternatives (depth : Nat) : Nat → Regex → Read Regex
    | 0, r => return r
    | rounds + 1, r => do
      let s ← get
      if s.rest.isEmpty then return r
      match readItem n s.rest with
      | .ok (.bar, rest) =>
        set { s with rest := rest }
        let next ← branch n (expression n limit depth) limit true .empty
        alternatives depth rounds (.either r next)
      | _ => return r

end Read

def ofText (n : Notation) (cs : List Char) : Except Fault (Regex × Nat) := do
  let limit := cs.length + 2
  let (r, s) ← (Read.expression n limit limit).run ⟨cs, 0, 0⟩
  if s.rest.isEmpty then return (r, s.groups) else .error .closing

end Regex

end Classwright.Text
