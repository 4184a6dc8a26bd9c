import Classwright.Text.Regex
import Classwright.Tool.Basic

namespace Classwright.Tool.Sed

open Text

inductive Pattern where
  | last
  | regex (r : Regex) (mode : Regex.Mode)

inductive Address where
  | line (number : Nat)
  | lastLine
  | pattern (p : Pattern)
  | step (first step : Nat)
  | offset (count : Nat)
  | multiple (count : Nat)

inductive CaseChange where
  | upper
  | lower
  | upperNext
  | lowerNext
  | ending
  deriving DecidableEq

inductive Part where
  | text (cs : List Char)
  -- What a group has matched; group zero is all of it.
  | group (number : Nat)
  | change (c : CaseChange)

structure Substitution where
  pattern : Pattern
  replacement : List Part
  isGlobal : Bool
  number : Nat
  prints : Bool
  file : Option String

inductive Action where
  | opens
  | closes
  | label (name : String)
  | jump (name : String)
  | jumpIf (done : Bool) (name : String)
  | append (text : String)
  | insert (text : String)
  | change (text : String)
  | substitute (s : Substitution)
  | translate (pairs : List (Char × Char))
  | quit (prints : Bool) (status : Nat)
  | readFile (path : String)
  | readLine (path : String)
  | writeFile (path : String)
  | writeFirst (path : String)
  | list (width : Option Nat)
  -- A command that is nothing but its letter.
  | plain (letter : Char)

structure Command where
  first : Option Address
  last : Option Address
  negated : Bool
  action : Action

structure ScriptFault where
  expression : Nat
  position : Nat
  reason : String

-- What is left of a script; `starts` are the positions at which its expressions start.
structure Reading where
  rest : List Char
  position : Nat
  starts : List Nat
  blocks : Nat
  extended : Bool

abbrev Read := StateT Reading (Except ScriptFault)

namespace Read

def fault {α : Type} (reason : String) : Read α := do
  let s ← get
  let before := s.starts.filter (· ≤ s.position)
  throw ⟨before.length, s.position - before.getLastD 0, reason⟩

def next? : Read (Option Char) := do
  let s ← get
  match s.rest with
  | [] => return none
  | c :: rest =>
    set { s with rest := rest, position := s.position + 1 }
    return some c

def peek? : Read (Option Char) := return (← get).rest.head?

def takeWhile (p : Char → Bool) : Read (List Char) := do
  let s ← get
  let cs := s.rest.takeWhile p
  set { s with rest := s.rest.drop cs.length, position := s.position + cs.length }
  return cs

def nextNonblank? : Read (Option Char) := do
  let _ ← takeWhile ByteClass.isBlank
  next?

def number : Read Nat := return (digitsValue? 10 (← takeWhile Char.isDigit)).getD 0

def finish : Read Unit := do
  let _ ← takeWhile ByteClass.isBlank
  match ← peek? with
  | none => return
  | some c =>
    if c == '\x7d' || c == '#' then return
    else
      let _ ← next?
      if c == '\n' || c == ';' then return else fault "extra characters after command"

def bracketSize (cs : List Char) : Nat :=
  let head := match cs with
    | '^' :: ']' :: _ => 2
    | '^' :: _ => 1
    | ']' :: _ => 1
    | _ => 0
  head + members (cs.drop head)
where
  members : List Char → Nat
    | [] => 0
    | ']' :: _ => 1
    | '[' :: c :: rest =>
      if c == ':' || c == '.' || c == '=' then 2 + special c rest else 1 + members (c :: rest)
    | _ :: rest => 1 + members rest
  special (mark : Char) : List Char → Nat
    | c :: ']' :: rest => if c == mark then 2 + members rest else 1 + special mark (']' :: rest)
    | _ :: rest => 1 + special mark rest
    | [] => 0

-- Reads up to a delimiter, which a backslash quotes; there is no text if it is missing. The
-- brackets of a regular expression may hold the delimiter.
def delimited (delimiter : Char) (isRegex : Bool) : Read (Option (List Char)) := do
  go ((← get).rest.length + 1) []
where
  go : Nat → List Char → Read (Option (List Char))
    | 0, _ => return none
    | limit + 1, done => do
      match ← peek? with
      | some '\n' => return none
      | _ =>
        match ← next? with
        | none => return none
        | some '\\' =>
          match ← next? with
          | none => return none
          | some c =>
            if c == delimiter then go limit (c :: done)
            else go limit (c :: '\\' :: done)
        | some c =>
          if c == delimiter then return some done.reverse
          else if c == '[' && isRegex then
            let s ← get
            let size := bracketSize s.rest
            let text := s.rest.take size
            if text.contains '\n' then return none
            set { s with rest := s.rest.drop size, position := s.position + size }
            go limit (text.reverse ++ c :: done)
          else go limit (c :: done)

-- The number that some digits of a base stand for at the start of a text, and what follows.
def numbered? (base size : Nat) (cs : List Char) : Option (Char × List Char) :=
  let digits := (cs.take size).takeWhile fun c => (digitsValue? base [c]).isSome
  (digitsValue? base digits).bind fun n =>
    if digits.isEmpty then none else some (.ofNat (n % 256), cs.drop digits.length)

def control? : List Char → Option (Char × List Char)
  | 'x' :: rest => numbered? 16 2 rest
  | 'o' :: rest => numbered? 8 3 rest
  | 'd' :: rest => numbered? 10 3 rest
  | 'c' :: c :: rest => some (.ofNat (c.toUpper.toNat ^^^ 64), rest)
  | c :: rest =>
    ([('t', '\t'), ('f', '\x0c'), ('v', '\x0b'), ('a', '\x07'), ('r', '\r')].lookup c).map (·, rest)
  | [] => none

-- A text with the bytes that escapes stand for; a byte that is special stays quoted.
def withControls (special : String) (cs : List Char) : List Char := go (cs.length + 1) cs
where
  go : Nat → List Char → List Char
    | 0, cs => cs
    | limit + 1, '\\' :: cs =>
      match control? cs with
      | some (byte, rest) =>
        if special.toList.contains byte then '\\' :: byte :: go limit rest
        else byte :: go limit rest
      | none =>
        match cs with
        | c :: rest => '\\' :: c :: go limit rest
        | [] => ['\\']
    | limit + 1, c :: cs => c :: go limit cs
    | _ + 1, [] => []

def pattern (text : List Char) (ignoresCase byLine : Bool) : Read (Pattern × Nat) := do
  if text.isEmpty then return (.last, 9)
  match Regex.ofText ⟨(← get).extended, true⟩ (withControls "*.[]^$\\" text) with
  | .ok (r, groups) => return (.regex r ⟨ignoresCase, byLine⟩, groups)
  | .error .bracket => fault "unterminated address regex"
  | .error f => fault f.reason

def address? (c : Char) (isSecond : Bool) : Read (Option Address) := do
  if c.isDigit then
    let n := (digitsValue? 10 (c :: (← takeWhile Char.isDigit))).getD 0
    if (← peek?) == some '~' && !isSecond then
      let _ ← next?
      return some (.step n (← number))
    else return some (.line n)
  else if c == '$' then return some .lastLine
  else if isSecond && c == '+' then return some (.offset (← number))
  else if isSecond && c == '~' then return some (.multiple (← number))
  else if c == '/' || c == '\\' then
    let delimiter ← if c == '/' then pure (some '/') else next?
    match ← delimited (delimiter.getD '/') true with
    | none => fault "unterminated address regex"
    | some text =>
      let flags ← takeWhile fun c => c == 'I' || c == 'M'
      return some (.pattern (← pattern text (flags.contains 'I') (flags.contains 'M')).1)
  else return none

def label : Read String := do
  let _ ← takeWhile ByteClass.isBlank
  return .ofList (← takeWhile fun c => !ByteClass.isSpace c && c != ';')

def fileName : Read String := do
  let _ ← takeWhile ByteClass.isBlank
  let name ← takeWhile (· != '\n')
  let _ ← next?
  if name.isEmpty then fault "missing filename in r/R/w/W commands"
  return .ofList name

def textLines : Read String := do
  go ((← get).rest.length + 1) []
where
  go : Nat → List Char → Read String
    | 0, done => return .ofList done.reverse
    | limit + 1, done => do
      match ← next? with
      | none => return .ofList ('\n' :: done).reverse
      | some '\n' => return .ofList ('\n' :: done).reverse
      | some '\\' =>
        let s ← get
        match control? s.rest, s.rest with
        | some (byte, rest), _ =>
          set { s with rest := rest, position := s.position + (s.rest.length - rest.length) }
          go limit (byte :: done)
        | none, c :: _ =>
          let _ ← next?
          go limit ((if c == 'n' then '\n' else c) :: done)
        | none, [] => return .ofList ('\n' :: done).reverse
      | some c => go limit (c :: done)

def textArgument : Read String := do
  let _ ← takeWhile ByteClass.isBlank
  match ← peek? with
  | none => fault "expected \\ after \x60a', \x60c' or \x60i'"
  | some '\\' =>
    let _ ← next?
    let start ← get
    let _ ← takeWhile ByteClass.isBlank
    match ← peek? with
    | some '\n' =>
      let _ ← next?
      textLines
    | none => return ""
    | some _ =>
      set start
      match start.rest with
      | c :: rest =>
        -- The first byte stands for itself.
        set { start with rest := rest, position := start.position + 1 }
        return .singleton c ++ (← textLines)
      | [] => return ""
  | some _ => textLines

def replacementParts : Nat → List Char → List Part
  | 0, _ => []
  | limit + 1, cs =>
    match cs with
    | [] => []
    | '&' :: rest => .group 0 :: replacementParts limit rest
    | '\\' :: c :: rest =>
      if c.isDigit then .group (c.toNat - '0'.toNat) :: replacementParts limit rest
      else
        let part : Part :=
          match c with
          | 'n' => .text ['\n']
          | 'U' => .change .upper
          | 'L' => .change .lower
          | 'u' => .change .upperNext
          | 'l' => .change .lowerNext
          | 'E' => .change .ending
          | c => .text [c]
        part :: replacementParts limit rest
    | cs =>
      let text := cs.takeWhile fun c => c != '&' && c != '\\'
      if text.isEmpty then [.text cs]
      else .text text :: replacementParts limit (cs.drop text.length)

structure Flags where
  isGlobal : Bool
  prints : Bool
  number : Option Nat
  ignoresCase : Bool
  byLine : Bool
  file : Option String

def flags : Nat → Flags → Read Flags
  | 0, f => return f
  | limit + 1, f => do
    match ← peek? with
    | none => return f
    | some c =>
      if c == '\x7d' || c == '#' then return f
      if c.isDigit then
        let n ← number
        if f.number.isSome then fault "multiple number options to \x60s' command"
        if n == 0 then fault "number option to \x60s' command may not be zero"
        flags limit { f with number := some n }
      else
        let _ ← next?
        match c with
        | 'g' =>
          if f.isGlobal then fault "multiple \x60g' options to \x60s' command"
          flags limit { f with isGlobal := true }
        | 'p' =>
          if f.prints then fault "multiple \x60p' options to \x60s' command"
          flags limit { f with prints := true }
        | 'i' => flags limit { f with ignoresCase := true }
        | 'I' => flags limit { f with ignoresCase := true }
        | 'm' => flags limit { f with byLine := true }
        | 'M' => flags limit { f with byLine := true }
        | 'w' => return { f with file := some (← fileName) }
        | '\n' => return f
        | ';' => return f
        | c =>
          if ByteClass.isBlank c then flags limit f else fault "unknown option to \x60s'"

def substitution : Read Action := do
  let unterminated {α : Type} : Read α := fault "unterminated \x60s' command"
  match ← next? with
  | none => unterminated
  | some delimiter =>
    if delimiter == '\n' || delimiter == '\\' then unterminated
    match ← delimited delimiter true with
    | none => unterminated
    | some text =>
      match ← delimited delimiter false with
      | none => unterminated
      | some replacement =>
        let f ← flags ((← get).rest.length + 1) ⟨false, false, none, false, false, none⟩
        let (p, groups) ←
          match Regex.ofText ⟨(← get).extended, true⟩ (withControls "*.[]^$\\" text) with
          | .error .bracket =>
            if text.isEmpty then pattern text false false else fault "unterminated \x60s' command"
          | _ => pattern text f.ignoresCase f.byLine
        let parts := replacementParts (replacement.length + 1) (withControls "&\\" replacement)
        for part in parts do
          if let .group n := part then
            if groups < n then
              fault ("invalid reference \\" ++ toString n ++ " on \x60s' command's RHS")
        return .substitute ⟨p, parts, f.isGlobal, f.number.getD 1, f.prints, f.file⟩

def plainBytes : List Char → List Char
  | '\\' :: 'n' :: rest => '\n' :: plainBytes rest
  | '\\' :: c :: rest => c :: plainBytes rest
  | c :: rest => c :: plainBytes rest
  | [] => []

def translation : Read Action := do
  let unterminated {α : Type} : Read α := fault "unterminated \x60y' command"
  match ← next? with
  | none => unterminated
  | some delimiter =>
    match ← delimited delimiter false with
    | none => unterminated
    | some first =>
      match ← delimited delimiter false with
      | none => unterminated
      | some second =>
        let first := plainBytes (withControls "\\" first)
        let second := plainBytes (withControls "\\" second)
        if first.length != second.length then
          fault "strings for \x60y' command are different lengths"
        finish
        return .translate (first.zip second)

def action (c : Char) (hasFirst hasLast : Bool) : Read Action := do
  match c with
  | '\x7b' =>
    modify fun s => { s with blocks := s.blocks + 1 }
    return .opens
  | '\x7d' =>
    if (← get).blocks == 0 then fault "unexpected \x60\x7d'"
    if hasFirst then fault "\x7d doesn't want any addresses"
    modify fun s => { s with blocks := s.blocks - 1 }
    finish
    return .closes
  | ':' =>
    if hasFirst then fault ": doesn't want any addresses"
    let name ← label
    if name == "" then fault "\":\" lacks a label"
    return .label name
  | 'b' => return .jump (← label)
  | 't' => return .jumpIf true (← label)
  | 'T' => return .jumpIf false (← label)
  | 'a' => return .append (← textArgument)
  | 'i' => return .insert (← textArgument)
  | 'c' => return .change (← textArgument)
  | 's' => substitution
  | 'y' => translation
  | 'r' => return .readFile (← fileName)
  | 'R' => return .readLine (← fileName)
  | 'w' => return .writeFile (← fileName)
  | 'W' => return .writeFirst (← fileName)
  | c =>
    if c == 'q' || c == 'Q' then
      if hasLast then fault "command only uses one address"
      let _ ← takeWhile ByteClass.isBlank
      let status ← number
      finish
      return .quit (c == 'q') status
    else if c == 'l' then
      let _ ← takeWhile ByteClass.isBlank
      let digits ← takeWhile Char.isDigit
      finish
      return .list (digitsValue? 10 digits)
    else if "=dDFgGhHnNpPxz".toList.contains c then
      finish
      return .plain c
    else fault ("unknown command: \x60" ++ .singleton c ++ "'")

def command (c : Char) : Read Command := do
  let first ← address? c false
  let c ← if first.isSome then nextNonblank? else pure (some c)
  let (last, c) ←
    if first.isSome && c == some ',' then do
      match ← nextNonblank? with
      | none => fault "unexpected \x60,'"
      | some d =>
        match ← address? d true with
        | none => fault "unexpected \x60,'"
        | some last => pure (some last, ← nextNonblank?)
    else pure (none, c)
  let isPattern : Option Address → Bool
    | some (.pattern _) => true
    | _ => false
  if let some (.line 0) := first then
    if !isPattern last then fault "invalid usage of line address 0"
  let negated := c == some '!'
  let c ← if negated then nextNonblank? else pure c
  match c with
  | none => fault "missing command"
  | some '!' => fault "multiple \x60!'s"
  | some '#' => fault "comments don't accept any addresses"
  | some c =>
    if ByteClass.isSpace c || c == ';' then fault "missing command"
    return ⟨first, last, negated, ← action c first.isSome last.isSome⟩

-- Reads all commands, of which there are at most so many.
def commands : Nat → Read (List Command)
  | 0 => return []
  | limit + 1 => do
    match ← next? with
    | none =>
      if (← get).blocks != 0 then throw ⟨1, 0, "unmatched \x60\x7b'"⟩
      return []
    | some c =>
      if ByteClass.isSpace c || c == ';' then commands limit
      else if c == '#' then
        let _ ← takeWhile (· != '\n')
        commands limit
      else
        let first ← command c
        return first :: (← commands limit)

end Read

def readScript (extended : Bool) (expressions : List String) : Except ScriptFault (List Command) :=
  let text := "\n".intercalate expressions
  let starts := (expressions.foldl (fun (starts, position) e =>
    (position :: starts, position + e.length + 1)) (([] : List Nat), 0)).1.reverse
  (Read.commands (text.length + 1)).run' ⟨text.toList, 0, starts, 0, extended⟩

def missingLabel? (cs : List Command) : Option String :=
  let labels := cs.filterMap fun c =>
    match c.action with
    | .label name => some name
    | _ => none
  let wanted := cs.filterMap fun c =>
    match c.action with
    | .jump name => some name
    | .jumpIf _ name => some name
    | _ => none
  wanted.find? fun name => name != "" && !labels.contains name

end Classwright.Tool.Sed
