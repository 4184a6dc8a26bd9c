import Classwright.Shell.Source

namespace Classwright.Shell

abbrev Draft := List Piece

namespace Draft

def add (d : Draft) (quoted : Bool) (c : Char) : Draft :=
  match d with
  | .text cs q :: rest => if q == quoted then .text (c :: cs) q :: rest else .text [c] quoted :: d
  | _ => .text [c] quoted :: d

def quote (d : Draft) : Draft := .text [] true :: d

def word (d : Draft) : Word :=
  d.reverse.map fun
    | .text cs quoted => .text cs.reverse quoted
    | piece => piece

end Draft

def isSpecialParameter (c : Char) : Bool := "@*#?-$!".toList.contains c

namespace Read

section

variable (commands : Read (Option Command))

def singleQuoted (d : Draft) : Read Draft :=
  loop (fun d => do
    match ← rawChar? with
    | none => fault "Unterminated quoted string"
    | some '\'' => return .inr d
    | some c => return .inl (d.add true c)) d.quote

def enclosed (behind : Read Unit) : Read (Option Command) := do
  let s ← get
  set { s with pushed := none, pending := [] }
  let body ← commands
  behind
  modify fun t => { t with pushed := none, pending := s.pending }
  return body

def backquoted (quoted : Bool) : Read (List Char) :=
  loop (fun cs => do
    match ← char? with
    | none => fault "EOF in backquote substitution"
    | some '`' => return .inr cs.reverse
    | some '\\' =>
      match ← rawChar? with
      | none => fault "EOF in backquote substitution"
      | some c =>
        if c == '\\' || c == '`' || c == '$' || (quoted && c == '"') then return .inl (c :: cs)
        else return .inl (c :: '\\' :: cs)
    | some c => return .inl (c :: cs)) []

-- Reads a script that is given as a text; what ends it too early ends it.
def nested (text : List Char) : Read (Option Command) := do
  let s ← get
  set { s with rest := text }
  let body ← enclosed commands (pure ())
  modify fun t => { t with rest := s.rest, line := s.line }
  return body

end

inductive Ending where
  | quote
  | text
  -- The word in an expansion; between double quotes, or not.
  | brace (quoted : Bool)
  | parens
  deriving DecidableEq

structure Inner where
  commands : Read (Option Command)
  close : Read Unit
  upTo : Ending → Read Word

section

variable (inner : Inner)

def parameterUse (quoted : Bool) : Read (Option ParameterUse) := do
  let word : Read Word := inner.upTo (.brace quoted)
  let marked (colon : Bool) (mark : Option Char) : Read (Option ParameterUse) := do
    match mark with
    | some '\x7d' => if colon then return (some .value, ← word).1 else return some .value
    | some '-' => return some (.orElse colon (← word))
    | some '=' => return some (.orAssign colon (← word))
    | some '?' => return some (.orFail colon (← word))
    | some '+' => return some (.andThen colon (← word))
    | _ => return (none, ← word).1
  let trimmed (front : Bool) (mark : Char) : Read (Option ParameterUse) := do
    let longest ← accept mark
    return some (.trim front longest (← inner.upTo (.brace false)))
  match ← char? with
  | some '%' => trimmed false '%'
  | some '#' => trimmed true '#'
  | some ':' => do marked true (← char?)
  | mark => marked false mark

def braced (quoted : Bool) : Read Piece := do
  let used (name : List Char) : Read Piece := do
    match ← parameterUse inner quoted with
    | some use => return .parameter (.ofList name) use quoted
    | none => return .malformed
  let counted (name : List Char) : Read Piece := do
    if ← accept '\x7d' then return .parameter (.ofList name) .length quoted
    else
      let _ ← inner.upTo (.brace quoted)
      return .malformed
  match ← peek? with
  | some c =>
    if startsName c then used (← takeWhile continuesName)
    else if c.isDigit then used (← takeWhile Char.isDigit)
    else if c == '#' then
      let _ ← char?
      match ← peek? with
      | some d =>
        if startsName d then counted (← takeWhile continuesName)
        else if d.isDigit then counted (← takeWhile Char.isDigit)
        else
          let s ← get
          let _ ← char?
          if isSpecialParameter d && (← peek?) == some '\x7d' then
            let _ ← char?
            return .parameter (.singleton d) .length quoted
          else
            set s
            used ['#']
      | none => used ['#']
    else if isSpecialParameter c then
      let _ ← char?
      used [c]
    else
      let _ ← inner.upTo (.brace quoted)
      return .malformed
  | none => do
    let _ ← inner.upTo (.brace quoted)
    return .malformed

def dollar (quoted : Bool) : Read Piece := do
  match ← peek? with
  | some '(' =>
    let _ ← char?
    if ← accept '(' then return .arithmetic (← inner.upTo .parens) quoted
    else return .command (← enclosed inner.commands inner.close) quoted
  | some '\x7b' =>
    let _ ← char?
    braced inner quoted
  | some c =>
    if startsName c then
      return .parameter (.ofList (← takeWhile continuesName)) .value quoted
    else if c.isDigit || isSpecialParameter c then
      let _ ← char?
      return .parameter (.singleton c) .value quoted
    else return .text ['$'] quoted
  | none => return .text ['$'] quoted

def backquote (quoted : Bool) : Read Piece := do
  return .command (← nested inner.commands (← backquoted quoted)) quoted

def escaped (special : Char → Bool) (d : Draft) : Read Draft := do
  match ← rawChar? with
  | none => return d.add true '\\'
  | some '\n' => return d
  | some c => if special c then return d.add true c else return (d.add true '\\').add true c

-- Reads characters that are quoted, except for expansions, up to an ending.
def quotedUpTo (ending : Ending) : Read Word :=
  let expansion (d : Draft) (piece : Piece) : Draft :=
    match piece with
    | .text _ _ => d.add true '$'
    | piece => piece :: d
  loop (fun ((d, depth, inQuotes) : Draft × Nat × Bool) => do
    match ← char? with
    | none =>
      match ending with
      | .text => return .inr d.word
      | .parens => fault "Missing '))'"
      | _ => fault "Unterminated quoted string"
    | some '\\' =>
      let special (c : Char) : Bool :=
        c == '\\' || c == '`' || c == '$' || (c == '"' && ending != .text) ||
          (c == '\x7d' && ending == .brace true)
      return .inl (← escaped special d, depth, inQuotes)
    | some '$' => return .inl (expansion d (← dollar inner true), depth, inQuotes)
    | some '`' => return .inl ((← backquote inner true) :: d, depth, inQuotes)
    | some '"' =>
      match ending with
      | .quote => return .inr d.word
      | .brace _ => return .inl (d.quote, depth, !inQuotes)
      | _ => return .inl (d.add true '"', depth, inQuotes)
    | some '\x7d' =>
      if ending == .brace true && !inQuotes then return .inr d.word
      else return .inl (d.add true '\x7d', depth, inQuotes)
    | some '(' => return .inl (d.add true '(', depth + 1, inQuotes)
    | some ')' =>
      if ending == .parens && depth == 0 then
        if ← accept ')' then return .inr d.word
        else return .inl (d.add true ')', depth, inQuotes)
      else return .inl (d.add true ')', depth - 1, inQuotes)
    | some c => return .inl (d.add true c, depth, inQuotes))
    ([], 0, false)

def barePiece (d : Draft) (c : Char) : Read Draft := do
  match c with
  | '\'' => singleQuoted d
  | '"' =>
    match ← inner.upTo .quote with
    | [.parameter "@" .value quoted] => return .parameter "@" .value quoted :: d
    | w => return w.reverse.map reversed ++ d.quote
  | '\\' => escaped (fun _ => true) d
  | '$' =>
    match ← dollar inner false with
    | .text _ _ => return d.add false '$'
    | piece => return piece :: d
  | '`' => return (← backquote inner false) :: d
  | c => return d.add false c
where
  reversed : Piece → Piece
    | .text cs quoted => .text cs.reverse quoted
    | piece => piece

def bareBrace : Read Word :=
  loop (fun d => do
    match ← char? with
    | none => fault "Missing '\x7d'"
    | some '\x7d' => return .inr d.word
    | some c => return .inl (← barePiece inner d c)) []

def upToEnding (ending : Ending) : Read Word :=
  if ending == .brace false then bareBrace inner else quotedUpTo inner ending

def endsWord (c : Char) : Bool := " \t\n;&|()<>".toList.contains c

def wordDraft : Read Draft :=
  loop (fun d => do
    match ← peek? with
    | none => return .inr d
    | some c =>
      if endsWord c then return .inr d
      else
        let _ ← char?
        return .inl (← barePiece inner d c)) []

def redirectionMark (first : Char) : Read String := do
  if first == '>' then
    if ← accept '>' then return ">>"
    else if ← accept '|' then return ">|"
    else if ← accept '&' then return ">&"
    else return ">"
  else if ← accept '<' then
    if ← accept '-' then return "<<-" else return "<<"
  else if ← accept '&' then return "<&"
  else if ← accept '>' then return "<>"
  else return "<"

def descriptor? : Draft → Option (Option Nat)
  | [] => some none
  | [.text [c] false] => if c.isDigit then some (some (c.toNat - '0'.toNat)) else none
  | _ => none

def wordOrRedirection : Read Token := do
  let d ← wordDraft inner
  match ← peek?, descriptor? d with
  | some c, some descriptor =>
    if c == '<' || c == '>' then
      let _ ← char?
      let mark ← redirectionMark c
      return .redirection (descriptor.getD (if c == '<' then 0 else 1)) mark
    else return .word d.word
  | _, _ => return .word d.word

def skipBlanks : Read Unit := do
  let _ ← takeWhile fun c => c == ' ' || c == '\t'
  if (← peek?) == some '#' then
    modify fun s => { s with rest := s.rest.dropWhile (· != '\n') }

def plainToken : Read Token := do
  let s ← get
  match s.pushed with
  | some t =>
    set { s with pushed := none }
    return t
  | none =>
    skipBlanks
    let single (t : Token) : Read Token := do
      let _ ← char?
      return t
    let double (c : Char) (one two : Token) : Read Token := do
      let _ ← char?
      if ← accept c then return two else return one
    match ← peek? with
    | none => return .endOfFile
    | some '\n' => single .newline
    | some '&' => double '&' .ampersand .andIf
    | some '|' => double '|' .bar .orIf
    | some ';' => double ';' .semicolon .caseEnd
    | some '(' => single .leftParen
    | some ')' => single .rightParen
    | some _ => wordOrRedirection inner

def documentLines (d : PendingDocument) : Nat → List Char → List Char × List Char × Nat
  | 0, cs => ([], cs, 0)
  | fuel + 1, cs =>
    let cs := if d.stripsTabs then cs.dropWhile (· == '\t') else cs
    if cs.isEmpty then ([], [], 0)
    else
      let line := cs.takeWhile (· != '\n')
      let rest := cs.dropWhile (· != '\n')
      if line == d.marker then ([], rest.drop 1, 1)
      else
        let (body, behind, lines) := documentLines d fuel (rest.drop 1)
        (line ++ rest.take 1 ++ body, behind, lines + 1)

def documentBody (d : PendingDocument) : Read Unit := do
  let s ← get
  let (body, behind, lines) := documentLines d (s.rest.length + 1) s.rest
  let word ←
    if d.literal then pure [.text body true]
    else
      set { s with rest := body, pushed := none, pending := [] }
      inner.upTo .text
  modify fun t =>
    { t with
      rest := behind
      line := s.line + lines
      pushed := s.pushed
      pending := []
      documents := (d.number, word) :: t.documents }

def dueDocuments : Read Unit := do
  let pending := (← get).pending
  modify fun s => { s with pending := [] }
  pending.forM (documentBody inner)

def skipNewlines (t : Token) : Read Token :=
  loop (fun t => do
    match t with
    | .newline =>
      dueDocuments inner
      return .inl (← plainToken inner)
    | t => return .inr t) t

-- Reads a token, perhaps behind line breaks, and tells keywords from words if they may come.
def token (newlines keywords : Bool) : Read Token := do
  let t ← plainToken inner
  let t ← if newlines then skipNewlines inner t else pure t
  match t with
  | .word w =>
    match w.bare? with
    | some cs =>
      let name : String := .ofList cs
      if keywords && Token.keywords.contains name then return .keyword name else return t
    | none => return t
  | t => return t

end

end Read

end Classwright.Shell
