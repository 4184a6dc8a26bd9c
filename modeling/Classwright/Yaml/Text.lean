import Classwright.Number.Digits
import Classwright.Yaml.Cursor

namespace Classwright.Yaml

structure Gap where
  spaces : List Char
  breaks : List Char
  -- The first break was escaped, so it leaves no space.
  escaped : Bool
  atLineStart : Bool

namespace Gap

def none : Gap := ⟨[], [], false, false⟩

def push (gap : Gap) (c : Char) : Gap :=
  if isBreak c then { gap with breaks := c :: gap.breaks, atLineStart := true }
  else if gap.breaks.isEmpty && !gap.escaped then
    { gap with spaces := c :: gap.spaces, atLineStart := false }
  else { gap with atLineStart := false }

def hasBreak (gap : Gap) : Bool := gap.escaped || !gap.breaks.isEmpty

def text (gap : Gap) : List Char :=
  if gap.escaped then gap.breaks.reverse
  else match gap.breaks.reverse with
    | [] => gap.spaces.reverse
    | first :: more =>
      if first != '\n' then first :: more
      else if more.isEmpty then [' ']
      else more

end Gap

structure Scanned where
  text : List Char
  length : Nat

def codeEscape? (count : Nat) (cs : List Char) : Option (Char × Nat) := do
  let digits := cs.take count
  if digits.length < count then none
  let code ← digitsValue? 16 digits
  if Nat.isValidChar code then some (Char.ofNat code, count + 1) else none

def escape? : List Char → Option (Char × Nat)
  | [] => none
  | c :: cs =>
    match c with
    | '0' => some ('\x00', 1)
    | 'a' => some ('\x07', 1)
    | 'b' => some ('\x08', 1)
    | 't' => some ('\t', 1)
    | '\t' => some ('\t', 1)
    | 'n' => some ('\n', 1)
    | 'v' => some ('\x0b', 1)
    | 'f' => some ('\x0c', 1)
    | 'r' => some ('\r', 1)
    | 'e' => some ('\x1b', 1)
    | ' ' => some (' ', 1)
    | '"' => some ('"', 1)
    | '/' => some ('/', 1)
    | '\\' => some ('\\', 1)
    | 'N' => some ('\u0085', 1)
    | '_' => some ('\u00a0', 1)
    | 'L' => some ('\u2028', 1)
    | 'P' => some ('\u2029', 1)
    | 'x' => codeEscape? 2 cs
    | 'u' => codeEscape? 4 cs
    | 'U' => codeEscape? 8 cs
    | _ => none

-- Reads a quoted scalar after its opening quote. `skip` characters belong to an escape already
-- read, `gap` is open before the next character, `done` is the text so far, the last character
-- first. A single line break inside a scalar reads as a space, and further ones are kept.
def scanQuoted (quote : Char) (skip : Nat) (gap : Gap) (done : List Char) (length : Nat) :
    List Char → Option Scanned
  | [] => none
  | c :: cs =>
    match skip with
    | skip + 1 => scanQuoted quote skip gap done (length + 1) cs
    | 0 =>
      if isSpace c || isBreak c then scanQuoted quote 0 (gap.push c) done (length + 1) cs
      else if gap.atLineStart && isDocumentMarker (c :: cs) then none
      else
        let done := gap.text.reverse ++ done
        if c == quote then
          if quote == '\'' && cs.head? == some '\'' then
            scanQuoted quote 1 .none ('\'' :: done) (length + 1) cs
          else some ⟨done.reverse, length + 1⟩
        else if quote == '"' && c == '\\' then
          if cs.head?.any isBreak then scanQuoted quote 1 ⟨[], [], true, true⟩ done (length + 1) cs
          else match escape? cs with
            | some (x, taken) => scanQuoted quote taken .none (x :: done) (length + 1) cs
            | none => none
        else scanQuoted quote 0 .none (c :: done) (length + 1) cs

def isFlowIndicator (c : Char) : Bool :=
  c == ',' || c == '[' || c == ']' || c == '\x7b' || c == '\x7d'

-- May a plain scalar start with `c`, when `rest` follows?
def startsPlain (inFlow : Bool) (c : Char) (rest : List Char) : Bool :=
  if c == '-' then !blankNext rest
  else if c == '?' || c == ':' then !inFlow && !blankNext rest
  else !(isSpace c || isBreak c || isFlowIndicator c || "#&*!|>'\"%@`".toList.contains c)

-- The longest word of a plain scalar; a colon that touches a bracket or comma is refused.
def plainWord? (inFlow : Bool) : List Char → Option (List Char)
  | [] => some []
  | c :: cs =>
    if isSpace c || isBreak c || (c == ':' && blankNext cs) || (inFlow && isFlowIndicator c) then
      some []
    else if inFlow && c == ':' && cs.head?.any (fun x => isFlowIndicator x || x == '?') then none
    else (plainWord? inFlow cs).map (c :: ·)

def spanGap (cs : List Char) : List Char := cs.takeWhile fun c => isSpace c || isBreak c

-- Does a gap that starts in `column` hold a tab in the indentation, left of column `base`? Line by
-- line, only the columns after a break count.
def tabInIndent (base : Nat) (afterBreak : Bool) (column : Nat) : List Char → Bool
  | [] => false
  | c :: cs =>
    if isBreak c then tabInIndent base true 0 cs
    else (afterBreak && c == '\t' && column < base) || tabInIndent base afterBreak (column + 1) cs

-- Reads a plain scalar word by word. Outside brackets it goes on as long as its lines are indented
-- to `base`; the cursor stands behind the blanks that follow it. Tells also whether there was a
-- line break among them.
def scanPlain (inFlow : Bool) (base : Nat) :
    Nat → List Char → Cursor → Option (List Char × Cursor × Bool)
  | 0, _, _ => none
  | fuel + 1, done, c => do
    let word ← plainWord? inFlow c.rest
    let done := done ++ word
    let c := c.advance word.length
    let blanks := spanGap c.rest
    if tabInIndent base false c.column blanks then none
    let gap := blanks.foldl Gap.push .none
    let c := c.advance blanks.length
    if c.atEnd || c.rest.head? == some '#' || (!inFlow && c.column < base) then
      return (done, c, gap.hasBreak)
    let next ← plainWord? inFlow c.rest
    if next.isEmpty then return (done, c, gap.hasBreak)
    scanPlain inFlow base fuel (done ++ gap.text) c

end Classwright.Yaml
