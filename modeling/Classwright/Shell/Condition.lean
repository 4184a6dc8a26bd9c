import Classwright.Shell.Arithmetic

namespace Classwright.Shell

namespace Condition

def unaryMarks : List String :=
  ["-r", "-w", "-x", "-e", "-f", "-d", "-c", "-b", "-p", "-u", "-g", "-k", "-s", "-t", "-z", "-n",
    "-h", "-O", "-G", "-L", "-S"]

def binaryMarks : List String :=
  ["=", "!=", "<", ">", "-eq", "-ne", "-gt", "-ge", "-lt", "-le", "-nt", "-ot", "-ef"]

inductive Role where
  | ending
  | operand
  | unary
  | binary
  | negation
  | conjunction
  | disjunction
  | opens
  | closes
  deriving DecidableEq

structure Reading where
  words : List String
  position : Nat

abbrev Test (m : Type → Type) := StateT Reading (ShellM m)

def wordAt? (r : Reading) (offset : Nat) : Option String := r.words[r.position + offset]?

def isBinary (word : Option String) : Bool := (word.map binaryMarks.contains).getD false

def roleAt (r : Reading) (offset : Nat) : Role :=
  match wordAt? r offset with
  | none => .ending
  | some word =>
    if unaryMarks.contains word then
      let isOperand :=
        match wordAt? r (offset + 1), wordAt? r (offset + 2) with
        | none, _ => true
        | some _, none => false
        | next, some _ => isBinary next
      if isOperand then .operand else .unary
    else if binaryMarks.contains word then .binary
    else match word with
      | "!" => .negation
      | "-a" => .conjunction
      | "-o" => .disjunction
      | "(" => if (wordAt? r (offset + 1)).isSome then .opens else .operand
      | ")" => .closes
      | _ => .operand

section

variable {m : Type → Type} [Monad m]

def complainOf {α : Type} (text : String) : Test m α := StateT.lift (fail text)

def number (text : String) : Test m Int := do
  let cs := text.toList.dropWhile Text.ByteClass.isSpace
  let digits :=
    match cs with
    | '-' :: rest => rest
    | '+' :: rest => rest
    | cs => cs
  let rest := digits.dropWhile Char.isDigit
  let size : Int := (digitsValue? 10 (digits.takeWhile Char.isDigit)).getD 0
  let n := if cs.head? == some '-' then -size else size
  let isNumber := digits.head?.any Char.isDigit && rest.all Text.ByteClass.isSpace
  if isNumber && clamped n == n then return n else complainOf ("Illegal number: " ++ text)

def ofFile (mark path : String) : Test m Bool := StateT.lift do
  let full ← fullPath path
  let kind? ← onHost (·.kind? full)
  match mark with
  | "-h" => return (← onHost (·.linkTarget? full)).isSome
  | "-L" => return (← onHost (·.linkTarget? full)).isSome
  | "-f" => return kind? == some .file
  | "-d" => return kind? == some .directory
  | "-x" =>
    return kind? == some .directory || (kind? == some .file && (← onHost (·.isExecutable full)))
  | "-s" =>
    match ← onHost (·.readBytes full) with
    | .ok text => return !text.isEmpty
    | .error _ => return kind? == some .directory
  | "-c" => return path == "/dev/null"
  | mark =>
    return (kind?.isSome || path == "/dev/null") && ["-e", "-r", "-w", "-O", "-G"].contains mark

def ofUnary (mark operand : String) : Test m Bool :=
  match mark with
  | "-z" => return operand.isEmpty
  | "-n" => return !operand.isEmpty
  | "-t" => do
    let _ ← number operand
    return false
  | mark => ofFile mark operand

def ofBinary (mark left right : String) : Test m Bool := do
  match mark with
  | "=" => return left == right
  | "!=" => return left != right
  | "<" => return left < right
  | ">" => return right < left
  | "-nt" => return (← ofFile "-e" left) && !(← ofFile "-e" right)
  | "-ot" => return !(← ofFile "-e" left) && (← ofFile "-e" right)
  | "-ef" => return (← ofFile "-e" left) && left == right
  | mark =>
    let a ← number left
    let b ← number right
    match mark with
    | "-eq" => return a == b
    | "-ne" => return a != b
    | "-gt" => return a > b
    | "-ge" => return a ≥ b
    | "-lt" => return a < b
    | _ => return a ≤ b

def advance (count : Nat) : Test m Unit :=
  modify fun r => { r with position := r.position + count }

-- Decides what starts at the next word; that word and its role are given.
def primary (whole : Test m Bool) : Test m Bool := do
  let r ← get
  let word := (wordAt? r 0).getD ""
  match roleAt r 0 with
  | .ending => return false
  | .opens =>
    advance 1
    if roleAt (← get) 0 == .closes then return false
    let result ← whole
    advance 1
    if roleAt (← get) 0 != .closes then complainOf "closing paren expected"
    return result
  | .unary =>
    match wordAt? r 1 with
    | none => complainOf (word ++ ": argument expected")
    | some operand =>
      advance 1
      ofUnary word operand
  | _ =>
    if isBinary (wordAt? r 1) then
      match wordAt? r 1, wordAt? r 2 with
      | some mark, some right =>
        advance 2
        ofBinary mark word right
      | mark, _ => complainOf (mark.getD "" ++ ": argument expected")
    else return !word.isEmpty

def negation (whole : Test m Bool) : Nat → Test m Bool
  | 0 => primary whole
  | limit + 1 => do
    if roleAt (← get) 0 != .negation then primary whole
    else
      if roleAt (← get) 1 != .ending then advance 1
      else
        advance 1
        return true
      return !(← negation whole limit)

-- Decides parts with a mark between them; all are decided.
def joined (role : Role) (isConjunction : Bool) (part : Test m Bool) : Nat → Test m Bool
  | 0 => return isConjunction
  | limit + 1 => do
    let first ← part
    if roleAt (← get) 1 == role then
      advance 2
      let rest ← joined role isConjunction part limit
      return if isConjunction then first && rest else first || rest
    else return first

def expression (limit : Nat) : Nat → Test m Bool
  | 0 => return false
  | depth + 1 => do
    joined .disjunction false
      (joined .conjunction true (negation (expression limit depth) limit) limit) limit

-- Decides a condition; those of three or four words follow simple rules first.
def decide (words : List String) : Nat → ShellM m Bool
  | 0 => return false
  | limit + 1 => do
    let run (ws : List String) : ShellM m Bool := do
      let (result, r) ← (expression (ws.length + 1) (ws.length + 1)).run ⟨ws, 0⟩
      match r.words.drop r.position with
      | word :: _ :: _ => if word.isEmpty then fail "unexpected operator" else
          fail (word ++ ": unexpected operator")
      | _ => return result
    match words with
    | [] => return false
    | [left, mark, right] =>
      if binaryMarks.contains mark then
        let (result, _) ← (ofBinary mark left right).run ⟨words, 0⟩
        return result
      else if left == "(" && right == ")" then run [mark]
      else if left == "!" then return !(← decide [mark, right] limit)
      else run words
    | [first, second, third, fourth] =>
      if first == "(" && fourth == ")" then run [second, third]
      else if first == "!" then return !(← decide [second, third, fourth] limit)
      else run words
    | words => run words

end

end Condition

end Classwright.Shell
