import Classwright.Shell.Syntax

namespace Classwright.Shell

inductive Token where
  | newline
  | semicolon
  | ampersand
  | andIf
  | orIf
  | bar
  | leftParen
  | rightParen
  | caseEnd
  | endOfFile
  | redirection (descriptor : Nat) (mark : String)
  | word (word : Word)
  | keyword (name : String)

namespace Token

def label : Token → String
  | .newline => "newline"
  | .semicolon => "\";\""
  | .ampersand => "\"&\""
  | .andIf => "\"&&\""
  | .orIf => "\"||\""
  | .bar => "\"|\""
  | .leftParen => "\"(\""
  | .rightParen => "\")\""
  | .caseEnd => "\";;\""
  | .endOfFile => "end of file"
  | .redirection _ _ => "redirection"
  | .word _ => "word"
  | .keyword name => "\"" ++ name ++ "\""

def endsList : Token → Bool
  | .endOfFile => true
  | .rightParen => true
  | .caseEnd => true
  | .keyword name => ["do", "done", "elif", "else", "esac", "fi", "then", "\x7d"].contains name
  | _ => false

def isKeyword (t : Token) (name : String) : Bool :=
  match t with
  | .keyword other => other == name
  | _ => false

def keywords : List String :=
  ["!", "case", "do", "done", "elif", "else", "esac", "fi", "for", "if", "in", "then", "until",
    "while", "\x7b", "\x7d"]

end Token

structure PendingDocument where
  number : Nat
  marker : List Char
  literal : Bool
  stripsTabs : Bool

structure Source where
  rest : List Char
  line : Nat
  pushed : Option Token
  pending : List PendingDocument
  documents : List (Nat × Word)
  nextDocument : Nat

abbrev Read := ExceptT SyntaxFault (StateM Source)

namespace Source

-- A script that starts at a line; its here documents are numbered from `nextDocument` on.
def ofText (text : String) (nextDocument : Nat) : Source :=
  ⟨text.toList, 1, none, [], [], nextDocument⟩

def joinLines : List Char → Nat → List Char × Nat
  | '\\' :: '\n' :: rest, line => joinLines rest (line + 1)
  | cs, line => (cs, line)

end Source

namespace Read

def fault {α : Type} (reason : String) : Read α := do
  throw ⟨(← get).line, "Syntax error: " ++ reason⟩

def unexpected {α : Type} (t : Token) : Read α := fault (t.label ++ " unexpected")

def expecting {α : Type} (t : Token) (wanted : String) : Read α :=
  fault (t.label ++ " unexpected (expecting " ++ wanted ++ ")")

def rawChar? : Read (Option Char) := do
  let s ← get
  match s.rest with
  | [] => return none
  | c :: rest =>
    set { s with rest := rest, line := if c == '\n' then s.line + 1 else s.line }
    return some c

def peek? : Read (Option Char) := do
  let s ← get
  let (rest, line) := Source.joinLines s.rest s.line
  set { s with rest := rest, line := line }
  return rest.head?

def char? : Read (Option Char) := do
  let _ ← peek?
  rawChar?

def accept (c : Char) : Read Bool := do
  if (← peek?) == some c then
    let _ ← rawChar?
    return true
  else return false

def takeWhile (p : Char → Bool) : Read (List Char) := do
  go ((← get).rest.length + 1) []
where
  go : Nat → List Char → Read (List Char)
    | 0, done => return done.reverse
    | fuel + 1, done => do
      match ← peek? with
      | some c =>
        if p c then
          let _ ← rawChar?
          go fuel (c :: done)
        else return done.reverse
      | none => return done.reverse

-- Repeats a step until it comes to a result; no step may leave the text as it was for long.
def loop {σ α : Type} (step : σ → Read (σ ⊕ α)) (start : σ) : Read α := do
  go (2 * (← get).rest.length + 8) start
where
  go : Nat → σ → Read α
    | 0, _ => fault "script too long"
    | fuel + 1, state => do
      match ← step state with
      | .inl next => go fuel next
      | .inr result => return result

def pushBack (t : Token) : Read Unit := modify fun s => { s with pushed := some t }

end Read

end Classwright.Shell
