namespace Classwright.Shell

structure SyntaxFault where
  line : Nat
  reason : String
  deriving DecidableEq

inductive Opening where
  | read
  | write
  | append
  | overwrite
  | readWrite
  deriving DecidableEq

mutual

-- Texts are bytes. The bodies of here documents stand apart from the commands that they feed and
-- are known by number.
inductive Piece where
  | text (chars : List Char) (quoted : Bool)
  | parameter (name : String) (use : ParameterUse) (quoted : Bool)
  | command (body : Option Command) (quoted : Bool)
  | arithmetic (expression : List Piece) (quoted : Bool)
  | malformed

inductive ParameterUse where
  | value
  | length
  | orElse (colon : Bool) (word : List Piece)
  | orAssign (colon : Bool) (word : List Piece)
  | orFail (colon : Bool) (word : List Piece)
  | andThen (colon : Bool) (word : List Piece)
  | trim (front longest : Bool) (pattern : List Piece)

inductive Redirection where
  | file (descriptor : Nat) (opening : Opening) (target : List Piece)
  -- To what another descriptor leads to; with a dash, to nowhere.
  | duplicate (descriptor : Nat) (source : List Piece)
  | document (descriptor number : Nat)

inductive Command where
  | simple (line : Nat) (assignments : List (String × List Piece)) (words : List (List Piece))
      (redirections : List Redirection)
  | pipeline (commands : List Command)
  | negated (command : Command)
  | both (first second : Command)
  | either (first second : Command)
  | sequence (first second : Command)
  | background (line : Nat) (command : Command)
  | redirected (line : Nat) (command : Command) (redirections : List Redirection)
  | subshell (line : Nat) (command : Command) (redirections : List Redirection)
  | conditional (test yes : Command) (no : Option Command)
  | loop (untilTrue : Bool) (test body : Command)
  | forEach (line : Nat) (name : String) (words : List (List Piece)) (body : Command)
  | select (line : Nat) (word : List Piece) (cases : List (List (List Piece) × Option Command))
  | define (name : String) (body : Command)

end

abbrev Word := List Piece

instance : Inhabited Command := ⟨.pipeline []⟩

namespace Word

def bare? : Word → Option (List Char)
  | [] => some []
  | .text chars false :: rest => (bare? rest).map (chars ++ ·)
  | _ => none

end Word

def startsName (c : Char) : Bool := c.isAlpha || c == '_'

def continuesName (c : Char) : Bool := c.isAlphanum || c == '_'

def isName (cs : List Char) : Bool :=
  match cs with
  | [] => false
  | c :: rest => startsName c && rest.all continuesName

def Word.assignment? (w : Word) : Option (String × Word) :=
  match w with
  | .text chars false :: rest =>
    let name := chars.takeWhile continuesName
    match chars.dropWhile continuesName with
    | '=' :: value =>
      if isName name then
        some (.ofList name, if value.isEmpty then rest else .text value false :: rest)
      else none
    | _ => none
  | _ => none

end Classwright.Shell
