import Classwright.Shell.Lexis

namespace Classwright.Shell

inductive Extent where
  -- Up to the end of the line; it may be empty.
  | line
  | block
  -- Up to a token that ends a list; it may be empty.
  | branch
  deriving DecidableEq

structure Grammar where
  inner : Read.Inner
  list : Extent → Read (Option Command)
  command : Read Command

def specialBuiltins : List String :=
  [".", ":", "break", "continue", "eval", "exec", "exit", "export", "readonly", "return", "set",
    "shift", "times", "trap", "unset"]

namespace Read

section

variable (g : Grammar)

def nextToken : Read Token := token g.inner false false

def commandToken (newlines : Bool) : Read Token := token g.inner newlines true

-- Reads a list; it is empty only at the end of the script.
def block : Read Command := do return (← g.list .block).getD default

def expectKeyword (newlines : Bool) (name : String) : Read Unit := do
  let t ← commandToken g newlines
  if !t.isKeyword name then expecting t ("\"" ++ name ++ "\"")

def redirectionTarget (descriptor : Nat) (mark : String) : Read Redirection := do
  match ← nextToken g with
  | .word w =>
    if mark == "<<" || mark == "<<-" then
      let text (p : Piece) : List Char :=
        match p with
        | .text cs _ => cs
        | .parameter name _ _ => '$' :: name.toList
        | _ => []
      modify fun s =>
        { s with
          nextDocument := s.nextDocument + 1
          pending := s.pending ++
            [⟨s.nextDocument, w.flatMap text, !w.all isBarePiece, mark == "<<-"⟩] }
      return .document descriptor ((← get).nextDocument - 1)
    else if mark == ">&" || mark == "<&" then return .duplicate descriptor w
    else return .file descriptor (opening mark) w
  | t => unexpected t
where
  isBarePiece : Piece → Bool
    | .text _ quoted => !quoted
    | _ => true
  opening (mark : String) : Opening :=
    if mark == ">" then .write
    else if mark == ">|" then .overwrite
    else if mark == ">>" then .append
    else if mark == "<>" then .readWrite
    else .read

def redirections : Read (List Redirection) :=
  loop (fun done => do
    match ← commandToken g false with
    | .redirection descriptor mark =>
      return .inl ((← redirectionTarget g descriptor mark) :: done)
    | t =>
      pushBack t
      return .inr done.reverse) []

def words : Read (List Word × Token) :=
  loop (fun done => do
    match ← nextToken g with
    | .word w => return .inl (w :: done)
    | t => return .inr (done.reverse, t)) []

def conditional : Read Command :=
  loop (fun branches => do
    let test ← block g
    expectKeyword g false "then"
    let yes ← block g
    let branches := (test, yes) :: branches
    let t ← commandToken g false
    if t.isKeyword "elif" then return .inl branches
    else
      let no ← if t.isKeyword "else" then some <$> block g else do
        pushBack t
        pure none
      return .inr (close branches no)) []
where
  close (branches : List (Command × Command)) (no : Option Command) : Command :=
    (branches.foldl (fun no (test, yes) => some (.conditional test yes no)) no).getD default

def rightParen : Read Unit := do
  match ← nextToken g with
  | .rightParen => return
  | t => expecting t "\")\""

def whileLoop (untilTrue : Bool) : Read Command := do
  let test ← block g
  expectKeyword g false "do"
  return .loop untilTrue test (← block g)

def forLoop (line : Nat) : Read Command := do
  let name ←
    match ← nextToken g with
    | .word w =>
      match w.bare? with
      | some cs => if isName cs then pure (String.ofList cs) else fault "Bad for loop variable"
      | none => fault "Bad for loop variable"
    | _ => fault "Bad for loop variable"
  let t ← commandToken g true
  let items ←
    if t.isKeyword "in" then do
      let (items, t) ← words g
      match t with
      | .newline => dueDocuments g.inner
      | .semicolon => pure ()
      | t => unexpected t
      pure items
    else do
      match t with
      | .semicolon => pure ()
      | t => pushBack t
      pure [[.parameter "@" .value true]]
  expectKeyword g true "do"
  return .forEach line name items (← block g)

def patterns (first : Token) : Read (List Word) :=
  loop (fun (done, t) => do
    let pattern : Word :=
      match t with
      | .word w => w
      | .keyword name => [.text name.toList false]
      | _ => []
    let done := pattern :: done
    match ← nextToken g with
    | .bar => return .inl (done, ← nextToken g)
    | .rightParen => return .inr done.reverse
    | t => expecting t "\")\"") ([], first)

def caseCommand (line : Nat) : Read Command := do
  let word ←
    match ← nextToken g with
    | .word w => pure w
    | t => expecting t "word"
  expectKeyword g true "in"
  let cases ← loop (fun done => do
    let t ← commandToken g true
    if t.isKeyword "esac" then return .inr done.reverse
    let first ←
      match t with
      | .leftParen => nextToken g
      | t => pure t
    let ps ← patterns g first
    let body ← g.list .branch
    let done := (ps, body) :: done
    match ← commandToken g true with
    | .caseEnd => return .inl done
    | t => if t.isKeyword "esac" then return .inr done.reverse else expecting t "\";;\"") []
  return .select line word cases

def function (name : Word) : Read Command := do
  rightParen g
  let cs := (Word.bare? name).getD []
  if !isName cs || specialBuiltins.contains (.ofList cs) then fault "Bad function name"
  let t ← commandToken g true
  pushBack t
  return .define (.ofList cs) (← g.command)

structure SimpleDraft where
  assignments : List (String × Word)
  words : List Word
  redirections : List Redirection

def simpleCommand (line : Nat) : Read Command :=
  loop (fun (d : SimpleDraft) => do
    match ← nextToken g with
    | .word w =>
      match d.words, w.assignment? with
      | [], some assignment =>
        return .inl { d with assignments := assignment :: d.assignments }
      | _, _ => return .inl { d with words := w :: d.words }
    | .redirection descriptor mark =>
      let r ← redirectionTarget g descriptor mark
      return .inl { d with redirections := r :: d.redirections }
    | .leftParen =>
      match d.words, d.assignments, d.redirections with
      | [name], [], [] => return .inr (← function g name)
      | _, _, _ => unexpected .leftParen
    | t =>
      pushBack t
      return .inr (.simple line d.assignments.reverse d.words.reverse d.redirections.reverse))
    ⟨[], [], []⟩

-- Reads a compound command behind its first keyword; `close` is the token that ends it.
def compound (line : Nat) (c : Command) : Read Command := do
  match ← redirections g with
  | [] => return c
  | rs =>
    match c with
    | .subshell line body _ => return .subshell line body rs
    | c => return .redirected line c rs

def commandStep : Read Command := do
  let t ← commandToken g false
  let line := (← get).line
  let closed (name : String) (body : Read Command) : Read Command := do
    let c ← body
    expectKeyword g false name
    compound g line c
  match t with
  | .keyword "if" => closed "fi" (conditional g)
  | .keyword "while" => closed "done" (whileLoop g false)
  | .keyword "until" => closed "done" (whileLoop g true)
  | .keyword "for" => closed "done" (forLoop g line)
  | .keyword "case" => do compound g line (← caseCommand g line)
  | .keyword "\x7b" => closed "\x7d" (block g)
  | .leftParen => do
    let body ← block g
    rightParen g
    compound g line (.subshell line body [])
  | .word w => do
    pushBack (.word w)
    simpleCommand g line
  | .redirection descriptor mark => do
    pushBack (.redirection descriptor mark)
    simpleCommand g line
  | t => unexpected t

def pipelineStep : Read Command := do
  let t ← commandToken g false
  let negated := t.isKeyword "!"
  if !negated then pushBack t
  let first ← g.command
  let c ← loop (fun done => do
    match ← nextToken g with
    | .bar =>
      let t ← commandToken g true
      pushBack t
      return .inl ((← g.command) :: done)
    | t =>
      pushBack t
      match done with
      | [c] => return .inr c
      | _ => return .inr (.pipeline done.reverse)) [first]
  return if negated then .negated c else c

def andOr : Read Command := do
  let further (make : Command → Command) : Read (Command ⊕ Command) := do
    let t ← commandToken g true
    pushBack t
    return .inl (make (← pipelineStep g))
  let first ← pipelineStep g
  loop (fun c => do
    match ← nextToken g with
    | .andIf => further (.both c)
    | .orIf => further (.either c)
    | t =>
      pushBack t
      return .inr c) first

def appended (list : Option Command) (c : Command) : Option Command :=
  match list with
  | none => some c
  | some first => some (.sequence first c)

def listStep (extent : Extent) : Read (Option Command) :=
  let newlines := extent != .line
  loop (fun (done, mayEnd) => do
    let t ← commandToken g newlines
    match t, newlines with
    | .newline, false =>
      dueDocuments g.inner
      return .inr done
    | .endOfFile, _ =>
      dueDocuments g.inner
      pushBack .endOfFile
      return .inr done
    | t, _ =>
      pushBack t
      if mayEnd && t.endsList then return .inr done
      let line := (← get).line
      let c ← andOr g
      let again (c : Command) := (.inl (appended done c, newlines) : (Option Command × Bool) ⊕ _)
      match ← nextToken g with
      | .ampersand => return again (.background line c)
      | .semicolon => return again c
      | .newline =>
        pushBack .newline
        return again c
      | .endOfFile =>
        dueDocuments g.inner
        pushBack .endOfFile
        return .inr (appended done c)
      | t =>
        if !newlines then unexpected t
        pushBack t
        return .inr (appended done c)) (none, extent == .branch)

end

-- The readers for scripts in which expansions and compounds are nested at most `depth` deep.
def grammar : Nat → Grammar
  | 0 => ⟨⟨tooDeep, tooDeep, fun _ => tooDeep⟩, fun _ => tooDeep, tooDeep⟩
  | depth + 1 => {
      inner := {
        commands := do listStep (grammar depth) .branch
        close := do rightParen (grammar depth)
        upTo := fun ending => do upToEnding (grammar depth).inner ending }
      list := fun extent => do listStep (grammar depth) extent
      command := do commandStep (grammar depth) }
where
  tooDeep {α : Type} : Read α := fault "nesting too deep"

def maxDepth : Nat := 1000

def atEnd : Read Bool := do
  let s ← get
  match s.pushed with
  | some .endOfFile => return true
  | some _ => return false
  | none => return s.rest.isEmpty

def nextLine : Read (Option Command) := do
  modify fun s => { s with pushed := none, pending := [] }
  listStep (grammar maxDepth) .line

end Read

end Classwright.Shell
