import Classwright.Shell.Wildcard
import Classwright.Text.Regex
import Classwright.Tool.Basic

namespace Classwright.Tool.Find

open Shell Text

structure Bound where
  order : Ordering
  count : Nat

namespace Bound

def ofText? (text : String) : Option Bound :=
  match text.toList with
  | '+' :: rest => (digitsValue? 10 rest).map (⟨.gt, ·⟩)
  | '-' :: rest => (digitsValue? 10 rest).map (⟨.lt, ·⟩)
  | cs => (digitsValue? 10 cs).map (⟨.eq, ·⟩)

def holds (b : Bound) (n : Nat) : Bool := compare n b.count == b.order

end Bound

-- How the permissions of a file are tested: all of them, at least those given, or any of them.
inductive ModeTest where
  | exactly
  | all
  | any
  deriving DecidableEq

inductive Test where
  | constant (value : Bool)
  | name (pattern : List Wildcard) (ignoresCase : Bool)
  | path (pattern : List Wildcard) (ignoresCase : Bool)
  | regex (r : Regex) (ignoresCase : Bool)
  -- The letters of the types that are meant; links may be followed.
  | type (letters : List Char) (through : Bool)
  | size (b : Bound) (unit : Nat)
  | empty
  | mode (test : ModeTest) (bits : Nat)
  | executable
  | links (b : Bound)
  | target (pattern : List Wildcard)
  | sameFile (path : String)

inductive Action where
  | print
  | printNull
  | printFormat (format : String)
  -- Runs a program for each file; one of the directory names the file from there.
  | run (words : List String) (fromDirectory asks : Bool)
  -- Runs a program for all files at once; they are collected under a number.
  | runForAll (number : Nat) (words : List String)
  | delete
  | prune
  | quit

inductive Expr where
  | test (t : Test)
  | action (a : Action)
  | not (e : Expr)
  | and (a b : Expr)
  | or (a b : Expr)
  | sequence (a b : Expr)

namespace Expr

def acts : Expr → Bool
  | .test _ => false
  | .action .prune => false
  | .action .quit => true
  | .action _ => true
  | .not e => e.acts
  | .and a b => a.acts || b.acts
  | .or a b => a.acts || b.acts
  | .sequence a b => a.acts || b.acts

def deletes : Expr → Bool
  | .test _ => false
  | .action .delete => true
  | .action _ => false
  | .not e => e.deletes
  | .and a b => a.deletes || b.deletes
  | .or a b => a.deletes || b.deletes
  | .sequence a b => a.deletes || b.deletes

end Expr

structure Plan where
  least : Nat
  most : Option Nat
  depthFirst : Bool
  follows : Bool
  followsRoots : Bool
  extended : Bool
  batches : Nat

inductive Fault where
  | text (text : String)
  -- A word that stands behind a part of the expression, but is none.
  | stray (word behind : String)

structure Reading where
  rest : List String
  last : String
  plan : Plan

abbrev Read := StateT Reading (Except Fault)

def fault {α : Type} (text : String) : Read α := throw (.text text)

namespace Read

def peek? : Read (Option String) := return (← get).rest.head?

def next? : Read (Option String) := do
  let s ← get
  match s.rest with
  | [] => return none
  | word :: rest =>
    set { s with rest := rest, last := word }
    return some word

def argument (name : String) : Read String := do
  let s ← get
  match s.rest with
  | [] => fault ("missing argument to \x60" ++ name ++ "'")
  | word :: rest =>
    set { s with rest := rest }
    return word

def bound (name : String) : Read Bound := do
  let text ← argument name
  match Bound.ofText? text with
  | some b => return b
  | none => fault ("invalid argument \x60" ++ text ++ "' to \x60" ++ name ++ "'")

def depth (name : String) : Read Nat := do
  let text ← argument name
  match digitsValue? 10 text.toList with
  | some n => return n
  | none =>
    fault ("Expected a positive decimal integer argument to " ++ name ++ ", but got " ++
      quoted text)

def modifyPlan (f : Plan → Plan) : Read Unit := modify fun s => { s with plan := f s.plan }

def types (name : String) : List Char → Read (List Char)
  | [] => fault ("Arguments to " ++ name ++ " should contain at least one letter")
  | c :: rest =>
    if !"bcdpflsD".toList.contains c then
      fault ("Unknown argument to " ++ name ++ ": " ++ .singleton c)
    else match rest with
      | [] => return [c]
      | [','] =>
        fault ("Last file type in list argument to " ++ name ++
          " is missing, i.e., list is ending on: ','")
      | ',' :: more => return c :: (← types name more)
      | _ => fault ("Must separate multiple arguments to " ++ name ++ " using: ','")

def unit? (c : Char) : Option Nat :=
  [('c', 1), ('w', 2), ('b', 512), ('k', 1024), ('M', Nat.pow 1024 2), ('G', Nat.pow 1024 3)].lookup c

def size : Read Test := do
  let text ← argument "-size"
  let cs := text.toList
  let last := cs.getLastD '\x00'
  let invalid {α : Type} : Read α := fault ("invalid -size type \x60" ++ .singleton last ++ "'")
  if last.isDigit then
    match Bound.ofText? text with
    | some b => return .size b 512
    | none => fault ("invalid argument \x60" ++ text ++ "' to \x60-size'")
  else match unit? last, Bound.ofText? (.ofList cs.dropLast) with
    | some unit, some b => return .size b unit
    | none, _ => invalid
    | _, none => fault ("invalid argument \x60" ++ text ++ "' to \x60-size'")

def modeBits? (text : String) : Option Nat :=
  match digitsValue? 8 text.toList with
  | some n => some n
  | none =>
    (Text.splitOn ',' text).foldlM (fun bits clause => do
      let cs := clause.toList
      let who := cs.takeWhile "ugoa".toList.contains
      match cs.drop who.length with
      | sign :: letters =>
        if sign != '+' && sign != '=' then none
        else if !letters.all "rwx".toList.contains then none
        else
          let one := (if letters.contains 'r' then 4 else 0) +
            (if letters.contains 'w' then 2 else 0) + (if letters.contains 'x' then 1 else 0)
          let everyone := who.isEmpty || who.contains 'a'
          let part (c : Char) (shift : Nat) : Nat :=
            if everyone || who.contains c then one <<< shift else 0
          some (bits ||| part 'u' 6 ||| part 'g' 3 ||| part 'o' 0)
      | [] => none) 0

def mode : Read Test := do
  let text ← argument "-perm"
  let (test, rest) := match text.toList with
    | '-' :: rest => (ModeTest.all, String.ofList rest)
    | '/' :: rest => (.any, .ofList rest)
    | _ => (.exactly, text)
  match modeBits? rest with
  | some bits => return .mode test bits
  | none => fault ("invalid mode " ++ quoted text)

def swapMarks : List Char → List Char
  | '\\' :: c :: rest =>
    if c == '+' || c == '?' then c :: swapMarks rest else '\\' :: c :: swapMarks rest
  | c :: rest => if c == '+' || c == '?' then '\\' :: c :: swapMarks rest else c :: swapMarks rest
  | [] => []

def regex (name : String) (ignoresCase : Bool) : Read Test := do
  let text := (← argument name).toList
  let extended := (← get).plan.extended
  match Regex.ofText ⟨extended, false⟩ (if extended then text else swapMarks text) with
  | .ok (r, _) => return .regex r ignoresCase
  | .error f => fault (f.reason)

def command (name : String) (limit : Nat) : Read (List String × Bool) := do
  let (words, batch) ← go limit []
  if words.isEmpty then
    fault ("invalid argument \x60;' to \x60" ++ name ++ "'")
  return (words, batch)
where
  go : Nat → List String → Read (List String × Bool)
    | 0, _ => fault ("missing argument to \x60" ++ name ++ "'")
    | limit + 1, done => do
      match ← argument name with
      | ";" => return (done.reverse, false)
      | "+" =>
        match done with
        | last :: _ =>
          if last == "\x7b\x7d" then return (done.reverse, true)
          else if 1 < (last.splitOn "\x7b\x7d").length then
            fault ("In '" ++ name ++ " ... \x7b\x7d +' the '\x7b\x7d' must appear by itself, " ++
              "but you specified " ++ quoted last)
          else go limit ("+" :: done)
        | [] => go limit ("+" :: done)
      | word => go limit (word :: done)

def wildcard (name : String) : Read (List Wildcard) :=
  return Wildcard.ofText (← argument name)

-- Reads a test about the age or the owner of a file; all files are new, and the user's.
def surrounding? (name : String) : Read (Option Test) := do
  match name with
  | "-mtime" => return some (.constant ((← bound name).holds 0))
  | "-atime" => return some (.constant ((← bound name).holds 0))
  | "-ctime" => return some (.constant ((← bound name).holds 0))
  | "-mmin" => return some (.constant ((← bound name).holds 1))
  | "-amin" => return some (.constant ((← bound name).holds 1))
  | "-cmin" => return some (.constant ((← bound name).holds 1))
  | "-newer" =>
    let _ ← argument name
    return some (.constant false)
  | "-user" =>
    let user ← argument name
    if user == "root" || user == "0" then return some (.constant true)
    else fault (quoted user ++ " is not the name of a known user")
  | "-group" =>
    let group ← argument name
    if group == "root" || group == "0" then return some (.constant true)
    else fault (quoted group ++ " is not the name of an existing group")
  | "-uid" => return some (.constant ((← bound name).holds 0))
  | "-gid" => return some (.constant ((← bound name).holds 0))
  | "-nouser" => return some (.constant false)
  | "-nogroup" => return some (.constant false)
  | "-readable" => return some (.constant true)
  | "-writable" => return some (.constant true)
  | "-inum" =>
    let _ ← bound name
    return some (.constant false)
  | _ => return none

-- Reads what says something about the search as a whole; it holds for all files.
def setting? (name : String) : Read (Option Test) := do
  let done : Read (Option Test) := return some (.constant true)
  match name with
  | "-maxdepth" =>
    let n ← depth name
    modifyPlan fun p => { p with most := some n }
    done
  | "-mindepth" =>
    let n ← depth name
    modifyPlan fun p => { p with least := n }
    done
  | "-depth" =>
    modifyPlan fun p => { p with depthFirst := true }
    done
  | "-d" =>
    modifyPlan fun p => { p with depthFirst := true }
    done
  | "-follow" =>
    modifyPlan fun p => { p with follows := true }
    done
  | "-regextype" =>
    let name ← argument name
    let extended := ["posix-extended", "posix-egrep", "egrep", "posix-awk", "awk", "gnu-awk"]
    modifyPlan fun p => { p with extended := extended.contains name }
    done
  | "-xdev" => done
  | "-mount" => done
  | "-warn" => done
  | "-nowarn" => done
  | "-daystart" => done
  | "-noleaf" => done
  | "-ignore_readdir_race" => done
  | "-true" => done
  | _ => return none

def test? (name : String) : Read (Option Test) := do
  match name with
  | "-false" => return some (.constant false)
  | "-name" => return some (.name (← wildcard name) false)
  | "-iname" => return some (.name (← wildcard name) true)
  | "-path" => return some (.path (← wildcard name) false)
  | "-wholename" => return some (.path (← wildcard name) false)
  | "-ipath" => return some (.path (← wildcard name) true)
  | "-iwholename" => return some (.path (← wildcard name) true)
  | "-regex" => return some (← regex name false)
  | "-iregex" => return some (← regex name true)
  | "-type" => return some (.type (← types name (← argument name).toList) false)
  | "-xtype" => return some (.type (← types name (← argument name).toList) true)
  | "-size" => return some (← size)
  | "-empty" => return some .empty
  | "-perm" => return some (← mode)
  | "-executable" => return some .executable
  | "-links" => return some (.links (← bound name))
  | "-lname" => return some (.target (← wildcard name))
  | "-samefile" => return some (.sameFile (← argument name))
  | name => if let some t ← setting? name then return some t else surrounding? name

def action? (name : String) (limit : Nat) : Read (Option Action) := do
  let running (fromDirectory asks : Bool) : Read (Option Action) := do
    let (words, batch) ← command name limit
    if batch then
      let number := (← get).plan.batches
      modifyPlan fun p => { p with batches := p.batches + 1 }
      return some (.runForAll number words)
    else return some (.run words fromDirectory asks)
  match name with
  | "-print" => return some .print
  | "-print0" => return some .printNull
  | "-printf" => return some (.printFormat (← argument name))
  | "-exec" => running false false
  | "-execdir" => running true false
  | "-ok" => running false true
  | "-okdir" => running true true
  | "-delete" =>
    modifyPlan fun p => { p with depthFirst := true }
    return some .delete
  | "-prune" => return some .prune
  | "-quit" => return some .quit
  | _ => return none

def isOr (word : String) : Bool := word == "-o" || word == "-or"

def isAnd (word : String) : Bool := word == "-a" || word == "-and"

def isNot (word : String) : Bool := word == "!" || word == "-not"

def missingOperand {α : Type} (operator : String) : Read α := do
  match ← peek? with
  | some ")" => fault ("expected an expression between '" ++ operator ++ "' and ')'")
  | _ => fault ("expected an expression after '" ++ operator ++ "'")

def checkOperand (operator : String) : Read Unit := do
  match ← peek? with
  | none => missingOperand operator
  | some ")" => missingOperand operator
  | some _ => return

-- Reads an expression without operators between its parts; `whole` reads one in brackets.
def single (whole : Read Expr) (limit : Nat) : Nat → Read Expr
  | 0 => fault "invalid expression"
  | rounds + 1 => do
    let previous := (← get).last
    match ← next? with
    | none => fault "invalid expression"
    | some word =>
      if isNot word then
        checkOperand word
        return .not (← single whole limit rounds)
      else if word == "(" then
        if (← peek?) == some ")" then
          fault "invalid expression; empty parentheses are not allowed."
        let e ← if (← peek?).isNone then pure (.test (.constant true)) else whole
        match ← next? with
        | some _ => return e
        | none =>
          fault "invalid expression; I was expecting to find a ')' somewhere but did not see one."
      else if word == ")" then fault "you have too many ')'"
      else if isOr word || isAnd word || word == "," then
        fault ("invalid expression; you have used a binary operator '" ++ word ++
          "' with nothing before it.")
      else if let some t ← test? word then return .test t
      else if let some a ← action? word limit then return .action a
      else if word.startsWith "-" then fault ("unknown predicate \x60" ++ word ++ "'")
      else
        throw (.stray word previous)

def conjunction (whole : Read Expr) (limit : Nat) : Nat → Read Expr
  | 0 => fault "invalid expression"
  | rounds + 1 => do
    let first ← single whole limit limit
    match ← peek? with
    | none => return first
    | some word =>
      if word == ")" || word == "," || isOr word then return first
      if isAnd word then
        let _ ← next?
        checkOperand word
      return .and first (← conjunction whole limit rounds)

def disjunction (whole : Read Expr) (limit : Nat) : Nat → Expr → Read Expr
  | 0, e => return e
  | rounds + 1, e => do
    match ← peek? with
    | some word =>
      if isOr word then
        let _ ← next?
        checkOperand word
        disjunction whole limit rounds (.or e (← conjunction whole limit limit))
      else return e
    | none => return e

def row (whole : Read Expr) (limit : Nat) : Nat → Option Expr → Read Expr
  | 0, e => return e.getD (.test (.constant true))
  | rounds + 1, done => do
    let e ← disjunction whole limit limit (← conjunction whole limit limit)
    let e := match done with
      | some before => .sequence before e
      | none => e
    match ← peek? with
    | some "," =>
      let _ ← next?
      checkOperand ","
      row whole limit rounds (some e)
    | _ => return e

-- Reads an expression with brackets nested at most so deep.
def expression (limit : Nat) : Nat → Read Expr
  | 0 => fault "invalid expression"
  | depth + 1 => row (expression limit depth) limit limit none

end Read

-- The expression that words stand for; without any, all files are meant.
def readExpr (follows : Bool) (words : List String) : Except Fault (Expr × Plan) := do
  let start : Reading := ⟨words, "", ⟨0, none, false, follows, false, false, 0⟩⟩
  if words.isEmpty then return (.test (.constant true), start.plan)
  let limit := words.length + 1
  let (e, s) ← (Read.expression limit limit).run start
  match s.rest with
  | [] => return (e, s.plan)
  | _ => .error (.text "you have too many ')'")

end Classwright.Tool.Find
