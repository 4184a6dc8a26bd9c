import Classwright.Text.Regex
import Classwright.Tool.Basic

namespace Classwright.Tool

open Shell Text

namespace Expr

structure Reading where
  rest : List String
  last : String

abbrev Read := StateT Reading (Except String)

def peek? : Read (Option String) := return (← get).rest.head?

def take? (words : List String) : Read (Option String) := do
  let s ← get
  match s.rest with
  | [] => return none
  | word :: rest =>
    if words.contains word then
      set (⟨rest, word⟩ : Reading)
      return some word
    else return none

def next : Read String := do
  let s ← get
  match s.rest with
  | [] => throw ("syntax error: missing argument after " ++ quoted s.last)
  | word :: rest =>
    set (⟨rest, word⟩ : Reading)
    return word

def number? (text : String) : Option Int :=
  match text.toList with
  | '-' :: digits => (digitsValue? 10 digits).map fun n => -(n : Int)
  | digits => (digitsValue? 10 digits).map fun n => (n : Int)

def isNull (text : String) : Bool :=
  match text.toList with
  | [] => true
  | '-' :: cs => !cs.isEmpty && cs.all (· == '0')
  | cs => cs.all (· == '0')

-- The number that a value stands for; `counts` tells that the result is needed.
def number (counts : Bool) (text : String) : Read Int :=
  match number? text with
  | some n => return n
  | none => if counts then throw "non-integer argument" else return 0

def truth (value : Bool) : String := if value then "1" else "0"

-- Matches an expression at the start of a text: gives its group, or the length of the match.
def match? (text pattern : String) : Read String := do
  match Regex.ofText ⟨false, false⟩ pattern.toList with
  | .error .bracket => throw "Invalid regular expression"
  | .error f => throw f.reason
  | .ok (r, groups) =>
    match Regex.matchAt ⟨false, false⟩ r (.ofText text.toList) with
    | some place =>
      if groups == 0 then return toString place.position
      else return .ofList ((place.groups.lookup 1).getD [])
    | none => return if groups == 0 then "0" else ""

def index (text set : String) : Nat :=
  ((text.toList.findIdx? set.toList.contains).map (· + 1)).getD 0

def part (text start length : String) : String :=
  match number? start, number? length with
  | some start, some length =>
    if start ≤ 0 || length ≤ 0 then ""
    else .ofList ((text.toList.drop (start.toNat - 1)).take length.toNat)
  | _, _ => ""

def primary (whole : Bool → Read String) (counts : Bool) : Read String := do
  match ← take? ["(", ")"] with
  | some "(" =>
    let value ← whole counts
    match ← peek? with
    | none => throw ("syntax error: expecting ')' after " ++ quoted (← get).last)
    | some ")" =>
      let _ ← next
      return value
    | some word => throw ("syntax error: expecting ')' instead of " ++ quoted word)
  | some _ => throw "syntax error: unexpected ')'"
  | none => next

def keyword (whole : Bool → Read String) : Nat → Bool → Read String
  | 0, _ => throw "syntax error"
  | limit + 1, counts => do
    let value : Read String := keyword whole limit counts
    match ← take? ["+", "length", "match", "index", "substr"] with
    | some "+" => next
    | some "length" => return toString (← value).length
    | some "match" =>
      let text ← value
      let pattern ← value
      if counts then match? text pattern else return text
    | some "index" =>
      let text ← value
      let set ← value
      return toString (index text set)
    | some _ =>
      let text ← value
      let start ← value
      let length ← value
      return part text start length
    | none => primary whole counts

def chain (operators : List String) (operand : Bool → Read String)
    (apply : Bool → String → String → String → Read String) (counts : Bool) :
    Nat → String → Read String
  | 0, value => return value
  | limit + 1, value => do
    match ← take? operators with
    | none => return value
    | some operator =>
      let needed := match operator with
        | "|" => counts && isNull value
        | "&" => counts && !isNull value
        | _ => counts
      let right ← operand needed
      chain operators operand apply counts limit (← apply counts operator value right)

def arithmetic (counts : Bool) (operator left right : String) : Read String := do
  let a ← number counts left
  let b ← number counts right
  match operator with
  | "+" => return toString (a + b)
  | "-" => return toString (a - b)
  | "*" => return toString (a * b)
  | _ =>
    if b == 0 then
      if counts then throw "division by zero" else return "0"
    else if operator == "/" then return toString (a.tdiv b)
    else return toString (a.tmod b)

def comparison (operator left right : String) : String :=
  let order : Ordering := match number? left, number? right with
    | some a, some b => compare a b
    | _, _ => compare left right
  truth (match operator with
    | "<" => order == .lt
    | "<=" => order != .gt
    | "=" => order == .eq
    | "==" => order == .eq
    | "!=" => order != .eq
    | ">=" => order != .lt
    | _ => order == .gt)

def apply (counts : Bool) (operator left right : String) : Read String := do
  match operator with
  | "|" => return if isNull left then if isNull right then "0" else right else left
  | "&" => return if isNull left || isNull right then "0" else left
  | ":" => if counts then match? left right else return left
  | operator =>
    if ["+", "-", "*", "/", "%"].contains operator then arithmetic counts operator left right
    else return comparison operator left right

def levels : List (List String) :=
  [["|"], ["&"], ["<", "<=", "=", "==", "!=", ">=", ">"], ["+", "-"], ["*", "/", "%"], [":"]]

def ofLevels (base : Bool → Read String) (limit : Nat) :
    List (List String) → Bool → Read String
  | [], counts => base counts
  | operators :: stronger, counts => do
    let first ← ofLevels base limit stronger counts
    chain operators (ofLevels base limit stronger) apply counts limit first

-- An expression with brackets nested at most so deep.
def whole (limit : Nat) : Nat → Bool → Read String
  | 0, _ => throw "syntax error"
  | depth + 1, counts => ofLevels (keyword (whole limit depth) limit) limit levels counts

def evaluate (words : List String) : Except String String := do
  let limit := words.length + 1
  let (value, s) ← (whole limit limit true).run ⟨words, ""⟩
  match s.rest with
  | [] => return value
  | word :: _ => throw ("syntax error: unexpected argument " ++ quoted word)

end Expr

section

variable {m : Type → Type} [Monad m]

-- Evaluates an expression; the status tells whether it counts as false.
def expr : Action m := fun words => do
  let words := if words.head? == some "--" then words.drop 1 else words
  if words.isEmpty then misuse "expr" "missing operand" 2
  else if words == ["--help"] || words == ["--version"] then return 0
  else match Expr.evaluate words with
    | .ok value =>
      put (value ++ "\n")
      return if Expr.isNull value then 1 else 0
    | .error text =>
      complain "expr" text
      return 2

end

end Classwright.Tool
