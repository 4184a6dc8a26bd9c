import Classwright.Number.Digits
import Classwright.Number.Power
import Classwright.Shell.Session
import Classwright.Text.ByteClass

namespace Classwright.Shell

def wrapped (n : Int) : Int := n.bmod (twoTo 64)

def clamped (n : Int) : Int := max (-(twoTo 63)) (min (twoTo 63 - 1) n)

-- Reads a number without sign in the base that its first digits tell, and what follows it.
def readNatural : List Char → Option (Nat × List Char)
  | '0' :: x :: c :: rest =>
    if (x == 'x' || x == 'X') && (digitValue? 16 c).isSome then some (digits 16 (c :: rest))
    else some (digits 8 ('0' :: x :: c :: rest))
  | '0' :: rest => some (digits 8 ('0' :: rest))
  | c :: rest => if c.isDigit then some (digits 10 (c :: rest)) else none
  | [] => none
where
  digits (base : Nat) (cs : List Char) : Nat × List Char :=
    let isDigit (c : Char) : Bool := (digitValue? base c).isSome
    ((digitsValue? base (cs.takeWhile isDigit)).getD 0, cs.dropWhile isDigit)

-- The number that a text stands for, with blanks around it; no text at all stands for zero.
def integer? (text : String) : Option Int :=
  let cs := text.toList.dropWhile Text.ByteClass.isSpace
  let (negative, unsigned) :=
    match cs with
    | '-' :: rest => (true, rest)
    | '+' :: rest => (false, rest)
    | cs => (false, cs)
  match readNatural unsigned with
  | some (n, rest) =>
    let value : Int := if negative then -n else n
    if rest.all Text.ByteClass.isSpace && clamped value == value then some value else none
  | none => if cs.isEmpty then some 0 else none

namespace Arithmetic

inductive Token where
  | number (n : Int)
  | name (name : String)
  | mark (mark : String)
  deriving Repr, DecidableEq

inductive Expr where
  | number (n : Int)
  | name (name : String)
  | unary (mark : String) (operand : Expr)
  | binary (mark : String) (left right : Expr)
  | choice (test yes no : Expr)
  | assign (name mark : String) (value : Expr)
  deriving Inhabited

def marks : List String :=
  ["<<=", ">>=", "<=", "<<", ">=", ">>", "==", "!=", "&&", "&=", "||", "|=", "+=", "-=", "*=",
    "/=", "%=", "^=", "<", ">", "=", "!", "&", "|", "+", "-", "*", "/", "%", "^", "~", "(", ")",
    "?", ":"]

def levels : List (List String) :=
  [["*", "/", "%"], ["+", "-"], ["<<", ">>"], ["<", "<=", ">", ">="], ["==", "!="], ["&"], ["^"],
    ["|"], ["&&"], ["||"]]

def assignments : List String := ["=", "%=", "&=", "<<=", ">>=", "*=", "+=", "-=", "|=", "^=", "/="]

-- The tokens of an expression; what is no token is a mark without a meaning.
def tokens : Nat → List Char → List Token
  | 0, _ => []
  | limit + 1, cs =>
    match cs.dropWhile Text.ByteClass.isSpace with
    | [] => []
    | c :: rest =>
      if startsName c then
        .name (.ofList ((c :: rest).takeWhile continuesName)) ::
          tokens limit ((c :: rest).dropWhile continuesName)
      else match readNatural (c :: rest) with
        | some (n, rest) => .number (clamped n) :: tokens limit rest
        | none =>
          match marks.find? fun mark => mark.toList.isPrefixOf (c :: rest) with
          | some mark => .mark mark :: tokens limit ((c :: rest).drop mark.length)
          | none => [.mark ""]

-- Reading an expression from its tokens; a fault says what is missing.
abbrev Parse := ExceptT String (StateM (List Token))

namespace Parse

def next? : Parse (Option Token) := do
  match ← get with
  | [] => return none
  | t :: rest =>
    set rest
    return some t

def accept (mark : String) : Parse Bool := do
  match ← get with
  | .mark other :: rest =>
    if other == mark then
      set rest
      return true
    else return false
  | _ => return false

def acceptAny (marks : List String) : Parse (Option String) := do
  match ← get with
  | .mark mark :: rest =>
    if marks.contains mark then
      set rest
      return some mark
    else return none
  | _ => return none

def operations (operand : Parse Expr) (marks : List String) : Nat → Expr → Parse Expr
  | 0, left => return left
  | limit + 1, left => do
    match ← acceptAny marks with
    | some mark => operations operand marks limit (.binary mark left (← operand))
    | none => return left

def binary (primary : Parse Expr) (limit : Nat) : List (List String) → Parse Expr
  | [] => primary
  | marks :: tighter => do
    let left ← binary primary limit tighter
    operations (binary primary limit tighter) marks limit left

-- Reads an operand; `whole` reads what stands in parentheses.
def primary (whole : Parse Expr) : Nat → Parse Expr
  | 0 => throw "expecting primary"
  | limit + 1 => do
    match ← next? with
    | some (.number n) => return .number n
    | some (.name name) => return .name name
    | some (.mark "+") => primary whole limit
    | some (.mark "(") =>
      let e ← whole
      if ← accept ")" then return e else throw "expecting ')'"
    | some (.mark mark) =>
      if ["-", "!", "~"].contains mark then return .unary mark (← primary whole limit)
      else throw "expecting primary"
    | none => throw "expecting primary"

def choice (whole : Parse Expr) (limit : Nat) : Nat → Parse Expr
  | 0 => throw "expecting primary"
  | depth + 1 => do
    let test ← binary (primary whole limit) limit levels.reverse
    if ← accept "?" then
      let yes ← whole
      if ← accept ":" then return .choice test yes (← choice whole limit depth)
      else throw "expecting ':'"
    else return test

def expression (limit : Nat) : Nat → Parse Expr
  | 0 => throw "expecting primary"
  | depth + 1 => do
    match ← get with
    | .name name :: .mark mark :: rest =>
      if assignments.contains mark then
        set rest
        return .assign name mark (← expression limit depth)
      else choice (expression limit depth) limit limit
    | _ => choice (expression limit depth) limit limit

def whole (text : String) : Except String Expr :=
  let ts := tokens (text.length + 1) text.toList
  let limit := ts.length + 1
  match (expression limit limit).run.run ts with
  | (.error reason, _) => .error reason
  | (.ok e, []) => .ok e
  | (.ok _, _ :: _) => .error "expecting EOF"

end Parse

def ofBool (b : Bool) : Int := if b then 1 else 0

def bits (n : Int) : Nat := (n % twoTo 64).toNat

-- The result of an operation; there is none for a division by zero.
def apply (mark : String) (a b : Int) : Option Int :=
  match mark with
  | "*" => some (wrapped (a * b))
  | "/" => if b == 0 then none else some (wrapped (a.tdiv b))
  | "%" => if b == 0 then none else some (wrapped (a.tmod b))
  | "+" => some (wrapped (a + b))
  | "-" => some (wrapped (a - b))
  | "<<" => some (wrapped (a * twoTo (bits b % 64)))
  | ">>" => some (a / twoTo (bits b % 64))
  | "<" => some (ofBool (a < b))
  | "<=" => some (ofBool (a ≤ b))
  | ">" => some (ofBool (a > b))
  | ">=" => some (ofBool (a ≥ b))
  | "==" => some (ofBool (a == b))
  | "!=" => some (ofBool (a != b))
  | "&" => some (wrapped (bits a &&& bits b : Nat))
  | "^" => some (wrapped (bits a ^^^ bits b : Nat))
  | "|" => some (wrapped (bits a ||| bits b : Nat))
  | _ => some b

section

variable {m : Type → Type} [Monad m]

def variableValue (name : String) : ShellM m Int := do
  let text := (← value? name).getD ""
  match integer? text with
  | some n => return n
  | none => fail ("Illegal number: " ++ text)

-- Evaluates an expression; `text` is the whole text, which messages show.
def evaluate (text : String) : Expr → ShellM m Int
  | .number n => return n
  | .name name => variableValue name
  | .unary mark e => do
    let n ← evaluate text e
    match mark with
    | "-" => return wrapped (-n)
    | "!" => return ofBool (n == 0)
    | _ => return -n - 1
  | .binary "&&" a b => do
    if (← evaluate text a) == 0 then return 0 else return ofBool ((← evaluate text b) != 0)
  | .binary "||" a b => do
    if (← evaluate text a) != 0 then return 1 else return ofBool ((← evaluate text b) != 0)
  | .binary mark a b => do
    let left ← evaluate text a
    operate mark left (← evaluate text b)
  | .choice test yes no => do
    if (← evaluate text test) != 0 then evaluate text yes else evaluate text no
  | .assign name mark e => do
    let value ← evaluate text e
    let value ← if mark == "=" then pure value else
      operate (.ofList (mark.toList.dropLast)) (← variableValue name) value
    setVariable name (toString value) false
    return value
where
  operate (mark : String) (a b : Int) : ShellM m Int := do
    match apply mark a b with
    | some n => return n
    | none => fail ("arithmetic expression: division by zero: \"" ++ text ++ "\"")

def valueOf (text : String) : ShellM m Int := do
  match Parse.whole text with
  | .ok e => evaluate text e
  | .error reason => fail ("arithmetic expression: " ++ reason ++ ": \"" ++ text ++ "\"")

end

end Arithmetic

end Classwright.Shell
