import Classwright.Number.Digits
import Classwright.Number.Power
import Classwright.Yaml.Node
import Classwright.Yaml.Value

namespace Classwright.Yaml

def isNullWord (s : String) : Bool :=
  s == "null" || s == "Null" || s == "NULL" || s == "~"

def boolWord? (s : String) : Option Bool :=
  if s == "true" || s == "True" || s == "TRUE" then some true
  else if s == "false" || s == "False" || s == "FALSE" then some false
  else none

def dropPlus : List Char → List Char
  | '+' :: cs => cs
  | cs => cs

def startsWithSign : List Char → Bool
  | '+' :: _ => true
  | '-' :: _ => true
  | _ => false

def hasLeadingZero (cs : List Char) : Bool :=
  match (if startsWithSign cs then cs.drop 1 else cs) with
  | '0' :: c :: rest => (c :: rest).all Char.isDigit
  | _ => false

def baseOf? : Char → Option Nat
  | 'x' => some 16
  | 'o' => some 8
  | 'b' => some 2
  | _ => none

def natural? (cs : List Char) : Option Nat :=
  let body := dropPlus cs
  let decimal := if startsWithSign body || hasLeadingZero cs then none else digitsValue? 10 body
  match body with
  | '0' :: letter :: digits =>
    match baseOf? letter with
    | some base => digitsValue? base digits
    | none => decimal
  | _ => decimal

def negated? (cs : List Char) : Option Nat :=
  match cs with
  | '-' :: body =>
    let decimal := if hasLeadingZero cs then none else digitsValue? 10 body
    match body with
    | '0' :: letter :: digits =>
      match baseOf? letter with
      | some base => digitsValue? base digits
      | none => decimal
    | _ => decimal
  | _ => none

inductive IntegerReading where
  | integer (n : Int)
  -- The integer needs more than 64 bits but at most 128, which no document may hold.
  | refused
  | other

def integerReading (cs : List Char) : IntegerReading :=
  match natural? cs, negated? cs with
  | some n, _ => if n < twoTo 64 then .integer n else if n < twoTo 128 then .refused else .other
  | none, some n => if n ≤ twoTo 63 then .integer (-n) else if n ≤ twoTo 127 then .refused else .other
  | none, none => .other

-- The digits after the letter of an exponent; no letter stands for zero.
def exponentValue? : List Char → Option Int
  | [] => some 0
  | letter :: cs =>
    if letter == 'e' || letter == 'E' then
      match cs with
      | '-' :: digits => (digitsValue? 10 digits).map fun n => -(n : Int)
      | digits => (digitsValue? 10 (dropPlus digits)).map fun n => (n : Int)
    else none

-- A decimal with an optional minus sign, point and exponent. There is a digit before or after the
-- point.
def decimal? (cs : List Char) : Option Binary64 := do
  let negative := cs.head? == some '-'
  let body := if negative then cs.drop 1 else cs
  let whole := body.takeWhile Char.isDigit
  let (fraction, rest) :=
    match body.dropWhile Char.isDigit with
    | '.' :: more => (more.takeWhile Char.isDigit, more.dropWhile Char.isDigit)
    | more => ([], more)
  let exponent ← exponentValue? rest
  let digits ← digitsValue? 10 (whole ++ fraction)
  return Binary64.ofDecimal negative digits (exponent - fraction.length)

-- A scalar that is written like a number; decimals beyond the range are not numbers.
def float? (s : String) : Option Binary64 :=
  let cs := s.toList
  let body := dropPlus cs
  let word : String := .ofList body
  if cs.head? == some '+' && startsWithSign body then none
  else if word == ".inf" || word == ".Inf" || word == ".INF" then some (.infinite false)
  else if s == "-.inf" || s == "-.Inf" || s == "-.INF" then some (.infinite true)
  else if s == ".nan" || s == ".NaN" || s == ".NAN" then some .nan
  else if hasLeadingZero cs then none
  else (decimal? body).filter (·.isFinite)

-- The value of a plain scalar, unless it is an integer that no document may hold.
def plainValue? (s : String) : Option Value :=
  if s == "" || isNullWord s then some .null
  else match boolWord? s with
    | some b => some (.bool b)
    | none =>
      match integerReading s.toList with
      | .integer n => some (.int n)
      | .refused => none
      | .other =>
        match float? s with
        | some x => some (.float x)
        | none => some (.str s)

namespace Node

mutual

-- The value of a node. It has none if a mapping repeats a key, if a scalar is refused, or if
-- collections are nested more than `depth` levels.
def value? (depth : Nat) : Node → Option Value
  | .scalar text plain => if plain then plainValue? text else some (.str text)
  | .seq items => if depth = 0 then none else (itemValues? (depth - 1) items).map .seq
  | .map entries => if depth = 0 then none else (entryValues? (depth - 1) [] entries).map .map

def itemValues? (depth : Nat) : List Node → Option (List Value)
  | [] => some []
  | item :: rest => do
    let value ← value? depth item
    return value :: (← itemValues? depth rest)

-- The entries' values; `seen` are the keys before them.
def entryValues? (depth : Nat) (seen : List Value) :
    List (Node × Node) → Option (List (Value × Value))
  | [] => some []
  | (key, value) :: rest => do
    let key ← value? depth key
    let value ← value? depth value
    if seen.any (key.same ·) then none
    return (key, value) :: (← entryValues? depth (key :: seen) rest)

end

def maxDepth : Nat := 128

end Node

end Classwright.Yaml
