import Classwright.Number.Binary64

namespace Classwright.Binary64

structure Decimal where
  digits : Nat
  exponent : Int
  deriving Repr, DecidableEq

namespace Decimal

-- Moves zeros at the end of the digits into the exponent, at most `fuel` of them.
def strip : Nat → Decimal → Decimal
  | 0, d => d
  | fuel + 1, d =>
    if d.digits ≠ 0 ∧ d.digits % 10 = 0 then strip fuel ⟨d.digits / 10, d.exponent + 1⟩ else d

end Decimal

-- The decimals that read back as one number, in units of `2 ^ unit`.
structure Interval where
  low : Nat
  value : Nat
  high : Nat
  closed : Bool
  unit : Int

-- A number's neighbours are one unit away, but below a power of two only half a unit.
def intervalOf (mantissa : Nat) (exponent : Int) : Interval where
  low := if mantissa = twoTo 52 ∧ minExponent < exponent then 4 * mantissa - 1 else 4 * mantissa - 2
  value := 4 * mantissa
  high := 4 * mantissa + 2
  closed := mantissa % 2 == 0
  unit := exponent - 2

namespace Interval

-- `a · 2 ^ unit` and `b · 10 ^ exponent` as natural numbers of one scale.
def scale (i : Interval) (a b : Nat) (exponent : Int) : Nat × Nat :=
  (a * twoTo i.unit.toNat * tenTo (-exponent).toNat, b * tenTo exponent.toNat * twoTo (-i.unit).toNat)

def contains (i : Interval) (d : Decimal) : Bool :=
  let (low, x) := i.scale i.low d.digits d.exponent
  let (high, y) := i.scale i.high d.digits d.exponent
  if i.closed then low ≤ x && y ≤ high else low < x && y < high

-- The two points of the grid `10 ^ exponent` around the value, the nearer one first.
def around (i : Interval) (exponent : Int) : List Decimal :=
  let (value, step) := i.scale i.value 1 exponent
  let below := value / step
  let rest := value % step
  let lower : Decimal := ⟨below, exponent⟩
  let upper : Decimal := ⟨below + 1, exponent⟩
  if 2 * rest < step || (2 * rest = step && below % 2 == 0) then [lower, upper] else [upper, lower]

-- The place of the value's first digit: the value is below `10 ^ place` and not below a tenth.
def place (i : Interval) : Int :=
  let (value, one) := i.scale i.value 1 0
  if one ≤ value then digitCount (value / one)
  else 1 - digitCount ((one + value - 1) / value - 1)

-- Tries the grids with `count`, `count + 1`, … digits until one of them has a hit.
def search (i : Interval) : Nat → Nat → Option Decimal
  | 0, _ => none
  | fuel + 1, count =>
    match (i.around (i.place - count)).find? i.contains with
    | some d => some d
    | none => search i fuel (count + 1)

end Interval

-- The shortest decimal that reads back as `mantissa · 2 ^ exponent`; 17 digits always do. Of the
-- decimals with the fewest digits the nearest one, and the even one of two equally near.
def shortest (mantissa : Nat) (exponent : Int) : Decimal :=
  let found := (intervalOf mantissa exponent).search 17 1
  (found.getD ⟨0, 0⟩).strip 17

-- A power of ten behind the digits; `plus` tells whether it has a sign if it is not negative.
def powerText (plus : Bool) (power : Int) : String :=
  "e" ++ (if plus && 0 ≤ power then "+" else "") ++ toString power

def Decimal.text (plus : Bool) (d : Decimal) : String :=
  let digits := (Nat.toDigits 10 d.digits)
  let length : Int := digits.length
  let point := length + d.exponent
  let zeros (n : Int) : List Char := List.replicate n.toNat '0'
  .ofList <|
    if 0 ≤ d.exponent ∧ point ≤ 16 then digits ++ zeros d.exponent ++ ['.', '0']
    else if 0 < point ∧ point ≤ 16 then
      digits.take point.toNat ++ '.' :: digits.drop point.toNat
    else if -5 < point ∧ point ≤ 0 then '0' :: '.' :: (zeros (-point) ++ digits)
    else
      let power := (powerText plus (point - 1)).toList
      match digits with
      | [digit] => digit :: power
      | digit :: rest => digit :: '.' :: (rest ++ power)
      | [] => power

def sign (negative : Bool) : String := if negative then "-" else ""

-- The text of a number: always with a point or an exponent, except for the three special ones.
def textWith (plus : Bool) : Binary64 → String
  | .nan => ".nan"
  | .infinite negative => sign negative ++ ".inf"
  | .finite negative mantissa exponent =>
    sign negative ++ if mantissa = 0 then "0.0" else (shortest mantissa exponent).text plus

def text (x : Binary64) : String := x.textWith false

def isFinite : Binary64 → Bool
  | .finite .. => true
  | _ => false

end Classwright.Binary64
