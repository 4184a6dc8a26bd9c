import Classwright.Number.Power

namespace Classwright

-- A double precision number; `finite` stands for `± mantissa · 2 ^ exponent`.
inductive Binary64 where
  | nan
  | infinite (negative : Bool)
  | finite (negative : Bool) (mantissa : Nat) (exponent : Int)
  deriving Repr, DecidableEq, Inhabited

namespace Binary64

-- The least exponent; numbers that have it need not fill the mantissa.
def minExponent : Int := -1074

def maxExponent : Int := 971

def zero (negative : Bool) : Binary64 := .finite negative 0 minExponent

-- The numbers are equal as numbers: zeros of either sign are, and not-a-number equals itself.
def same : Binary64 → Binary64 → Bool
  | .nan, .nan => true
  | .infinite s, .infinite t => s == t
  | .finite s m e, .finite t n f => (m == 0 && n == 0) || (s == t && m == n && e == f)
  | _, _ => false

theorem same_refl (x : Binary64) : same x x = true := by
  cases x <;> simp [same]

-- The natural number nearest to `num / den`, the even one of two.
def roundRatio (num den : Nat) : Nat :=
  let q := num / den
  let rest := num % den
  if 2 * rest < den then q
  else if 2 * rest = den then q + q % 2
  else q + 1

def inUnits (num den : Nat) (exponent : Int) : Nat × Nat :=
  if exponent < 0 then (num * twoTo (-exponent).toNat, den) else (num, den * twoTo exponent.toNat)

-- The exponent with which the mantissa of `num / den` has 53 bits, if that is not too small.
def exponentOf (num den : Nat) : Int :=
  let guess : Int := Nat.log2 num - Nat.log2 den - 52
  let (n, d) := inUnits num den guess
  max minExponent (if n / d < twoTo 52 then guess - 1 else guess)

def ofRatio (negative : Bool) (num den : Nat) : Binary64 :=
  if num = 0 then zero negative
  else
    let exponent := exponentOf num den
    let (n, d) := inUnits num den exponent
    let mantissa := roundRatio n d
    let (mantissa, exponent) :=
      if mantissa = twoTo 53 then (twoTo 52, exponent + 1) else (mantissa, exponent)
    if maxExponent < exponent then .infinite negative else .finite negative mantissa exponent

def digitCount (n : Nat) : Nat := (Nat.toDigits 10 n).length

-- The number nearest to `± digits · 10 ^ exponent`. Decimals far beyond the range are settled by
-- the place of their first digit, so no huge power is computed.
def ofDecimal (negative : Bool) (digits : Nat) (exponent : Int) : Binary64 :=
  let place := digitCount digits + exponent
  if digits = 0 || place < -400 then zero negative
  else if 400 < place then .infinite negative
  else if exponent < 0 then ofRatio negative digits (tenTo (-exponent).toNat)
  else ofRatio negative (digits * tenTo exponent.toNat) 1

end Binary64

end Classwright
