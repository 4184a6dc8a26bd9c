import Classwright.Number.Binary64

namespace Classwright

structure Fraction where
  num : Nat
  den : Nat
  deriving Repr, DecidableEq

namespace Fraction

def zero : Fraction := ⟨0, 1⟩

def shifted (f : Fraction) (exponent : Int) : Fraction :=
  ⟨f.num * tenTo exponent.toNat, f.den * tenTo (-exponent).toNat⟩

def round (f : Fraction) : Nat := Binary64.roundRatio f.num f.den

-- `digits` with a point in front of the last `places` of them.
def pointed (digits places : Nat) (keepsPoint : Bool) : String :=
  let text := toString digits
  let text := String.ofList (List.replicate (places + 1 - text.length) '0') ++ text
  let cs := text.toList
  let whole := cs.take (cs.length - places)
  if places == 0 && !keepsPoint then .ofList whole
  else .ofList (whole ++ '.' :: cs.drop (cs.length - places))

def fixed (f : Fraction) (places : Nat) (keepsPoint : Bool) : String :=
  pointed (f.shifted places).round places keepsPoint

def magnitude (f : Fraction) : Int :=
  if f.num == 0 then 0
  else
    let guess : Int := (toString f.num).length - (toString f.den).length
    if (f.shifted (-guess)).num < (f.shifted (-guess)).den then guess - 1 else guess

def rounded (f : Fraction) (places : Nat) : Nat × Int :=
  let exponent := f.magnitude
  let digits := (f.shifted (places - exponent)).round
  if digits == tenTo (places + 1) then (tenTo places, exponent + 1) else (digits, exponent)

def exponentText (mark : Char) (exponent : Int) : String :=
  let digits := toString exponent.natAbs
  .singleton mark ++ (if exponent < 0 then "-" else "+") ++
    (if digits.length < 2 then "0" else "") ++ digits

def scientific (f : Fraction) (places : Nat) (keepsPoint : Bool) (mark : Char) : String :=
  let (digits, exponent) := f.rounded places
  pointed digits places keepsPoint ++ exponentText mark exponent

def dropZeros (text : String) : String :=
  if text.toList.contains '.' then
    .ofList ((text.toList.reverse.dropWhile (· == '0')).dropWhile (· == '.')).reverse
  else text

def general (f : Fraction) (digits : Nat) (keepsZeros : Bool) (mark : Char) : String :=
  let digits := max digits 1
  let (value, exponent) := f.rounded (digits - 1)
  if exponent < -4 || (digits : Int) ≤ exponent then
    let text := pointed value (digits - 1) keepsZeros
    (if keepsZeros then text else dropZeros text) ++ exponentText mark exponent
  else
    let text := f.fixed (digits - 1 - exponent).toNat keepsZeros
    if keepsZeros then text else dropZeros text

end Fraction

namespace Binary64

def magnitude : Binary64 → Fraction
  | .finite _ mantissa exponent =>
    if 0 ≤ exponent then ⟨mantissa * twoTo exponent.toNat, 1⟩
    else ⟨mantissa, twoTo (-exponent).toNat⟩
  | _ => .zero

def isNegative : Binary64 → Bool
  | .finite negative _ _ => negative
  | .infinite negative => negative
  | .nan => false

-- Reads digits, of which some may stand behind a point, and an exponent; tells what follows.
def readDecimal (negative : Bool) (cs : List Char) : Option (Binary64 × List Char) :=
  let whole := cs.takeWhile Char.isDigit
  let rest := cs.dropWhile Char.isDigit
  let (places, rest) :=
    match rest with
    | '.' :: behind => (behind.takeWhile Char.isDigit, behind.dropWhile Char.isDigit)
    | rest => ([], rest)
  if whole.isEmpty && places.isEmpty then none
  else
    let (exponent, rest) := readExponent rest
    let digits := (String.ofList (whole ++ places)).toNat?.getD 0
    some (ofDecimal negative digits (exponent - places.length), rest)
where
  readExponent (cs : List Char) : Int × List Char :=
    match cs with
    | e :: sign :: rest =>
      if e != 'e' && e != 'E' then (0, cs)
      else
        let (negative, digits) :=
          if sign == '-' then (true, rest)
          else if sign == '+' then (false, rest)
          else (false, sign :: rest)
        if (digits.takeWhile Char.isDigit).isEmpty then (0, cs)
        else
          let n : Nat := (String.ofList (digits.takeWhile Char.isDigit)).toNat?.getD 0
          (if negative then -n else n, digits.dropWhile Char.isDigit)
    | cs => (0, cs)

end Binary64

end Classwright
