import Classwright.Text.CaseTable

namespace Classwright.Text

def isUppercase (c : Char) : Bool :=
  if c.toNat < 128 then c.isUpper else uppercaseRanges.any (·.contains c.toNat)

def isLowercase (c : Char) : Bool :=
  if c.toNat < 128 then c.isLower else lowercaseRanges.any (·.contains c.toNat)

-- A sequence wins over a range, and a character that neither lists is its own image.
def mapCase (sequences : List (Nat × List Nat)) (ranges : List CaseRange) (c : Char) : List Char :=
  match sequences.lookup c.toNat with
  | some codes => codes.map Char.ofNat
  | none =>
    match ranges.findSome? (·.map? c.toNat) with
    | some code => [Char.ofNat code]
    | none => [c]

def upper (c : Char) : List Char :=
  if c.toNat < 128 then [c.toUpper] else mapCase upperSequences upperRanges c

def lower (c : Char) : List Char :=
  if c.toNat < 128 then [c.toLower] else mapCase lowerSequences lowerRanges c

end Classwright.Text
