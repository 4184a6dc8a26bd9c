namespace Classwright.Text

-- A byte text is a string in which each character stands for the byte of its number.
def toBytes (s : String) : String :=
  if s.toList.all (·.toNat < 0x80) then s
  else .ofList (s.toList.flatMap fun c => (String.utf8EncodeChar c).map fun b => .ofNat b.toNat)

structure PartialChar where
  code : Nat
  missing : Nat
  least : Nat
  most : Nat

namespace PartialChar

def ofFirst? (b : Nat) : Option PartialChar :=
  if 0xC2 ≤ b && b ≤ 0xDF then some ⟨b - 0xC0, 1, 0x80, 0xBF⟩
  else if 0xE0 ≤ b && b ≤ 0xEF then
    some ⟨b - 0xE0, 2, if b == 0xE0 then 0xA0 else 0x80, if b == 0xED then 0x9F else 0xBF⟩
  else if 0xF0 ≤ b && b ≤ 0xF4 then
    some ⟨b - 0xF0, 3, if b == 0xF0 then 0x90 else 0x80, if b == 0xF4 then 0x8F else 0xBF⟩
  else none

def accepts (p : PartialChar) (b : Nat) : Bool := p.least ≤ b && b ≤ p.most

def add (p : PartialChar) (b : Nat) : PartialChar :=
  ⟨p.code * 64 + (b - 0x80), p.missing - 1, 0x80, 0xBF⟩

end PartialChar

def replacement : Char := '\ufffd'

def decodeFrom (begun : Option PartialChar) : List Char → List Char
  | [] => if begun.isSome then [replacement] else []
  | c :: rest =>
    let b := c.toNat
    match begun with
    | some p =>
      if p.accepts b then
        if p.missing == 1 then Char.ofNat (p.add b).code :: decodeFrom none rest
        else decodeFrom (some (p.add b)) rest
      else replacement :: first b rest
    | none => first b rest
where
  first (b : Nat) (rest : List Char) : List Char :=
    if b < 0x80 then Char.ofNat b :: decodeFrom none rest
    else match PartialChar.ofFirst? b with
      | some p => decodeFrom (some p) rest
      | none => replacement :: decodeFrom none rest

def ofBytes (s : String) : String :=
  if s.toList.all (·.toNat < 0x80) then s else .ofList (decodeFrom none s.toList)

def ofBytes? (s : String) : Option String :=
  let text := ofBytes s
  if toBytes text == s then some text else none

end Classwright.Text
