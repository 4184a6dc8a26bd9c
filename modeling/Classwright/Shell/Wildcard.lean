import Classwright.Text.ByteClass

namespace Classwright.Shell

open Text

inductive Wildcard where
  | byte (c : Char)
  | anyByte
  | anyText
  | oneOf (set : ByteSet)
  deriving Repr, DecidableEq

namespace Wildcard

abbrev Mark := Char × Bool

def readClass (cs : List Mark) : Option (String × List Mark) :=
  let name := cs.takeWhile fun m => m.1.isAlpha
  match cs.dropWhile fun m => m.1.isAlpha with
  | (':', _) :: (']', _) :: rest => some (.ofList (name.map (·.1)), rest)
  | _ => none

def readMember : List Mark → Option (Char × List Mark)
  | ('\\', false) :: (c, _) :: rest => some (c, rest)
  | (c, _) :: rest => some (c, rest)
  | [] => none

-- Reads the members of a set up to the closing bracket, at most `limit` of them.
def readMembers : Nat → Bool → List Mark → Option (List SetMember × List Mark)
  | 0, _, _ => none
  | limit + 1, first, cs =>
    match cs, first with
    | (']', false) :: rest, false => some ([], rest)
    | cs, _ =>
      match namedMember cs with
      | some (member, rest) => more limit member rest
      | none =>
        match readMember cs with
        | some (c, ('-', false) :: rest) =>
          match rest with
          | (']', false) :: _ => more limit (.range c c) (('-', false) :: rest)
          | rest =>
            match readMember rest with
            | some (d, rest) => more limit (.range c d) rest
            | none => none
        | some (c, rest) => more limit (.range c c) rest
        | none => none
where
  namedMember : List Mark → Option (SetMember × List Mark)
    | ('[', false) :: (':', _) :: rest =>
      (readClass rest).map fun (name, rest) => (.named name, rest)
    | _ => none
  more (limit : Nat) (member : SetMember) (rest : List Mark) :=
    (readMembers limit false rest).map fun (members, rest) => (member :: members, rest)

-- Reads a set behind its opening bracket; `negations` are the marks that turn it around.
def readSet (negations : List Char) (cs : List Mark) : Option (ByteSet × List Mark) :=
  let (negated, cs) :=
    match cs with
    | (c, false) :: rest => if negations.contains c then (true, rest) else (false, cs)
    | cs => (false, cs)
  (readMembers (cs.length + 1) true cs).map fun (members, rest) => (⟨negated, members⟩, rest)

-- The pattern that marks stand for; at most `limit` parts of it are read.
def ofMarks (negations : List Char) : Nat → List Mark → List Wildcard
  | 0, _ => []
  | limit + 1, cs =>
    match cs with
    | [] => []
    | ('*', false) :: rest => .anyText :: ofMarks negations limit rest
    | ('?', false) :: rest => .anyByte :: ofMarks negations limit rest
    | ('\\', false) :: (c, _) :: rest => .byte c :: ofMarks negations limit rest
    | ('[', false) :: rest =>
      match readSet negations rest with
      | some (set, rest) => .oneOf set :: ofMarks negations limit rest
      | none => .byte '[' :: ofMarks negations limit rest
    | (c, _) :: rest => .byte c :: ofMarks negations limit rest

-- The pattern of a text in which nothing is quoted but by backslashes.
def ofText (text : String) : List Wildcard :=
  ofMarks ['!', '^'] (text.length + 1) (text.toList.map (·, false))

def isMatch (pattern : List Wildcard) (cs : List Char) : Bool :=
  match pattern, cs with
  | [], [] => true
  | [], _ :: _ => false
  | .anyText :: rest, [] => isMatch rest []
  | .anyText :: rest, c :: cs => isMatch rest (c :: cs) || isMatch (.anyText :: rest) cs
  | _ :: _, [] => false
  | .byte d :: rest, c :: cs => c == d && isMatch rest cs
  | .anyByte :: rest, _ :: cs => isMatch rest cs
  | .oneOf set :: rest, c :: cs => set.holds c && isMatch rest cs
termination_by (cs.length, pattern.length)

def isPlain (pattern : List Wildcard) : Bool :=
  pattern.all fun
    | .byte _ => true
    | _ => false

def trim (pattern : List Wildcard) (front longest : Bool) (cs : List Char) : List Char :=
  let lengths := List.range (cs.length + 1)
  let counts := if longest then lengths.reverse else lengths
  let found := counts.find? fun n =>
    isMatch pattern (if front then cs.take n else cs.drop (cs.length - n))
  match found with
  | some n => if front then cs.drop n else cs.take (cs.length - n)
  | none => cs

end Wildcard

end Classwright.Shell
