namespace Classwright.Yaml

structure Cursor where
  rest : List Char
  index : Nat
  line : Nat
  column : Nat

-- Line breaks; the reader has replaced the other spellings of a line feed.
def isBreak (c : Char) : Bool := c == '\n' || c == '\u2028' || c == '\u2029'

def isSpace (c : Char) : Bool := c == ' ' || c == '\t'

def blankNext : List Char → Bool
  | [] => true
  | c :: _ => isSpace c || isBreak c

def startsWithMarker (mark : Char) : List Char → Bool
  | a :: b :: c :: rest => a == mark && b == mark && c == mark && blankNext rest
  | _ => false

def isDocumentMarker (cs : List Char) : Bool :=
  startsWithMarker '-' cs || startsWithMarker '.' cs

namespace Cursor

def start (cs : List Char) : Cursor := ⟨cs, 0, 0, 0⟩

def step (c : Cursor) : Cursor :=
  match c.rest with
  | [] => c
  | x :: rest =>
    if isBreak x then ⟨rest, c.index + x.utf8Size, c.line + 1, 0⟩
    else ⟨rest, c.index + x.utf8Size, c.line, c.column + 1⟩

def advance : Nat → Cursor → Cursor
  | 0, c => c
  | n + 1, c => advance n c.step

-- Skips blanks, comments and line breaks, and a byte order mark at the start of a line. A tab is a
-- blank only inside brackets or where no key may stand, so that it never counts as indentation.
-- Tells whether a key may stand at the place reached: a line break outside brackets allows one.
def skip (inFlow keyAllowed : Bool) (c : Cursor) : Cursor × Bool :=
  go false keyAllowed c.rest c
where
  go (inComment keyAllowed : Bool) : List Char → Cursor → Cursor × Bool
    | [], c => (c, keyAllowed)
    | x :: rest, c =>
      if isBreak x then go false (keyAllowed || !inFlow) rest c.step
      else if inComment || x == ' ' || (x == '\t' && (inFlow || !keyAllowed)) ||
          (x == '\ufeff' && c.column == 0) then go inComment keyAllowed rest c.step
      else if x == '#' then go true keyAllowed rest c.step
      else (c, keyAllowed)

def atEnd (c : Cursor) : Bool :=
  c.rest.isEmpty || (c.column == 0 && isDocumentMarker c.rest)

end Cursor

end Classwright.Yaml
