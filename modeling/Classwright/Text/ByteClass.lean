namespace Classwright.Text

namespace ByteClass

def isBlank (c : Char) : Bool := c == ' ' || c == '\t'

def isSpace (c : Char) : Bool := c == ' ' || (9 ≤ c.toNat && c.toNat ≤ 13)

def isControl (c : Char) : Bool := c.toNat < 32 || c.toNat == 127

def isGraphic (c : Char) : Bool := 32 < c.toNat && c.toNat < 127

def isHexDigit (c : Char) : Bool :=
  c.isDigit || ('a' ≤ c && c ≤ 'f') || ('A' ≤ c && c ≤ 'F')

def all : List (String × (Char → Bool)) := [
  ("alnum", Char.isAlphanum),
  ("alpha", Char.isAlpha),
  ("blank", isBlank),
  ("cntrl", isControl),
  ("digit", Char.isDigit),
  ("graph", isGraphic),
  ("lower", Char.isLower),
  ("print", fun c => isGraphic c || c == ' '),
  ("punct", fun c => isGraphic c && !c.isAlphanum),
  ("space", isSpace),
  ("upper", Char.isUpper),
  ("xdigit", isHexDigit)]

def named? (name : String) : Option (Char → Bool) := all.lookup name

end ByteClass

inductive SetMember where
  | range (first last : Char)
  | named (name : String)
  deriving Repr, DecidableEq

namespace SetMember

def holds (c : Char) : SetMember → Bool
  | .range first last => first ≤ c && c ≤ last
  | .named name => ((ByteClass.named? name).map (· c)).getD false

end SetMember

structure ByteSet where
  negated : Bool
  members : List SetMember
  deriving Repr, DecidableEq

namespace ByteSet

def holds (s : ByteSet) (c : Char) : Bool := s.members.any (·.holds c) != s.negated

end ByteSet

end Classwright.Text
