namespace Classwright.Text

-- The parts of a text between separator characters; there is always at least one.
def splitOnChar (separator : Char) : List Char → List (List Char)
  | [] => [[]]
  | c :: cs =>
    if c == separator then [] :: splitOnChar separator cs
    else match splitOnChar separator cs with
      | part :: parts => (c :: part) :: parts
      | [] => [[c]]

def dropReturn (line : List Char) : List Char :=
  if line.getLast? = some '\r' then line.dropLast else line

-- The lines of a text: a line feed ends a line, together with a carriage return before it, and
-- after the last line feed there is no further line. A carriage return at the very end of the text
-- belongs to the text.
def lineChars (cs : List Char) : List (List Char) :=
  match (splitOnChar '\n' cs).reverse with
  | [] => []
  | last :: ended =>
    let ended := ended.reverse.map dropReturn
    if last.isEmpty then ended else ended ++ [last]

def lines (s : String) : List String := (lineChars s.toList).map .ofList

def isBlank (c : Char) : Bool :=
  let n := c.toNat
  (0x9 ≤ n && n ≤ 0xD) || n == 0x20 || n == 0x85 || n == 0xA0 || n == 0x1680 ||
    (0x2000 ≤ n && n ≤ 0x200A) || n == 0x2028 || n == 0x2029 || n == 0x202F || n == 0x205F ||
    n == 0x3000

def trimEnd (s : String) : String :=
  .ofList (s.toList.reverse.dropWhile isBlank).reverse

def splitOn (separator : Char) (s : String) : List String :=
  (splitOnChar separator s.toList).map .ofList

end Classwright.Text
