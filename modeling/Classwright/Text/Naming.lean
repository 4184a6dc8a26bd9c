import Classwright.Text.Case

namespace Classwright.Naming

open Classwright.Text

def capitalizeChars : List Char → List Char
  | [] => []
  | c :: cs => upper c ++ cs

def lowerFirstChars : List Char → List Char
  | [] => []
  | c :: cs => lower c ++ cs

def isSeparator (c : Char) : Bool :=
  c == '-' || c == '_' || c == '.' || c == ' '

-- Capitalizes each word and joins them; `start` tells whether a word starts here.
def pascalChars (start : Bool) : List Char → List Char
  | [] => []
  | c :: cs =>
    if isSeparator c then pascalChars true cs
    else if start then upper c ++ pascalChars false cs
    else c :: pascalChars false cs

-- Writes an underscore for each separator and before a capital letter that follows a small letter
-- or a digit (`afterSmall`), and makes capital letters small.
def snakeChars (afterSmall : Bool) : List Char → List Char
  | [] => []
  | c :: cs =>
    if c == '-' || c == ' ' || c == '.' then '_' :: snakeChars false cs
    else if isUppercase c then
      (if afterSmall then ['_'] else []) ++ lower c ++ snakeChars false cs
    else c :: snakeChars (isLowercase c || c.isDigit) cs

def upperSnakeChars (cs : List Char) : List Char :=
  (snakeChars false cs).flatMap upper

def constantChar (c : Char) : Char :=
  if c.isAlphanum then c else '_'

def enumConstantChars (cs : List Char) : List Char :=
  match (upperSnakeChars cs).map constantChar with
  | [] => ['_']
  | c :: rest => if c.isDigit then '_' :: c :: rest else c :: rest

def capitalize (s : String) : String := .ofList (capitalizeChars s.toList)

def lowerFirst (s : String) : String := .ofList (lowerFirstChars s.toList)

def pascal (s : String) : String := .ofList (pascalChars true s.toList)

def snake (s : String) : String := .ofList (snakeChars false s.toList)

def upperSnake (s : String) : String := .ofList (upperSnakeChars s.toList)

def enumConstant (s : String) : String := .ofList (enumConstantChars s.toList)

end Classwright.Naming
