import Classwright.Text.Hidden
import Classwright.Text.Lines

namespace Classwright.Path

def isAbsolute (path : String) : Bool := path.startsWith "/"

-- A path below a directory; an absolute path stays as it is.
def join (directory path : String) : String :=
  if isAbsolute path || directory == "" then path
  else if directory.endsWith "/" then directory ++ path
  else directory ++ "/" ++ path

def names (path : String) : List String := Text.splitOn '/' path

def trimSlashes (path : String) : String :=
  .ofList (path.toList.reverse.dropWhile (· == '/')).reverse

-- The paths that end with one of some names, which are given in reverse, the longest first.
def endingAt : List String → List String
  | [] => []
  | name :: rest =>
    if name == "" || name == "." then endingAt rest
    else "/".intercalate (name :: rest).reverse :: endingAt rest

def ancestors (path : String) : List String := path :: (endingAt (names path).reverse).drop 1

def quoteChar (c : Char) : List Char :=
  match c with
  | '"' => ['\\', '"']
  | '\\' => ['\\', '\\']
  | '\n' => ['\\', 'n']
  | '\r' => ['\\', 'r']
  | '\t' => ['\\', 't']
  | '\x00' => ['\\', '0']
  | c =>
    if Text.isHidden c then '\\' :: 'u' :: '{' :: (Nat.toDigits 16 c.toNat ++ ['}']) else [c]

def quote (path : String) : String :=
  "\"" ++ .ofList (path.toList.flatMap quoteChar) ++ "\""

end Classwright.Path
