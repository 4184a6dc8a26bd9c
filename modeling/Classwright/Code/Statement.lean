import Classwright.Language.Lexicon
import Classwright.Text.Lines

namespace Classwright.Code

-- The text of a statement may span lines. Each of them is indented to the depth at which the
-- statement stands.
inductive Statement where
  | line (code : String)
  | block (header : String) (body : List Statement)
  deriving Repr, Inhabited

def indentation (lex : Lexicon) (depth : Nat) : String :=
  String.join (List.replicate depth lex.indent)

-- The lines of a text, each but the empty ones indented.
def indentText (lex : Lexicon) (depth : Nat) (text : String) : List String :=
  (Text.lines text).map fun line => if line == "" then line else indentation lex depth ++ line

namespace Statement

-- The lines of a block's header; the last one opens the block.
def headerLines (lex : Lexicon) (depth : Nat) (header : String) : List String :=
  let lines := Text.lines header
  (lines.dropLast ++ [lines.getLast?.getD "" ++ lex.blockOpen]).map (indentation lex depth ++ ·)

def fillerLines (lex : Lexicon) (depth : Nat) : List String :=
  match lex.emptyBlock with
  | some filler => [indentation lex depth ++ lex.indent ++ filler]
  | none => []

def closingLines (lex : Lexicon) (depth : Nat) : List String :=
  match lex.blockClose with
  | some close => [indentation lex depth ++ close]
  | none => []

mutual

def printLines (lex : Lexicon) (depth : Nat) : Statement → List String
  | .line code => (Text.lines code).map (indentation lex depth ++ ·)
  | .block header body =>
    headerLines lex depth header ++ (if body.isEmpty then fillerLines lex depth else []) ++
      printAll lex (depth + 1) body ++ closingLines lex depth

def printAll (lex : Lexicon) (depth : Nat) : List Statement → List String
  | [] => []
  | statement :: rest => printLines lex depth statement ++ printAll lex depth rest

end

def print (lex : Lexicon) (statement : Statement) : String :=
  "\n".intercalate (statement.printLines lex 0)

end Statement

end Classwright.Code
