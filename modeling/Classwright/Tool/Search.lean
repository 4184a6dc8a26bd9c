import Classwright.Text.Regex
import Classwright.Tool.Files

namespace Classwright.Tool

open Shell Text

def grepSpecs : List OptionSpec :=
  [flag "E" "extended-regexp", flag "F" "fixed-strings", flag "G" "basic-regexp",
    flag "P" "perl-regexp", valued "e" "regexp", valued "f" "file", flag "i" "ignore-case",
    flag "y" "", flag "no-ignore-case" "no-ignore-case", flag "v" "invert-match",
    flag "w" "word-regexp", flag "x" "line-regexp", flag "c" "count", ⟨"color", "color", .maybe⟩,
    ⟨"color", "colour", .maybe⟩, flag "L" "files-without-match", flag "l" "files-with-matches",
    valued "m" "max-count", flag "o" "only-matching", flag "q" "quiet", flag "q" "silent",
    flag "s" "no-messages", flag "b" "byte-offset", flag "H" "with-filename",
    flag "h" "no-filename", valued "label" "label", flag "n" "line-number", flag "T" "initial-tab",
    flag "Z" "null", flag "z" "null-data", valued "A" "after-context", valued "B" "before-context",
    valued "C" "context", flag "a" "text", valued "binary-files" "binary-files", flag "I" "",
    valued "d" "directories", valued "D" "devices", flag "r" "recursive",
    flag "R" "dereference-recursive", valued "include" "include", valued "exclude" "exclude",
    valued "exclude-dir" "exclude-dir", flag "line-buffered" "line-buffered", flag "U" "binary"]

def fixedRegex (text : String) : Regex :=
  text.toList.foldr (fun c r => .both (.byte c) r) .empty

def grepRegex (given : Given) (patterns : List String) : Except Regex.Fault Regex := do
  let extended := given.last? ["E", "F", "G", "P"]
  let rs ← patterns.mapM fun pattern =>
    if extended == some "F" then .ok (fixedRegex pattern)
    else (Regex.ofText ⟨extended == some "E" || extended == some "P", false⟩ pattern.toList).map
      (·.1)
  let any := match rs with
    | [] => none
    | r :: rest => some (rest.foldl Regex.either r)
  let whole (r : Regex) : Regex :=
    if given.has "x" then .both .start (.both r .finish)
    else if given.has "w" then .both .freeBefore (.both r .freeBehind)
    else r
  -- Without any pattern there is nothing that matches.
  return whole (any.getD (.oneOf ⟨false, []⟩))

-- The matches in a line and where they start, from the left; empty ones are left out.
def allMatches (mode : Regex.Mode) (r : Regex) : Nat → Regex.Place → List (Nat × List Char)
  | 0, _ => []
  | limit + 1, p =>
    match Regex.find? mode r (p.rest.length + 1) p with
    | none => []
    | some (first, last) =>
      if last.position == first.position then
        match first.next? with
        | some (_, next) => allMatches mode r limit next
        | none => []
      else (first.position, first.rest.take (last.position - first.position)) ::
        allMatches mode r limit last

def behindBracket (cs : List Char) : List Char :=
  let cs := match cs with
    | '^' :: rest => rest
    | cs => cs
  let cs := match cs with
    | ']' :: rest => rest
    | cs => cs
  (cs.dropWhile (· != ']')).drop 1

-- What is odd about a pattern; `starts` tells that an expression starts in it.
def oddities (extended starts : Bool) (cs : List Char) : List String :=
  go (cs.length + 1) starts cs
where
  go : Nat → Bool → List Char → List String
    | 0, _, _ => []
    | limit + 1, starts, cs =>
      match cs with
      | [] => []
      | '\\' :: c :: rest =>
        let opens := !extended && (c == '(' || c == '|')
        let isMark := "()|\x7b\x7d+?.[]*^$\\wWsSbB<>\x60'".toList.contains c || c.isDigit
        (if isMark then [] else ["stray \\ before " ++
          (if ByteClass.isSpace c then "white space"
          else if isPrintable c then .singleton c else "unprintable character")]) ++
          go limit opens rest
      | '[' :: rest => go limit false (behindBracket rest)
      | '^' :: rest => go limit starts rest
      | c :: rest =>
        let opens := extended && (c == '(' || c == '|')
        let odd := extended && starts && (c == '*' || c == '+' || c == '?')
        (if odd then [.singleton c ++ " at start of expression"] else []) ++
          go limit (opens || odd) rest

structure Finding where
  given : Given
  mode : Regex.Mode
  regex : Regex
  titled : Bool
  before : Nat
  after : Nat
  most : Option Nat

namespace Finding

def isFound (f : Finding) (line : String) : Bool :=
  (Regex.search f.mode f.regex line.toList).isSome != f.given.has "v"

def ending (f : Finding) : Char := if f.given.has "z" then '\x00' else '\n'

def linesOf (f : Finding) (text : String) : List String :=
  match (Text.splitOn f.ending text).reverse with
  | "" :: rest => rest.reverse
  | all => all.reverse

-- What stands in front of a line: `mark` tells found lines from those around them, and `offset`
-- counts the bytes before the line.
def label (f : Finding) (name mark : String) (number offset : Nat) : String :=
  (if f.titled then name ++ mark else "") ++
    (if f.given.has "n" then toString number ++ mark else "") ++
    (if f.given.has "b" then toString offset ++ mark else "")

-- The numbers of the lines that are found, at most as many as asked for.
def numbers (f : Finding) (lines : List (String × Nat)) : List Nat :=
  let found := (lines.filter fun (line, _) => f.isFound line).map (·.2)
  match f.most with
  | some n => found.take n
  | none => found

def hasContext (f : Finding) : Bool := f.before != 0 || f.after != 0

def shown (f : Finding) (name : String) (lines : List (String × Nat)) (found : List Nat) :
    String :=
  let offsets := (lines.foldl (fun (done, offset) (line, _) =>
    (offset :: done, offset + line.length + 1)) (([] : List Nat), 0)).1.reverse.toArray
  let offset (n : Nat) : Nat := (offsets[n - 1]?).getD 0
  let ending := String.singleton f.ending
  if f.given.has "o" then
    if f.given.has "v" then ""
    else String.join ((lines.filter fun (_, n) => found.contains n).flatMap fun (line, n) =>
      (allMatches f.mode f.regex (line.length + 1) (.ofText line.toList)).map fun (start, text) =>
        f.label name ":" n (offset n + start) ++ .ofList text ++ ending)
  else
    let isNear (n : Nat) : Bool := found.any fun k => k ≤ n + f.before && n ≤ k + f.after
    let near := lines.filter fun (_, n) => isNear n
    let (text, _) := near.foldl (fun (done, last) (line, n) =>
      let gap := if f.hasContext && last != 0 && last + 1 != n then "--\n" else ""
      let mark := if found.contains n then ":" else "-"
      ((gap ++ f.label name mark n (offset n) ++ line ++ ending) :: done, n))
      (([] : List String), 0)
    String.join text.reverse

end Finding

section

variable {m : Type → Type} [Monad m]

def searchable (given : Given) : Nat → String → ShellM m (List String)
  | 0, _ => return []
  | depth + 1, path => do
    let isNamed (key name : String) : Bool :=
      (given.values key).any fun pattern => Wildcard.isMatch (Wildcard.ofText pattern) name.toList
    let name := lastName path
    match ← occupant? path with
    | some (.kind .directory) =>
      let below ← (← entriesOf path).mapM fun name => do
        let inner := if path == "" then name else inside path name
        if (← isDirectory inner) && isNamed "exclude-dir" name then return []
        else searchable given depth inner
      return below.flatten
    | some (.link _) =>
      return if given.has "R" && (← kindOf? path) == some .file then [path] else []
    | some (.kind .file) =>
      let included := !given.has "include" || isNamed "include" name
      return if included && !isNamed "exclude" name then [path] else []
    | none => return [path]

-- Searches one input; tells whether something was found. With a gap, the lines that are shown are
-- kept apart from earlier ones.
def searchInput (f : Finding) (gap : Bool) (path text : String) : ShellM m Bool := do
  let name := if path == "-" then (f.given.value? "label").getD "(standard input)" else path
  let lines := (f.linesOf text).zipIdx 1
  let found := f.numbers lines
  let label := if f.titled then name ++ ":" else ""
  if f.given.has "q" then return !found.isEmpty
  else if f.given.has "l" then
    if !found.isEmpty then put (name ++ "\n")
  else if f.given.has "L" then
    if found.isEmpty then put (name ++ "\n")
  else if f.given.has "c" then put (label ++ toString found.length ++ "\n")
  else if text.toList.contains '\x00' && !f.given.has "a" && !f.given.has "z" then
    if !found.isEmpty && !f.given.has "I" then complain "grep" (name ++ ": binary file matches")
  else
    if gap && f.hasContext && !found.isEmpty then put "--\n"
    put (f.shown name lines found)
  return !found.isEmpty

def grepWith (standard : List String) : Action m := fun words => do
  -- A count in front of the other options stands for lines of context.
  let words := words.map fun word =>
    match word.toList with
    | '-' :: c :: rest =>
      if c.isDigit && rest.all Char.isDigit then "-C" ++ .ofList (c :: rest) else word
    | _ => word
  let usage (text : String) : ShellM m Nat := do
    if text != "" then complain "grep" text
    putError ("Usage: grep [OPTION]... PATTERNS [FILE]...\n" ++
      "Try 'grep --help' for more information.\n")
    return 2
  match readOptions (flag "help" "help" :: flag "version" "V" :: grepSpecs) true
      (words.length + 1) words with
  | .error text => usage text
  | .ok (given, operands) =>
    let given := standard.map (·, none) ++ given
    if given.has "help" then return 0
    let stop (text : String) : ShellM m Nat := do
      complain "grep" text
      return 2
    let mut files : List String := []
    for path in given.values "f" do
      match ← readInput path with
      | .ok text => files := files ++ linesOf text
      | .error fault => return ← stop (path ++ ": " ++ fault.reason)
    let hasPatterns := given.has "e" || given.has "f"
    let lengths := ["A", "B", "C"].filterMap given.value?
    if let some text := lengths.find? (·.toNat?.isNone) then
      stop (text ++ ": invalid context length argument")
    else if !hasPatterns && operands.isEmpty then usage ""
    else
      let patterns := if hasPatterns then (given.values "e").flatMap (Text.splitOn '\n') ++ files
        else Text.splitOn '\n' (operands.headD "")
      let operands := if hasPatterns then operands else operands.drop 1
      let context (key : String) : Except String Nat :=
        match (given.value? key).orElse fun _ => given.value? "C" with
        | none => .ok 0
        | some text =>
          match text.toNat? with
          | some n => .ok n
          | none => .error (text ++ ": invalid context length argument")
      let most? : Except String (Option Nat) :=
        match given.value? "m" with
        | none => .ok none
        | some text =>
          match text.toNat? with
          | some n => .ok (some n)
          | none => .error "invalid max count"
      let kind? := given.last? ["E", "F", "G", "P"]
      if kind? != some "F" then
        for pattern in patterns do
          for text in oddities (kind? == some "E") true pattern.toList do
            complain "grep" ("warning: " ++ text)
      match grepRegex given patterns, context "A", context "B", most? with
      | .error .bracket, _, _, _ => stop "Invalid regular expression"
      | .error fault, _, _, _ => stop fault.reason
      | _, .error text, _, _ => stop text
      | _, _, .error text, _ => stop text
      | _, _, _, .error text => stop text
      | .ok regex, .ok after, .ok before, .ok most =>
        let recursive := given.has "r" || given.has "R" ||
          given.value? "d" == some "recurse"
        let inputs ←
          if recursive then do
            let roots := if operands.isEmpty then [""] else operands
            let below ← roots.mapM fun root =>
              if root == "-" then pure ["-"] else do
                if root == "" then
                  pure (← (← entriesOf ".").mapM (searchable given maxWalk)).flatten
                else searchable given maxWalk root
            pure below.flatten
          else pure (inputsOf operands)
        let titled := given.last? ["H", "h"] == some "H" ||
          (given.last? ["H", "h"] != some "h" && (1 < operands.length || recursive))
        let f : Finding := {
          given := given
          mode := ⟨given.last? ["i", "y", "no-ignore-case"] != some "no-ignore-case" &&
            (given.has "i" || given.has "y"), false⟩
          regex := regex
          titled := titled
          before := before
          after := after
          most := most }
        let mut found := false
        let mut failed := false
        for path in inputs do
          match ← readInput path with
          | .ok text =>
            if ← searchInput f found path text then found := true
          | .error fault =>
            let isSkipped := fault == .isDirectory && given.value? "d" == some "skip"
            if !isSkipped then
              failed := true
              if !given.has "s" then complain "grep" (path ++ ": " ++ fault.reason)
        if given.has "q" && found then return 0
        else if failed then return 2
        else if given.has "L" then return if found then 0 else 1
        else return if found then 0 else 1

end

end Classwright.Tool
