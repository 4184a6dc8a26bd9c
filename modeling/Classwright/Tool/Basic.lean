import Classwright.Shell.Builtin

namespace Classwright.Tool

open Shell

def isPrintable (c : Char) : Bool := 32 ≤ c.toNat && c.toNat < 127

def letterOf? (c : Char) : Option Char :=
  [('\x07', 'a'), ('\x08', 'b'), ('\t', 't'), ('\n', 'n'), ('\x0b', 'v'), ('\x0c', 'f'),
    ('\r', 'r')].lookup c

def escapedByte (c : Char) : String :=
  match letterOf? c with
  | some letter => .ofList ['\\', letter]
  | none =>
    let digits := String.ofList (Nat.toDigits 8 c.toNat)
    "\\" ++ .ofList (List.replicate (3 - digits.length) '0') ++ digits

-- A name in quotes that a shell would read; `escaping` tells that an escape stands in front.
def shellQuoted (escaping : Bool) : List Char → String
  | [] => if escaping then "" else "'"
  | '\'' :: rest => (if escaping then "''" else "") ++ "'\\''" ++ shellQuoted false rest
  | c :: rest =>
    if isPrintable c then
      (if escaping then "'" else "") ++ .singleton c ++ shellQuoted false rest
    else (if escaping then "" else "'$'") ++ escapedByte c ++
      (match rest with
        | next :: _ => if isPrintable next || next == '\'' then "'" else ""
        | [] => "'") ++ shellQuoted true rest

def isHarmless (c : Char) : Bool := c.isAlphanum || " '%+,-./:]_".toList.contains c

def quoted (name : String) : String :=
  let cs := name.toList
  if cs.contains '\'' && cs.all isHarmless then "\"" ++ name ++ "\""
  else "'" ++ shellQuoted false cs

def quotedIfNeeded (name : String) : String :=
  let isPlain (c : Char) : Bool := c.isAlphanum || "%+,-./:@]_".toList.contains c
  let cs := name.toList
  let starts := match cs with
    | c :: _ => c == '#' || c == '~'
    | [] => true
  let isPlainBehind (c : Char) : Bool := isPlain c || c == '#' || c == '~' ||
    ((c == '\x7b' || c == '\x7d') && 1 < cs.length)
  if starts || !cs.all isPlainBehind then quoted name else name

def literal (text : String) : String :=
  "'" ++ String.join (text.toList.map fun c =>
    if c == '\'' then "\\'" else if c == '\\' then "\\\\"
    else if isPrintable c then .singleton c else escapedByte c) ++ "'"

inductive Takes where
  | nothing
  | value
  | maybe
  deriving DecidableEq

structure OptionSpec where
  key : String
  name : String
  takes : Takes

def flag (key name : String) : OptionSpec := ⟨key, name, .nothing⟩

def valued (key name : String) : OptionSpec := ⟨key, name, .value⟩

abbrev Given := List (String × Option String)

namespace Given

def has (g : Given) (key : String) : Bool := g.any (·.1 == key)

def value? (g : Given) (key : String) : Option String :=
  (g.reverse.find? (·.1 == key)).bind (·.2)

def values (g : Given) (key : String) : List String :=
  g.filterMap fun (k, v) => if k == key then v else none

def last? (g : Given) (keys : List String) : Option String :=
  (g.reverse.find? fun entry => keys.contains entry.1).map (·.1)

end Given

-- Reads a cluster of letters; the words behind it may hold a value.
def readLetters (specs : List OptionSpec) : List Char → List String →
    Except String (Given × List String)
  | [], words => .ok ([], words)
  | letter :: rest, words =>
    match specs.find? (·.key == .singleton letter) with
    | none => .error ("invalid option -- '" ++ .singleton letter ++ "'")
    | some spec =>
      match spec.takes with
      | .nothing => do
        let (given, words) ← readLetters specs rest words
        return ((spec.key, none) :: given, words)
      | .maybe =>
        .ok ([(spec.key, if rest.isEmpty then none else some (.ofList rest))], words)
      | .value =>
        if !rest.isEmpty then .ok ([(spec.key, some (.ofList rest))], words)
        else match words with
          | value :: words => .ok ([(spec.key, some value)], words)
          | [] => .error ("option requires an argument -- '" ++ .singleton letter ++ "'")

def readName (specs : List OptionSpec) (text : String) (words : List String) :
    Except String (Given × List String) := do
  let name := String.ofList (text.toList.takeWhile (· != '='))
  let value? := match text.toList.dropWhile (· != '=') with
    | _ :: value => some (String.ofList value)
    | [] => none
  let candidates := specs.filter fun s => s.name.startsWith name && s.name != ""
  let exact := candidates.filter (·.name == name)
  let spec ←
    match exact, candidates with
    | spec :: _, _ => .ok spec
    | [], [spec] => .ok spec
    | [], [] => .error ("unrecognized option '--" ++ name ++ "'")
    | [], several => .error ("option '--" ++ name ++ "' is ambiguous; possibilities:" ++
        String.join (several.map fun s => " '--" ++ s.name ++ "'"))
  match spec.takes, value? with
  | .nothing, some _ => .error ("option '--" ++ spec.name ++ "' doesn't allow an argument")
  | .value, none =>
    match words with
    | value :: words => .ok ([(spec.key, some value)], words)
    | [] => .error ("option '--" ++ spec.name ++ "' requires an argument")
  | _, value => .ok ([(spec.key, value)], words)

def readOptions (specs : List OptionSpec) (mixed : Bool) : Nat → List String →
    Except String (Given × List String)
  | 0, words => .ok ([], words)
  | limit + 1, words =>
    match words with
    | [] => .ok ([], [])
    | "--" :: rest => .ok ([], rest)
    | word :: rest =>
      if word == "-" || !word.startsWith "-" then
        if !mixed then .ok ([], words)
        else do
          let (given, operands) ← readOptions specs mixed limit rest
          return (given, word :: operands)
      else do
        let (first, rest) ←
          if word.startsWith "--" then readName specs (.ofList (word.toList.drop 2)) rest
          else readLetters specs (word.toList.drop 1) rest
        let (given, operands) ← readOptions specs mixed limit rest
        return (first ++ given, operands)

section

variable {m : Type → Type} [Monad m]

def complain (program text : String) : ShellM m Unit :=
  putError (program ++ ": " ++ text ++ "\n")

def hint (program : String) : ShellM m Unit :=
  putError ("Try '" ++ program ++ " --help' for more information.\n")

def misuse (program text : String) (status : Nat) : ShellM m Nat := do
  complain program text
  hint program
  return status

def missingOperand (program : String) (operands : List String) (what : String) :
    ShellM m Nat :=
  match operands.getLast? with
  | none => misuse program ("missing " ++ what ++ "operand") 1
  | some last =>
    misuse program ("missing destination " ++ what ++ "operand after " ++ quoted last) 1

-- Reads the options of a program and goes on with them; `status` tells that they are wrong.
def withOptions (program : String) (specs : List OptionSpec) (status : Nat)
    (words : List String) (go : Given → List String → ShellM m Nat) : ShellM m Nat := do
  match readOptions (flag "help" "help" :: flag "version" "version" :: specs) true
      (words.length + 1) words with
  | .error text => misuse program text status
  | .ok (given, operands) =>
    if given.has "help" || given.has "version" then return 0 else go given operands

def readInput (path : String) : ShellM m (Except FileFault String) := do
  if path == "-" || path == "/dev/stdin" then return .ok (← readAll 0)
  else if path == "/dev/null" then return .ok ""
  else onHost (·.readBytes (← fullPath path))

-- Goes through inputs; those that cannot be read are named, and the status is one then.
def eachInput (describe : String → FileFault → ShellM m Unit)
    (action : String → String → ShellM m Unit) : List String → ShellM m Nat
  | [] => return 0
  | path :: rest => do
    let first ←
      match ← readInput path with
      | .ok text => do
        action path text
        pure 0
      | .error fault => do
        describe path fault
        pure 1
    let others ← eachInput describe action rest
    return max first others

-- The inputs of a program; without any it reads the stream of its input.
def inputsOf (operands : List String) : List String := if operands.isEmpty then ["-"] else operands

def complainOf (program path : String) (fault : FileFault) : ShellM m Unit :=
  complain program (quotedIfNeeded path ++ ": " ++ fault.reason)

def writeOutput (path text : String) : ShellM m (Except FileFault Unit) := do
  match path with
  | "/dev/null" => return .ok ()
  | "/dev/stdout" =>
    put text
    return .ok ()
  | "/dev/stderr" =>
    putError text
    return .ok ()
  | path => onHost (·.writeBytes (← fullPath path) text)

def kindOf? (path : String) : ShellM m (Option FileKind) := do
  if path == "/dev/null" then return some .file
  onHost (·.kind? (← fullPath path))

end

-- The lines of a text, with their ends; the last one may lack it.
def splitLines (text : String) : List String :=
  go text.toList []
where
  go : List Char → List Char → List String
    | [], [] => []
    | [], line => [.ofList line.reverse]
    | '\n' :: rest, line => .ofList ('\n' :: line).reverse :: go rest []
    | c :: rest, line => go rest (c :: line)

def withoutEnd (line : String) : String :=
  if line.endsWith "\n" then .ofList line.toList.dropLast else line

def linesOf (text : String) : List String := (splitLines text).map withoutEnd

def padLeft (width : Nat) (text : String) : String :=
  .ofList (List.replicate (width - text.length) ' ') ++ text

def padRight (width : Nat) (text : String) : String :=
  text ++ .ofList (List.replicate (width - text.length) ' ')

end Classwright.Tool
