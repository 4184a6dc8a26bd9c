import Classwright.Tool.Basic

namespace Classwright.Tool

open Shell

section

variable {m : Type → Type} [Monad m]

structure Display where
  numbers : Bool
  skipsEmpty : Bool
  squeezes : Bool
  ends : Bool
  tabs : Bool
  marks : Bool

def Display.byte (d : Display) (c : Char) : String :=
  if c == '\n' then "\n"
  else if c == '\t' then if d.tabs then "^I" else "\t"
  else if !d.marks then .singleton c
  else
    let code := c.toNat
    let low := code % 128
    (if 128 ≤ code then "M-" else "") ++
      (if low < 32 then "^" ++ .singleton (.ofNat (low + 64))
      else if low == 127 then "^?"
      else .singleton (.ofNat low))

-- Shows lines; the number of the last line shown, and whether it was empty, go along.
def Display.lines (d : Display) : Nat → Nat → List String → List String
  | _, _, [] => []
  | number, empty, line :: rest =>
    let isEmpty := line == "\n"
    if d.squeezes && isEmpty && 0 < empty then d.lines number empty rest
    else
      let counted := d.numbers && !(d.skipsEmpty && isEmpty)
      let label := if counted then padLeft 6 (toString (number + 1)) ++ "\t" else ""
      let body := String.join ((withoutEnd line).toList.map d.byte)
      let ending := if line.endsWith "\n" then if d.ends then "$\n" else "\n" else ""
      (label ++ body ++ ending) ::
        d.lines (if counted then number + 1 else number) (if isEmpty then empty + 1 else 0) rest

def catSpecs : List OptionSpec :=
  [flag "A" "show-all", flag "b" "number-nonblank", flag "e" "", flag "E" "show-ends",
    flag "n" "number", flag "s" "squeeze-blank", flag "t" "", flag "T" "show-tabs", flag "u" "",
    flag "v" "show-nonprinting"]

def cat : Action m := fun words => withOptions "cat" catSpecs 1 words fun given operands => do
  let any (keys : List String) : Bool := keys.any given.has
  let d : Display := {
    numbers := any ["n", "b"]
    skipsEmpty := given.has "b"
    squeezes := given.has "s"
    ends := any ["A", "e", "E"]
    tabs := any ["A", "t", "T"]
    marks := any ["A", "e", "t", "v"] }
  if any (catSpecs.map (·.key)) then
    -- Numbers go on from one input to the next, so all of them are shown together.
    let (status, text) ← go "" operands
    put (String.join (d.lines 0 0 (splitLines text)))
    return status
  else eachInput (complainOf "cat") (fun _ text => put text) (inputsOf operands)
where
  go (done : String) (operands : List String) : ShellM m (Nat × String) :=
    (inputsOf operands).foldlM (fun (status, text) path => do
      match ← readInput path with
      | .ok more => return (status, text ++ more)
      | .error fault =>
        complainOf "cat" path fault
        return (1, text)) (0, done)

def tac : Action m := fun words => withOptions "tac" [] 1 words fun _ operands =>
  eachInput
    (fun path fault =>
      complain "tac" (if fault == .isDirectory then quotedIfNeeded path ++ ": read error: " ++
        fault.reason else "failed to open " ++ quoted path ++ " for reading: " ++ fault.reason))
    (fun _ text => put (String.join (splitLines text).reverse)) (inputsOf operands)

def rev : Action m := fun words => withOptions "rev" [] 1 words fun _ operands =>
  eachInput (fun path fault => complain "rev" ("cannot open " ++ path ++ ": " ++ fault.reason))
    (fun _ text => put (String.join ((splitLines text).map fun line =>
      .ofList (withoutEnd line).toList.reverse ++ if line.endsWith "\n" then "\n" else "")))
    (inputsOf operands)

-- Numbers lines, of which empty ones are skipped unless asked for.
def nl : Action m := fun words =>
  let specs := [valued "b" "body-numbering", valued "w" "number-width",
    valued "s" "number-separator", valued "v" "starting-line-number", valued "i" "line-increment",
    valued "n" "number-format"]
  withOptions "nl" specs 1 words fun given operands => do
    let number (key : String) (standard : Nat) : Nat :=
      ((given.value? key).bind (·.toNat?)).getD standard
    let width := number "w" 6
    let separator := (given.value? "s").getD "\t"
    let counts (line : String) : Bool :=
      match given.value? "b" with
      | some "a" => true
      | some "n" => false
      | _ => line != ""
    let label (n : Nat) : String :=
      match given.value? "n" with
      | some "ln" => padRight width (toString n)
      | some "rz" => String.ofList ((padLeft width (toString n)).toList.map fun c =>
          if c == ' ' then '0' else c)
      | _ => padLeft width (toString n)
    let shown (n : Nat) (line : String) : String × Nat :=
      if counts line then (label n ++ separator ++ line ++ "\n", n + number "i" 1)
      else (.ofList (List.replicate (width + separator.length) ' ') ++ line ++ "\n", n)
    let (status, text) ← cat.go "" operands
    let (output, _) := (linesOf text).foldl (fun (done, n) line =>
      let (line, n) := shown n line
      (line :: done, n)) ([], number "v" 1)
    put (String.join output.reverse)
    return status

def tee : Action m := fun words =>
  withOptions "tee" [flag "a" "append", flag "i" "ignore-interrupts"] 1 words
    fun given operands => do
      let input ← readAll 0
      let mut status := 0
      for path in operands do
        let old ←
          if given.has "a" then do
            match ← readInput path with
            | .ok old => pure old
            | .error _ => pure ""
          else pure ""
        match ← writeOutput path (old ++ input) with
        | .ok () => pure ()
        | .error fault =>
          complainOf "tee" path fault
          status := 1
      put input
      return status

def sizeFactors : List (String × Nat) :=
  [("", 1), ("b", 512), ("k", 1024), ("K", 1024), ("kB", 1000), ("KB", 1000), ("M", 1048576),
    ("MB", 1000000), ("G", 1073741824), ("GB", 1000000000)]

def sizeOf? (text : String) : Option Nat := do
  let digits := text.toList.takeWhile Char.isDigit
  let n ← digitsValue? 10 digits
  let factor ← sizeFactors.lookup (.ofList (text.toList.drop digits.length))
  return n * factor

structure Extract where
  bytes : Bool
  count : Nat
  complement : Bool

def Extract.units (e : Extract) (text : String) : List String :=
  if e.bytes then text.toList.map .singleton else splitLines text

-- The first units, or all but the last ones.
def Extract.head (e : Extract) (text : String) : String :=
  let units := e.units text
  String.join (units.take (if e.complement then units.length - e.count else e.count))

def Extract.tail (e : Extract) (text : String) : String :=
  let units := e.units text
  String.join (units.drop (if e.complement then e.count - 1 else units.length - e.count))

def oldCount (words : List String) : List String :=
  match words with
  | word :: rest =>
    let cs := word.toList
    match cs with
    | '-' :: c :: more =>
      if c.isDigit then
        let digits := (c :: more).takeWhile Char.isDigit
        let letters := (c :: more).drop digits.length
        let unit := if letters.contains 'c' then "-c" else "-n"
        unit :: .ofList digits :: (if letters.contains 'q' then ["-q"] else []) ++
          (if letters.contains 'v' then ["-v"] else []) ++ rest
      else words
    | _ => words
  | [] => []

def extractAll (program : String) (given : Given) (operands : List String)
    (part : String → String) (consumed : String → Nat) : ShellM m Nat := do
  let inputs := inputsOf operands
  let titled := (1 < inputs.length || given.has "v") && !given.has "q"
  let mut status := 0
  let mut first := true
  for path in inputs do
    let text? ←
      if path == "-" then do pure (Except.ok ((← unread 0).getD ""))
      else readInput path
    let title := (if first then "" else "\n") ++ "==> " ++
      (if path == "-" then "standard input" else path) ++ " <==\n"
    match text? with
    | .ok text =>
      if path == "-" then skipBytes 0 (consumed text)
      put ((if titled then title else "") ++ part text)
      first := false
    | .error .isDirectory =>
      if titled then put title
      first := false
      complain program ("error reading " ++ quoted path ++ ": " ++ FileFault.isDirectory.reason)
      status := 1
    | .error fault =>
      complain program ("cannot open " ++ quoted path ++ " for reading: " ++ fault.reason)
      status := 1
  return status

def extractSpecs : List OptionSpec :=
  [valued "n" "lines", valued "c" "bytes", flag "q" "quiet", flag "q" "silent", flag "v" "verbose"]

-- Reads which part is meant; `mark` is the sign in front of a count that means the others.
def readExtract (program : String) (mark other : Char) (given : Given)
    (go : Extract → ShellM m Nat) : ShellM m Nat := do
  let bytes := given.last? ["n", "c"] == some "c"
  let text := ((given.value? (if bytes then "c" else "n")).getD "10").toList
  let complement := text.head? == some mark
  let digits := if complement || text.head? == some other then text.drop 1 else text
  match sizeOf? (.ofList digits) with
  | some count => go ⟨bytes, count, complement⟩
  | none =>
    complain program ("invalid number of " ++ (if bytes then "bytes" else "lines") ++ ": " ++
      literal (.ofList text))
    return 1

def head : Action m := fun words =>
  withOptions "head" extractSpecs 1 (oldCount words) fun given operands =>
    readExtract "head" '-' '+' given fun e =>
      extractAll "head" given operands e.head fun text =>
        if e.complement then text.length else (e.head text).length

def tail : Action m := fun words =>
  let words :=
    match words with
    | word :: rest =>
      if word.startsWith "+" && (word.toList.drop 1).all Char.isDigit && 1 < word.length then
        "-n" :: word :: rest
      else oldCount words
    | [] => []
  withOptions "tail" (flag "f" "follow" :: extractSpecs) 1 words fun given operands =>
    readExtract "tail" '+' '-' given fun e =>
      extractAll "tail" given operands e.tail (·.length)

-- Escapes in a list of delimiters; an escaped zero stands for no delimiter.
def delimiters : List Char → List String
  | '\\' :: c :: rest =>
    (match c with
      | 'n' => "\n"
      | 't' => "\t"
      | '0' => ""
      | c => .singleton c) :: delimiters rest
  | c :: rest => .singleton c :: delimiters rest
  | [] => []

def joinInTurn (ds : List String) : Nat → List String → String
  | _, [] => ""
  | _, [text] => text
  | n, text :: rest => text ++ (ds[n % ds.length]?).getD "" ++ joinInTurn ds (n + 1) rest

def paste : Action m := fun words =>
  withOptions "paste" [valued "d" "delimiters", flag "s" "serial", flag "z" "zero-terminated"] 1
    words fun given operands => do
      let ds := delimiters ((given.value? "d").getD "\t").toList
      let inputs := inputsOf operands
      let streams := inputs.count "-"
      let mut texts : List (List String) := []
      let mut shared : List String := []
      for path in inputs do
        match ← readInput path with
        | .ok text =>
          let lines := linesOf text
          if path == "-" then shared := shared ++ lines
          texts := texts ++ [lines]
        | .error fault =>
          complainOf "paste" path fault
          return 1
      if 1 < streams && !given.has "s" then
        texts := dealt shared streams 0 (inputs.zip texts)
      if given.has "s" then
        for lines in texts do put (joinInTurn ds 0 lines ++ "\n")
      else
        let count := (texts.map (·.length)).foldl max 0
        put (String.join ((List.range count).map fun i =>
          joinInTurn ds 0 (texts.map fun lines => (lines[i]?).getD "") ++ "\n"))
      return 0
where
  dealt (shared : List String) (streams : Nat) : Nat → List (String × List String) →
      List (List String)
    | _, [] => []
    | turn, (path, lines) :: rest =>
      if path == "-" then
        let own := (shared.zipIdx.filter fun (_, i) => i % streams == turn).map (·.1)
        own :: dealt shared streams (turn + 1) rest
      else lines :: dealt shared streams turn rest

def foldLine (width : Nat) (atBlanks : Bool) : Nat → List Char → List (List Char)
  | 0, cs => [cs]
  | limit + 1, cs =>
    if cs.length ≤ width then [cs]
    else
      let part := cs.take width
      let toBlank := (part.reverse.dropWhile (!Text.ByteClass.isBlank ·)).reverse
      let part := if atBlanks && !toBlank.isEmpty then toBlank else part
      part :: foldLine width atBlanks limit (cs.drop part.length)

def fold : Action m := fun words =>
  let words := match words with
    | word :: rest =>
      if word.startsWith "-" && (word.toList.drop 1).all Char.isDigit && 1 < word.length then
        "-w" :: .ofList (word.toList.drop 1) :: rest
      else words
    | [] => []
  withOptions "fold" [valued "w" "width", flag "s" "spaces", flag "b" "bytes"] 1 words
    fun given operands => do
      match ((given.value? "w").getD "80").toNat? with
      | some (width + 1) =>
        eachInput (complainOf "fold") (fun _ text => do
          let folded := (splitLines text).map fun line =>
            let cs := (withoutEnd line).toList
            let parts := foldLine (width + 1) (given.has "s") cs.length cs
            "\n".intercalate (parts.map .ofList) ++ if line.endsWith "\n" then "\n" else ""
          put (String.join folded)) (inputsOf operands)
      | _ =>
        complain "fold" ("invalid number of columns: " ++ literal ((given.value? "w").getD ""))
        return 1

abbrev Span := Nat × Option Nat

def Span.holds (r : Span) (n : Nat) : Bool :=
  r.1 ≤ n && match r.2 with
    | some last => n ≤ last
    | none => true

-- Reads a list of ranges; `what` names the positions.
def readSpans (what : String) (text : String) : Except String (List Span) :=
  ((Text.splitOn ',' text).flatMap (Text.splitOn ' ')).mapM fun part => do
    let invalid {α : Type} : Except String α :=
      .error (if what == "field" then "invalid field value " ++ literal part
        else "invalid byte/character position " ++ literal part)
    let number (text : String) : Except String Nat :=
      match text.toNat? with
      | some 0 => .error (what ++ "s are numbered from 1")
      | some n => .ok n
      | none => invalid
    match Text.splitOn '-' part with
    | [one] => do
      let n ← number one
      return (n, some n)
    | ["", ""] => .error "invalid range with no endpoint: -"
    | [first, ""] => return (← number first, none)
    | ["", last] => return (1, some (← number last))
    | [first, last] => do
      let a ← number first
      let b ← number last
      if b < a then .error "invalid decreasing range" else return (a, some b)
    | _ => invalid

def cutSpecs : List OptionSpec :=
  [valued "b" "bytes", valued "c" "characters", valued "f" "fields", valued "d" "delimiter",
    flag "s" "only-delimited", flag "n" "", flag "complement" "complement",
    valued "output-delimiter" "output-delimiter"]

def selected {α : Type} (holds : Nat → Bool) (units : List α) : List α :=
  (units.zipIdx.filter fun (_, i) => holds (i + 1)).map (·.1)

def cut : Action m := fun words => withOptions "cut" cutSpecs 1 words fun given operands => do
  let misuse (text : String) : ShellM m Nat := misuse "cut" text 1
  let lists := given.filter fun entry => ["b", "c", "f"].contains entry.1
  match lists with
  | [] => misuse "you must specify a list of bytes, characters, or fields"
  | _ :: _ :: _ => misuse "only one list may be specified"
  | [(key, list)] =>
    match readSpans (if key == "f" then "field" else "byte/character position") (list.getD "") with
    | .error text => misuse text
    | .ok spans =>
      let holds (n : Nat) : Bool := spans.any (·.holds n) != given.has "complement"
      let delimiter := (given.value? "d").getD "\t"
      if 1 < delimiter.length then misuse "the delimiter must be a single character"
      else if key != "f" && given.has "d" then
        misuse "an input delimiter may be specified only when operating on fields"
      else
        let separator := delimiter.toList.headD '\x00'
        let shown (line : String) : Option String :=
          if key == "f" then
            if !line.toList.contains separator then if given.has "s" then none else some line
            else some (((given.value? "output-delimiter").getD delimiter).intercalate
              (selected holds (Text.splitOn separator line)))
          else some (.ofList (selected holds line.toList))
        eachInput (complainOf "cut")
          (fun _ text => put (String.join (((linesOf text).filterMap shown).map (· ++ "\n"))))
          (inputsOf operands)

end

end Classwright.Tool
