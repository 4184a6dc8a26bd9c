import Classwright.Shell.Program
import Classwright.Tool.Sed.Script

namespace Classwright.Tool.Sed

open Shell Text

structure Program where
  commands : Array Command
  ends : Array Nat

namespace Program

-- The ends of the blocks; `opened` are the places of those that are still open.
def blockEnds : List Command → Nat → List Nat → List (Nat × Nat)
  | [], _, _ => []
  | c :: rest, place, opened =>
    match c.action, opened with
    | .opens, _ => blockEnds rest (place + 1) (place :: opened)
    | .closes, start :: outer => (start, place) :: blockEnds rest (place + 1) outer
    | _, _ => blockEnds rest (place + 1) opened

def ofCommands (cs : List Command) : Program :=
  let ends := blockEnds cs 0 []
  ⟨cs.toArray, ((List.range cs.length).map fun place => (ends.lookup place).getD place).toArray⟩

-- The place of a label; the empty one stands behind all commands.
def target (p : Program) (name : String) : Nat :=
  (p.commands.findIdx? fun c =>
    match c.action with
    | .label other => other == name && name != ""
    | _ => false).getD p.commands.size

end Program

structure Space where
  text : List Char
  ended : Bool

namespace Space

def under (s below : Space) (separator : Char) : Space :=
  ⟨s.text ++ separator :: below.text, below.ended⟩

end Space

inductive RangeState where
  | outside
  | inside (last : Option Nat)
  | closed
  deriving DecidableEq

inductive Appended where
  | text (text : String)
  | file (path : String)
  | line (text : String)

structure Settings where
  quiet : Bool
  separator : Char
  inPlace : Bool
  separate : Bool
  width : Nat
  ranges : Array RangeState

structure Editing where
  pattern : Space
  hold : Space
  number : Nat
  name : String
  lines : List Space
  inputs : List String
  ranges : Array RangeState
  substituted : Bool
  regex : Option (Regex × Regex.Mode)
  appended : List Appended
  readers : List (String × List String)
  output : List String
  -- The outputs whose last line has no end; the one without a name is the first of all.
  unended : List String
  status : Nat

section

variable {m : Type → Type} [Monad m]

abbrev EditM (m : Type → Type) := StateT Editing (ShellM m)

def inShell {α : Type} (action : ShellM m α) : EditM m α := StateT.lift action

inductive Step where
  | next
  | goto (place : Nat)
  | endCycle (prints : Bool)
  | again
  | quit (prints : Bool) (status : Nat)
  | failed (text : String) (status : Nat)

-- Writes bytes to an output; the one without a name is the output of the program.
def emit (s : Settings) (name text : String) : EditM m Unit := do
  if name == "" then
    if s.inPlace then modify fun e => { e with output := text :: e.output }
    else inShell (put text)
  else if name == "/dev/stdout" then inShell (put text)
  else if name == "/dev/stderr" then inShell (putError text)
  else
    let path ← inShell (fullPath name)
    let old := match ← inShell (onHost (·.readBytes path)) with
      | .ok text => text
      | .error _ => ""
    let _ ← inShell (onHost (·.writeBytes path (old ++ text)))

def endLine (s : Settings) (name : String) : EditM m Unit := do
  if (← get).unended.contains name then
    emit s name (.singleton s.separator)
    modify fun e => { e with unended := e.unended.filter (· != name) }

def printSpace (s : Settings) (name : String) (space : Space) : EditM m Unit := do
  endLine s name
  emit s name (.ofList space.text ++ if space.ended then .singleton s.separator else "")
  if !space.ended then modify fun e => { e with unended := name :: e.unended }

def printText (s : Settings) (text : String) : EditM m Unit := do
  endLine s ""
  emit s "" text

def printAppended (s : Settings) : EditM m Unit := do
  let appended := (← get).appended
  modify fun e => { e with appended := [] }
  for part in appended.reverse do
    endLine s ""
    match part with
    | .text text => emit s "" text
    | .line text => emit s "" (text ++ .singleton s.separator)
    | .file path =>
      match ← inShell (readInput path) with
      | .ok text => emit s "" text
      | .error _ => pure ()

def spaces (separator : Char) (text : String) : List Space :=
  match (Text.splitOn separator text).reverse with
  | [] => []
  | last :: rest =>
    rest.reverse.map (fun line => ⟨line.toList, true⟩) ++
      if last == "" then [] else [⟨last.toList, false⟩]

-- Puts what was written in the stead of the file that was edited; keeps it if asked to.
def finishFile (backup : Option String) : EditM m Unit := do
  let e ← get
  if e.name != "-" then
    let path ← inShell (fullPath e.name)
    if let some suffix := backup then
      if suffix != "" then
        let (directory, name) := splitPath e.name
        let copy :=
          if suffix.toList.contains '*' then name.intercalate (suffix.splitOn "*")
          else name ++ suffix
        let copy :=
          if copy.toList.contains '/' || directory == "" then copy else directory ++ "/" ++ copy
        if let .ok text ← inShell (onHost (·.readBytes path)) then
          let _ ← inShell do onHost (·.writeBytes (← fullPath copy) text)
    let _ ← inShell (onHost (·.writeBytes path (String.join e.output.reverse)))
  modify fun e => { e with output := [], unended := [], name := "-" }

-- Opens files up to one that can be read; `backup` tells how files are kept.
def openNext (s : Settings) (backup : Option String) : List String → EditM m Bool
  | [] => return false
  | path :: rest => do
    modify fun e => { e with inputs := rest }
    let giveUp (text : String) : EditM m Bool := do
      inShell (complain "sed" text)
      throw (.exit 4)
    match ← inShell (readInput path) with
    | .ok text =>
      modify fun e =>
        { e with
          name := path, lines := spaces s.separator text,
          number := if s.separate then 0 else e.number,
          ranges := if s.separate then s.ranges else e.ranges }
      if (← get).lines.isEmpty then
        if s.inPlace then finishFile backup
        openNext s backup rest
      else return true
    | .error .isDirectory =>
      if s.inPlace then giveUp ("couldn't edit " ++ path ++ ": not a regular file")
      else giveUp ("read error on " ++ path ++ ": " ++ FileFault.isDirectory.reason)
    | .error fault =>
      inShell (complain "sed" ("can't read " ++ path ++ ": " ++ fault.reason))
      modify fun e => { e with status := 2 }
      openNext s backup rest

-- Reads the next line, behind the pattern space or in its stead; tells whether there is one.
def readLine (s : Settings) (backup : Option String) (appends : Bool) : EditM m Bool := do
  printAppended s
  modify fun e => { e with substituted := false }
  if (← get).lines.isEmpty then
    if s.inPlace && (← get).name != "-" then finishFile backup
    if !(← openNext s backup (← get).inputs) then return false
  match (← get).lines with
  | [] => return false
  | line :: rest =>
    modify fun e =>
      { e with
        lines := rest, number := e.number + 1,
        pattern := if appends then e.pattern.under line s.separator else line }
    return true

def anyFull : List String → ShellM m Bool
  | [] => return false
  | path :: rest => do
    let isFull ←
      if path == "-" then pure (((← unread 0).getD "") != "")
      else match ← readInput path with
        | .ok text => pure (text != "")
        | .error _ => pure false
    if isFull then return true else anyFull rest

def atEnd (s : Settings) : EditM m Bool := do
  let e ← get
  if !e.lines.isEmpty then return false
  if s.separate then return true
  return !(← inShell (anyFull e.inputs))

def resolve (p : Pattern) : EditM m (Option (Regex × Regex.Mode)) := do
  match p with
  | .last => return (← get).regex
  | .regex r mode =>
    modify fun e => { e with regex := some (r, mode) }
    return some (r, mode)

def means (s : Settings) (startsRange : Bool) (a : Address) : EditM m Bool := do
  let number := (← get).number
  match a with
  | .line n => return if startsRange then n ≤ number else n == number
  | .lastLine => atEnd s
  | .step first step =>
    return if step == 0 then number == first else first ≤ number && (number - first) % step == 0
  | .pattern p =>
    match ← resolve p with
    | some (r, mode) => return (Regex.search mode r (← get).pattern.text).isSome
    | none => return false
  | _ => return false

def setRange (place : Nat) (state : RangeState) : EditM m Unit :=
  modify fun e => { e with ranges := e.ranges.setIfInBounds place state }

def entersRange (s : Settings) (place : Nat) (first last : Address) (closed : Bool) :
    EditM m Bool := do
  let number := (← get).number
  let isNumber := match first with
    | .line _ => true
    | _ => false
  if closed && isNumber then return false
  if !(← means s true first) then return false
  let single : EditM m Bool := do
    setRange place .closed
    return true
  match last with
  | .line n =>
    if n ≤ number then
      match first with
      | .line start =>
        if number == start || number ≤ n then single else return false
      | _ => single
    else
      setRange place (.inside (some n))
      return true
  | .offset 0 => single
  | .offset n =>
    setRange place (.inside (some (number + n)))
    return true
  | .multiple 0 => single
  | .multiple n =>
    setRange place (.inside (some ((number / n + 1) * n)))
    return true
  | _ =>
    setRange place (.inside none)
    return true

def applies (s : Settings) (place : Nat) (c : Command) : EditM m Bool := do
  match c.first, c.last with
  | none, _ => return true
  | some a, none => means s false a
  | some first, some last =>
    match ((← get).ranges[place]?).getD .outside with
    | .outside => entersRange s place first last false
    | .closed => entersRange s place first last true
    | .inside (some n) =>
      let number := (← get).number
      if n ≤ number then setRange place .closed
      match last with
      | .line _ => return number ≤ n
      | _ => return true
    | .inside none =>
      if ← means s false last then setRange place .closed
      return true

structure Casing where
  all : Option CaseChange
  next : Option CaseChange

namespace Casing

def change (c : CaseChange) (casing : Casing) : Casing :=
  match c with
  | .ending => ⟨none, none⟩
  | .upper => ⟨some c, none⟩
  | .lower => ⟨some c, none⟩
  | _ => { casing with next := some c }

def apply (change : Option CaseChange) (c : Char) : Char :=
  match change with
  | some .upper => c.toUpper
  | some .upperNext => c.toUpper
  | some .lower => c.toLower
  | some .lowerNext => c.toLower
  | _ => c

def text (casing : Casing) : List Char → List Char
  | [] => []
  | c :: rest => apply (casing.next.orElse fun _ => casing.all) c :: rest.map (apply casing.all)

end Casing

def expand (whole : List Char) (groups : List (Nat × List Char)) :
    Casing → List Part → List Char
  | _, [] => []
  | casing, part :: rest =>
    let shown (cs : List Char) : List Char :=
      let casing' := if cs.isEmpty then casing else { casing with next := none }
      casing.text cs ++ expand whole groups casing' rest
    match part with
    | .change c => expand whole groups (casing.change c) rest
    | .text cs => shown cs
    | .group 0 => shown whole
    | .group n => shown ((groups.lookup n).getD [])

structure Substituted where
  text : List Char
  count : Nat
  replaced : Bool

-- Substitutes from a place on; `ended` is where the last match ended.
def substituteFrom (sub : Substitution) (r : Regex) (mode : Regex.Mode) :
    Nat → Option Nat → Nat → Regex.Place → Substituted
  | 0, _, count, p => ⟨p.rest, count, false⟩
  | limit + 1, ended, count, p =>
    match Regex.find? mode r (p.rest.length + 1) p with
    | none => ⟨p.rest, count, false⟩
    | some (start, stop) =>
      let before := p.rest.take (start.position - p.position)
      let matched := start.rest.take (stop.position - start.position)
      let skips := matched.isEmpty && ended == some start.position
      let count := if skips then count else count + 1
      let replaces := !skips && sub.number ≤ count
      let shown :=
        if replaces then expand matched stop.groups ⟨none, none⟩ sub.replacement else matched
      let again := !replaces || sub.isGlobal
      let ended := if matched.isEmpty then ended else some stop.position
      let rest : Substituted :=
        if !again then ⟨stop.rest, count, false⟩
        else if matched.isEmpty then
          match stop.next? with
          | none => ⟨[], count, false⟩
          | some (c, next) =>
            let after := substituteFrom sub r mode limit ended count next
            { after with text := c :: after.text }
        else substituteFrom sub r mode limit ended count stop
      { rest with text := before ++ shown ++ rest.text, replaced := replaces || rest.replaced }

def shownByte (c : Char) : String :=
  if c == '\\' then "\\\\" else if isPrintable c then .singleton c else escapedByte c

-- A text in full, broken into lines of a width unless it is zero.
def shownText (width : Nat) : Nat → List Char → String
  | _, [] => "$\n"
  | column, c :: rest =>
    let shown := shownByte c
    if width != 0 && width - 1 < column + shown.length then
      "\\\n" ++ shown ++ shownText width shown.length rest
    else shown ++ shownText width (column + shown.length) rest

def lineOf? (s : Settings) (path : String) : EditM m (Option String) := do
  let rest ←
    match (← get).readers.lookup path with
    | some rest => pure rest
    | none =>
      match ← inShell (readInput path) with
      | .ok text => pure ((spaces s.separator text).map fun space => .ofList space.text)
      | .error _ => pure []
  modify fun e => { e with readers := setEntry path (rest.drop 1) e.readers }
  return rest.head?

-- Does what a command says that is nothing but a letter.
def runPlain (s : Settings) (backup : Option String) (letter : Char) : EditM m Step := do
  let e ← get
  match letter with
  | '=' => printText s (toString e.number ++ "\n")
  | 'd' => return .endCycle false
  | 'D' =>
    match e.pattern.text.dropWhile (· != s.separator) with
    | _ :: rest =>
      set { e with pattern := { e.pattern with text := rest } }
      return .again
    | [] => return .endCycle false
  | 'F' => printText s (e.name ++ "\n")
  | 'g' => set { e with pattern := e.hold }
  | 'G' => set { e with pattern := e.pattern.under e.hold s.separator }
  | 'h' => set { e with hold := e.pattern }
  | 'H' => set { e with hold := e.hold.under e.pattern s.separator }
  | 'n' =>
    if ← atEnd s then return .endCycle true
    if !s.quiet then printSpace s "" e.pattern
    if !(← readLine s backup false) then return .endCycle false
  | 'N' =>
    if ← atEnd s then return .endCycle true
    if !(← readLine s backup true) then return .endCycle true
  | 'p' => printSpace s "" e.pattern
  | 'P' =>
    printSpace s "" ⟨e.pattern.text.takeWhile (· != s.separator),
      e.pattern.ended || e.pattern.text.contains s.separator⟩
  | 'x' => set { e with pattern := e.hold, hold := e.pattern }
  | 'z' => set { e with pattern := { e.pattern with text := [] } }
  | _ => pure ()
  return .next

def runSubstitution (s : Settings) (sub : Substitution) : EditM m Step := do
  match ← resolve sub.pattern with
  | none => return .failed "no previous regular expression" 1
  | some (r, mode) =>
    let e ← get
    let cs := e.pattern.text
    let done := substituteFrom sub r mode (cs.length + 2) none 0 (.ofText cs)
    if done.replaced then
      set { e with pattern := { e.pattern with text := done.text }, substituted := true }
      let space := (← get).pattern
      if sub.prints then printSpace s "" space
      if let some file := sub.file then printSpace s file space
    return .next

def runCommand (s : Settings) (backup : Option String) (p : Program) (place : Nat) (c : Command) :
    EditM m Step := do
  match c.action with
  | .opens => return .next
  | .closes => return .next
  | .label _ => return .next
  | .jump name => return .goto (p.target name)
  | .jumpIf done name =>
    let substituted := (← get).substituted
    if done then modify fun e => { e with substituted := false }
    if substituted == done then return .goto (p.target name)
    if !done then modify fun e => { e with substituted := false }
    return .next
  | .append text =>
    modify fun e => { e with appended := .text text :: e.appended }
    return .next
  | .insert text =>
    printText s text
    return .next
  | .change text =>
    let inRange := match (← get).ranges[place]? with
      | some (.inside _) => c.last.isSome && !c.negated
      | _ => false
    if !inRange then printText s text
    return .endCycle false
  | .substitute sub => runSubstitution s sub
  | .translate pairs =>
    modify fun e =>
      { e with
        pattern := { e.pattern with text := e.pattern.text.map fun c => (pairs.lookup c).getD c } }
    return .next
  | .quit prints status => return .quit prints status
  | .readFile path =>
    modify fun e => { e with appended := .file path :: e.appended }
    return .next
  | .readLine path =>
    if let some line ← lineOf? s path then
      modify fun e => { e with appended := .line line :: e.appended }
    return .next
  | .writeFile path =>
    printSpace s path (← get).pattern
    return .next
  | .writeFirst path =>
    let space := (← get).pattern
    printSpace s path ⟨space.text.takeWhile (· != '\n'), space.ended || space.text.contains '\n'⟩
    return .next
  | .list width =>
    printText s (shownText (width.getD s.width) 0 (← get).pattern.text)
    return .next
  | .plain letter => runPlain s backup letter

-- Runs at most so many commands from a place on; gives what is left of that number.
def runFrom (s : Settings) (backup : Option String) (p : Program) :
    Nat → Nat → EditM m (Step × Nat)
  | 0, _ => return (.quit false 1, 0)
  | limit + 1, place => do
    match p.commands[place]? with
    | none => return (.endCycle true, limit)
    | some c =>
      if (← applies s place c) == c.negated then
        let skipped := match c.action with
          | .opens => (p.ends[place]?).getD place
          | _ => place
        runFrom s backup p limit (skipped + 1)
      else
        match ← runCommand s backup p place c with
        | .next => runFrom s backup p limit (place + 1)
        | .goto target => runFrom s backup p limit target
        | step => return (step, limit)

-- Runs cycles until the input ends, with at most so many commands in all.
def runCycles (s : Settings) (backup : Option String) (p : Program) :
    Nat → Bool → EditM m Nat
  | 0, _ => return 1
  | limit + 1, reads => do
    let isReady ← if reads then readLine s backup false else pure true
    if !isReady then return (← get).status
    let (step, left) ← runFrom s backup p limit 0
    let finish (prints : Bool) : EditM m Unit := do
      if prints && !s.quiet then printSpace s "" (← get).pattern
      printAppended s
    match step with
    | .endCycle prints =>
      finish prints
      runCycles s backup p (min left limit) true
    | .again =>
      finish false
      runCycles s backup p (min left limit) false
    | .quit prints status =>
      if prints then
        finish true
        endLine s ""
      if s.inPlace && (← get).name != "-" then finishFile backup
      return status
    | .failed text status =>
      inShell (complain "sed" ("-e expression #1, char 0: " ++ text))
      return status
    | _ => return 0
termination_by limit => limit

-- How many commands are run at most.
def maxSteps : Nat := 1000000

def outputFiles (cs : List Command) : List String :=
  cs.filterMap fun c =>
    match c.action with
    | .writeFile path => some path
    | .writeFirst path => some path
    | .substitute sub => sub.file
    | _ => none

def specs : List OptionSpec := [
  flag "n" "quiet", flag "n" "silent", valued "e" "expression", valued "f" "file",
  ⟨"i", "in-place", .maybe⟩, flag "E" "regexp-extended", flag "r" "", flag "s" "separate",
  flag "z" "null-data", flag "u" "unbuffered", valued "l" "line-length", flag "posix" "posix",
  flag "b" "binary", flag "sandbox" "sandbox", flag "follow" "follow-symlinks"]

def scriptParts : Given → ShellM m (Except String (List String))
  | [] => return .ok []
  | (key, value) :: rest => do
    let text := value.getD ""
    let more ← scriptParts rest
    if key == "e" then return more.map (text :: ·)
    else if key == "f" then
      match ← readInput text with
      | .ok script => return more.map (withoutEnd script :: ·)
      | .error fault => return .error ("couldn't open file " ++ text ++ ": " ++ fault.reason)
    else return more

def faultText (given : Given) (parts : List String) (f : ScriptFault) : String :=
  match given.filter fun (key, _) => key == "e" || key == "f" with
  | [("f", some path)] =>
    let before := ((parts.headD "").toList.take f.position).dropLast
    "file " ++ path ++ " line " ++ toString (before.count '\n' + 1) ++ ": " ++ f.reason
  | _ =>
    "-e expression #" ++ toString f.expression ++ ", char " ++ toString f.position ++ ": " ++
      f.reason

end

end Sed

section

variable {m : Type → Type} [Monad m]

open Shell Sed

def sed : Shell.Action m := fun words => withOptions "sed" specs 1 words fun given operands => do
  let hasScript := given.has "e" || given.has "f"
  if !hasScript && operands.isEmpty then
    putError "Usage: sed [OPTION]... \x7bscript-only-if-no-other-script\x7d [input-file]...\n"
    return 1
  let given' := if hasScript then given else [("e", operands.head?)] ++ given
  let inputs := if hasScript then operands else operands.drop 1
  match ← scriptParts given' with
  | .error text =>
    complain "sed" text
    return 4
  | .ok parts =>
    let extended := given.has "E" || given.has "r"
    match readScript extended parts with
    | .error f =>
      complain "sed" (faultText given' parts f)
      return 1
    | .ok commands =>
      if let some name := missingLabel? commands then
        complain "sed" ("can't find label for jump to \x60" ++ name ++ "'")
        return 4
      let inPlace := given.has "i"
      if inPlace && inputs.isEmpty then
        complain "sed" "no input files"
        return 4
      let isQuiet := given.has "n" || (parts.headD "") == "#n" ||
        (parts.headD "").startsWith "#n\n"
      let width := ((given.value? "l").bind (·.toNat?)).getD 70
      let ranges := (commands.map fun c =>
        match c.first with
        | some (.line 0) => RangeState.inside none
        | _ => .outside).toArray
      let settings : Settings := ⟨isQuiet, if given.has "z" then '\x00' else '\n', inPlace,
        inPlace || given.has "s", width, ranges⟩
      for path in outputFiles commands do
        if !path.startsWith "/dev/" then
          let _ ← onHost (·.writeBytes (← fullPath path) "")
      let start : Editing := ⟨⟨[], true⟩, ⟨[], true⟩, 0, "-", [], inputsOf inputs, ranges,
        false, none, [], [], [], [], 0⟩
      let backup := if inPlace then some ((given.value? "i").getD "") else none
      let (status, _) ← (runCycles settings backup (.ofCommands commands) maxSteps true).run start
      return status

end

end Classwright.Tool
