import Classwright.Number.Power
import Classwright.Shell.Program
import Classwright.Tool.Basic

namespace Classwright.Tool

open Shell

def lastName (path : String) : String :=
  if path == "" then ""
  else
    let trimmed := Path.trimSlashes path
    if trimmed == "" then "/" else (splitPath trimmed).2

def directoryOf (path : String) : String :=
  let trimmed := Path.trimSlashes path
  if trimmed == "" then if path == "" then "." else "/"
  else if !trimmed.toList.contains '/' then "."
  else
    let cs := trimmed.toList.reverse.dropWhile (· != '/')
    let directory := String.ofList (cs.dropWhile (· == '/')).reverse
    if directory == "" then "/" else directory

section

variable {m : Type → Type} [Monad m]

def basename : Action m := fun words =>
  let specs := [flag "a" "multiple", valued "s" "suffix", flag "z" "zero"]
  match readOptions (flag "help" "help" :: flag "version" "version" :: specs) false
      (words.length + 1) words with
  | .error text => misuse "basename" text 1
  | .ok (given, operands) => do
    let strip (suffix name : String) : String :=
      let name := lastName name
      if suffix != "" && name.endsWith suffix && name != suffix then
        .ofList (name.toList.take (name.length - suffix.length))
      else name
    if given.has "a" || given.has "s" then
      if operands.isEmpty then misuse "basename" "missing operand" 1
      else
        for name in operands do put (strip ((given.value? "s").getD "") name ++ "\n")
        return 0
    else match operands with
      | [] => misuse "basename" "missing operand" 1
      | [name] =>
        put (lastName name ++ "\n")
        return 0
      | [name, suffix] =>
        put (strip suffix name ++ "\n")
        return 0
      | _ :: _ :: extra :: _ => misuse "basename" ("extra operand " ++ quoted extra) 1

def dirname : Action m := fun words => withOptions "dirname" [flag "z" "zero"] 1 words
  fun _ operands => do
    if operands.isEmpty then misuse "dirname" "missing operand" 1
    else
      for name in operands do put (directoryOf name ++ "\n")
      return 0

def readDecimal? (text : String) : Option (Int × Nat) :=
  let (negative, cs) :=
    match text.toList with
    | '-' :: rest => (true, rest)
    | '+' :: rest => (false, rest)
    | cs => (false, cs)
  let whole := cs.takeWhile Char.isDigit
  let rest := cs.drop whole.length
  let places := match rest with
    | '.' :: behind => behind
    | _ => []
  let isDecimal := places.all Char.isDigit && !(whole ++ places).isEmpty &&
    (rest.isEmpty || rest.head? == some '.')
  if isDecimal then
    let n : Int := (digitsValue? 10 (whole ++ places)).getD 0
    some (if negative then -n else n, places.length)
  else none

def decimalText (units : Int) (places : Nat) : String :=
  (if units < 0 then "-" else "") ++ Fraction.pointed units.natAbs places false

def steps (last step : Int) : Nat → Int → List Int
  | 0, _ => []
  | limit + 1, n =>
    if (0 < step && last < n) || (step < 0 && n < last) then []
    else n :: steps last step limit (n + step)

-- How many numbers are shown at most where they have no end.
def maxNumbers : Nat := 100000

def seq : Action m := fun words =>
  let specs := [valued "s" "separator", flag "w" "equal-width", valued "f" "format"]
  let isNumber (word : String) : Bool := (readDecimal? word).isSome
  match readOptions (flag "help" "help" :: flag "version" "version" :: specs) false
      (words.length + 2) (guarded isNumber words) with
  | .error text => misuse "seq" text 1
  | .ok (given, operands) => do
    match operands, operands.find? (!isNumber ·) with
    | [], _ => misuse "seq" "missing operand" 1
    | _ :: _ :: _ :: extra :: _, _ => misuse "seq" ("extra operand " ++ quoted extra) 1
    | _, some word => misuse "seq" ("invalid floating point argument: " ++ quoted word) 1
    | operands, none =>
      let numbers := operands.filterMap readDecimal?
      let ((first, firstPlaces), (step, stepPlaces), (last, lastPlaces)) :=
        match numbers with
        | [last] => ((1, 0), (1, 0), last)
        | [first, last] => (first, (1, 0), last)
        | [first, step, last] => (first, step, last)
        | _ => ((1, 0), (1, 0), (0, 0))
      let places := max firstPlaces stepPlaces
      let scale := max places lastPlaces
      let scaled (n : Int) (p : Nat) : Int := n * tenTo (scale - p)
      if step == 0 then
        misuse "seq" ("invalid Zero increment value: " ++ quoted ((operands[1]?).getD "")) 1
      else
        let ns := steps (scaled last lastPlaces) (scaled step stepPlaces) maxNumbers
          (scaled first firstPlaces)
        let text (n : Int) : String :=
          let unit : Int := tenTo (scale - places)
          decimalText (n / unit) places
        let texts := ns.map text
        let width := ((texts.map String.length).foldl max 0)
        let padded (text : String) : String :=
          let zeros := String.ofList (List.replicate (width - text.length) '0')
          match text.toList with
          | '-' :: digits => "-" ++ zeros ++ .ofList digits
          | _ => zeros ++ text
        let shown ←
          match given.value? "f" with
          | some format => texts.mapM fun text => formatted format text
          | none => pure (if given.has "w" then texts.map padded else texts)
        if !shown.isEmpty then
          put (((given.value? "s").getD "\n").intercalate shown ++ "\n")
        return 0
where
  guarded (isNumber : String → Bool) : List String → List String
    | [] => []
    | [word] => if word.startsWith "-" && isNumber word then ["--", word] else [word]
    | word :: next :: rest =>
      if word == "-s" || word == "-f" then word :: next :: guarded isNumber rest
      else if !word.startsWith "-" then word :: next :: rest
      else if isNumber word then "--" :: word :: next :: rest
      else word :: guarded isNumber (next :: rest)
  formatted (format text : String) : ShellM m String := do
    let (_, p) ← (Print.once (format.length + 1) format.toList).run ⟨[text], false, 0, []⟩
    return String.join p.output.reverse

def printenv : Action m := fun words => do
  let known ← environment
  let names := words.filter (!·.startsWith "-")
  if names.isEmpty then
    for (name, value) in known do put (name ++ "=" ++ value ++ "\n")
    return 0
  else
    let mut status := 0
    for name in names do
      match known.lookup name with
      | some value => put (value ++ "\n")
      | none => status := 1
    return status

def withDirectories : ShellM m Unit := do
  if (← value? "PATH").isNone then
    restoreVariable "PATH" (some ⟨some "/bin:/usr/bin", false, false⟩)

def runFor (e : Engine m) (program words' : String) (words : List String) : ShellM m Nat := do
  withDirectories
  match ← e.program words with
  | .ok status => return status
  | .error refusal =>
    let reason := match refusal with
      | .notFound => FileFault.notFound.reason
      | .denied => refusal.reason
    complain program (words' ++ quoted (words.headD "") ++ ": " ++ reason)
    return refusal.status

def env (e : Engine m) : Action m := fun words =>
  let specs := [flag "i" "ignore-environment", valued "u" "unset", flag "0" "null",
    valued "C" "chdir", valued "S" "split-string"]
  match readOptions (flag "help" "help" :: flag "version" "version" :: specs) false
      (words.length + 1) words with
  | .error text => misuse "env" text 125
  | .ok (given, operands) => do
    let ignores := given.has "i" || operands.head? == some "-"
    let operands := if operands.head? == some "-" then operands.drop 1 else operands
    let operands := ((given.value? "S").map (Text.splitOn ' ')).getD [] ++ operands
    if ignores then modifyFrame fun f => { f with bindings := [] }
    for name in given.values "u" do restoreVariable name none
    let assignments := operands.takeWhile (·.toList.contains '=')
    for text in assignments do
      let (name, value) := Builtin.splitAssignment text
      restoreVariable name (some ⟨value, true, false⟩)
    if let some directory := given.value? "C" then
      let path ← fullPath directory
      modifyFrame fun f => { f with directory := path }
    match operands.drop assignments.length with
    | [] =>
      let ending := if given.has "0" then "\x00" else "\n"
      for (name, value) in (← environment).reverse do put (name ++ "=" ++ value ++ ending)
      return 0
    | words => runFor e "env" "" words

def nice (e : Engine m) : Action m := fun words =>
  match readOptions [valued "n" "adjustment"] false (words.length + 1) words with
  | .error text => misuse "nice" text 125
  | .ok (_, []) => do
    put "0\n"
    return 0
  | .ok (_, operands) => runFor e "nice" "" operands

def nohup (e : Engine m) : Action m := fun words =>
  match readOptions [] false (words.length + 1) words with
  | .error text => misuse "nohup" text 125
  | .ok (_, []) => misuse "nohup" "missing operand" 125
  | .ok (_, operands) => runFor e "nohup" "failed to run command " operands

def isDuration (text : String) : Bool :=
  let cs := text.toList
  let number := match cs.getLast? with
    | some c => if "smhd".toList.contains c then cs.dropLast else cs
    | none => cs
  (readDecimal? (.ofList number)).any (0 ≤ ·.1)

def timeout (e : Engine m) : Action m := fun words =>
  let specs := [valued "k" "kill-after", valued "s" "signal", flag "v" "verbose",
    flag "foreground" "foreground", flag "preserve-status" "preserve-status"]
  match readOptions specs false (words.length + 1) words with
  | .error text => misuse "timeout" text 125
  | .ok (_, duration :: program :: arguments) =>
    if isDuration duration then
      runFor e "timeout" "failed to run command " (program :: arguments)
    else misuse "timeout" ("invalid time interval " ++ quoted duration) 125
  | .ok _ => do
    hint "timeout"
    return 125

def sleep : Action m := fun words => withOptions "sleep" [] 1 words fun _ operands => do
  if operands.isEmpty then misuse "sleep" "missing operand" 1
  else
    match operands.filter (!isDuration ·) with
    | [] => return 0
    | wrong =>
      for word in wrong do complain "sleep" ("invalid time interval " ++ quoted word)
      hint "sleep"
      return 1

def which (isTool : String → Bool) : Action m := fun words => do
  let names := words.filter (!·.startsWith "-")
  let mut status := if names.isEmpty then 1 else 0
  for name in names do
    match ← findProgram isTool name with
    | .ok (.tool tool) =>
      put ((if name.toList.contains '/' then name else "/usr/bin/" ++ tool) ++ "\n")
    | .ok (.script path) => put (path ++ "\n")
    | .error _ => status := 1
  return status

-- Prints its arguments; backslashes mean something only if an option says so.
def echo : Action m := fun words => do
  let isOption (word : String) : Bool :=
    match word.toList with
    | '-' :: letters => !letters.isEmpty && letters.all "neE".toList.contains
    | _ => false
  let options := words.takeWhile isOption
  let letters := options.flatMap fun word => word.toList.drop 1
  let text := " ".intercalate (words.drop options.length)
  let escapes := (letters.reverse.find? fun c => c == 'e' || c == 'E') == some 'e'
  let (text, ended) := if escapes then unescaped text else (text, false)
  put (text ++ if letters.contains 'n' || ended then "" else "\n")
  return 0

def yes : Action m := fun words => do
  let line := (if words.isEmpty then "y" else " ".intercalate words) ++ "\n"
  put (String.join (List.replicate 10000 line))
  return 0

-- Reads words, of which quotes and backslashes may hold blanks; a fault ends them.
def inputWords : Nat → Option (List Char) → List Char → List String × Option String
  | 0, _, _ => ([], none)
  | limit + 1, word, cs =>
    let add (c : List Char) : Option (List Char) := some (c.reverse ++ word.getD [])
    match cs with
    | [] => (word.toList.map fun w => .ofList w.reverse, none)
    | '\\' :: c :: rest => inputWords limit (add [c]) rest
    | c :: rest =>
      if c == '\'' || c == '"' then
        let text := rest.takeWhile (· != c)
        match rest.drop text.length with
        | [] => unmatched c
        | _ :: behind =>
          if text.contains '\n' then unmatched c else inputWords limit (add text) behind
      else if Text.ByteClass.isSpace c then
        let (more, fault) := inputWords limit none rest
        ((word.toList.map fun w => .ofList w.reverse) ++ more, fault)
      else inputWords limit (add [c]) rest
where
  unmatched (c : Char) : List String × Option String :=
    ([], some ("unmatched " ++ (if c == '"' then "double" else "single") ++
      " quote; by default quotes are special to xargs unless you use the -0 option"))

def chunks {α : Type} (size : Nat) : Nat → List α → List (List α)
  | 0, _ => []
  | limit + 1, xs => if xs.isEmpty then [] else xs.take size :: chunks size limit (xs.drop size)

def replaceText (mark replacement text : String) : String :=
  if mark == "" then text else replacement.intercalate (text.splitOn mark)

def runEach (e : Engine m) (trace : Bool) : List (List String) → ShellM m Nat
  | [] => return 0
  | words :: rest => do
    if trace then putError (" ".intercalate words ++ "\n")
    withDirectories
    match ← e.program words with
    | .error refusal =>
      let reason := match refusal with
        | .notFound => FileFault.notFound.reason
        | .denied => refusal.reason
      complain "xargs" (words.headD "" ++ ": " ++ reason)
      return refusal.status
    | .ok 255 =>
      complain "xargs" (words.headD "" ++ ": exited with status 255; aborting")
      return 124
    | .ok status =>
      let others ← runEach e trace rest
      return if status == 0 || 123 < others then others else 123

def xargs (e : Engine m) : Action m := fun words =>
  let specs := [flag "0" "null", valued "a" "arg-file", valued "d" "delimiter", valued "I" "",
    valued "n" "max-args", valued "L" "max-lines", flag "r" "no-run-if-empty", flag "t" "verbose",
    valued "P" "max-procs", valued "s" "max-chars", flag "x" "exit", flag "p" "interactive",
    ⟨"i", "replace", .maybe⟩, valued "E" ""]
  match readOptions (flag "help" "help" :: flag "version" "version" :: specs) false
      (words.length + 1) words with
  | .error text => misuse "xargs" text 1
  | .ok (given, operands) => do
    let input ← match given.value? "a" with
      | some path => do
        match ← readInput path with
        | .ok text => pure text
        | .error _ => pure ""
      | none => readAll 0
    let mark? := if given.has "i" then some ((given.value? "i").getD "\x7b\x7d")
      else given.value? "I"
    let pieces (c : Char) : List String :=
      match (Text.splitOn c input).reverse with
      | "" :: rest => rest.reverse
      | all => all.reverse
    let (items, fault) : List String × Option String :=
      if given.has "0" then (pieces '\x00', none)
      else match given.value? "d" with
        | some d => (pieces (((Shell.unescaped d).1.toList).headD '\n'), none)
        | none =>
          if mark?.isSome || given.has "L" then
            (((linesOf input).map fun line =>
              .ofList (line.toList.dropWhile Text.ByteClass.isBlank)).filter (· != ""), none)
          else inputWords (input.length + 1) none input.toList
    let command := if operands.isEmpty then ["echo"] else operands
    let trace := given.has "t"
    if let some text := fault then complain "xargs" text
    let status ←
      match mark? with
      | some mark =>
        runEach e trace (items.map fun item => command.map (replaceText mark item))
      | none =>
        let items :=
          if given.has "L" then items.map fun line => (Text.splitOn ' ' line).filter (· != "")
          else items.map fun item => [item]
        let size := (((given.value? "n").orElse fun _ => given.value? "L").bind
          (·.toNat?)).getD 5000
        let groups := chunks (max size 1) (items.length + 1) items
        let runsAnyway := items.isEmpty && !given.has "r" && fault.isNone
        let groups := if runsAnyway then [[]] else groups
        runEach e trace (groups.map fun group => command ++ group.flatten)
    return if fault.isSome then 1 else status

end

end Classwright.Tool
