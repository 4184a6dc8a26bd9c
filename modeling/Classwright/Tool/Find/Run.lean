import Classwright.Tool.Find.Search
import Classwright.Tool.Files

namespace Classwright.Tool.Find

open Shell Text

structure Progress where
  status : Nat
  stopped : Bool
  pruned : Bool
  collected : List (Nat × List String)

structure Found where
  path : String
  root : String
  depth : Nat
  entry : Entry
  kind : Option FileKind
  size : Nat
  executable : Bool
  isEmptyDirectory : Bool

namespace Found

def isDirectory (f : Found) : Bool := f.entry == .kind .directory

def letter (f : Found) : Char :=
  match f.entry with
  | .link _ => 'l'
  | .kind .directory => 'd'
  | .kind .file => 'f'

def mode (f : Found) : Nat :=
  match f.entry with
  | .link _ => 0o777
  | .kind .directory => 0o755
  | .kind .file => if f.executable then 0o755 else 0o644

def name (f : Found) : String := lastName f.path

def relative (f : Found) : String :=
  .ofList ((f.path.toList.drop f.root.length).dropWhile (· == '/'))

def target (f : Found) : String :=
  match f.entry with
  | .link target => target
  | _ => ""

end Found

def lowered (ignoresCase : Bool) (text : String) : List Char :=
  if ignoresCase then text.toList.map Char.toLower else text.toList

def loweredPattern (ignoresCase : Bool) (pattern : List Wildcard) : List Wildcard :=
  if ignoresCase then
    pattern.map fun
      | .byte c => .byte c.toLower
      | part => part
  else pattern

def modeLetters (f : Found) : String :=
  let kind := if f.letter == 'f' then '-' else f.letter
  let part (shift : Nat) : List Char :=
    let bits := f.mode >>> shift
    [if bits &&& 4 != 0 then 'r' else '-', if bits &&& 2 != 0 then 'w' else '-',
      if bits &&& 1 != 0 then 'x' else '-']
  .ofList (kind :: part 6 ++ part 3 ++ part 0)

def directive? (f : Found) (c : Char) : Option String :=
  match c with
  | 'p' => some f.path
  | 'f' => some f.name
  | 'h' =>
    let trimmed := Path.trimSlashes f.path
    some (if trimmed.toList.contains '/' then directoryOf trimmed else ".")
  | 'P' => some f.relative
  | 'H' => some f.root
  | 's' => some (toString f.size)
  | 'd' => some (toString f.depth)
  | 'y' => some (.singleton f.letter)
  | 'Y' => some (match f.kind with
    | some .directory => "d"
    | some .file => "f"
    | none => "N")
  | 'l' => some f.target
  | 'm' => some (.ofList (Nat.toDigits 8 f.mode))
  | 'M' => some (modeLetters f)
  | 'u' => some "root"
  | 'g' => some "root"
  | 'U' => some "0"
  | 'G' => some "0"
  | 'n' => some (if f.isDirectory then "2" else "1")
  | 'b' => some (toString ((f.size + 4095) / 4096 * 8))
  | 'k' => some (toString ((f.size + 4095) / 4096 * 4))
  | _ => none

def fielded (flags : List Char) (text : String) : String :=
  let width := (digitsValue? 10 (flags.dropWhile (!·.isDigit))).getD 0
  if flags.contains '-' then padRight width text else padLeft width text

def formatted (f : Found) : Nat → List Char → String × List String
  | 0, _ => ("", [])
  | limit + 1, cs =>
    let append (text : String) (faults : List String) (rest : List Char) : String × List String :=
      let (more, others) := formatted f limit rest
      (text ++ more, faults ++ others)
    match cs with
    | [] => ("", [])
    | '%' :: '%' :: rest => append "%" [] rest
    | '%' :: cs =>
      let flags := cs.takeWhile fun c => c.isDigit || c == '-' || c == '+' || c == ' ' || c == '#'
      match cs.drop flags.length with
      | [] => ("%", [])
      | c :: rest =>
        match directive? f c with
        | some text => append (fielded flags text) [] rest
        | none =>
          append (.ofList ('%' :: flags ++ [c]))
            ["unrecognized format directive \x60%" ++ .singleton c ++ "'"] rest
    | '\\' :: cs =>
      let digits := (cs.take 3).takeWhile fun c => '0' ≤ c && c ≤ '7'
      match digitsValue? 8 digits, cs with
      | some n, _ => append (.singleton (.ofNat (n % 256))) [] (cs.drop digits.length)
      | none, 'c' :: _ => ("", [])
      | none, c :: rest =>
        let escapes := [('a', '\x07'), ('b', '\x08'), ('f', '\x0c'), ('n', '\n'), ('r', '\r'),
          ('t', '\t'), ('v', '\x0b'), ('\\', '\\')]
        match escapes.lookup c with
        | some byte => append (.singleton byte) [] rest
        | none =>
          append (.ofList ['\\', c]) ["unrecognized escape \x60\\" ++ .singleton c ++ "'"] rest
      | none, [] => ("\\", [])
    | c :: rest => append (.singleton c) [] rest

-- The names in a path but for those that stand for the place itself.
def plainNames (path : String) : List String :=
  (Path.names path).filter fun name => name != "" && name != "."

def Test.holds (follows : Bool) (f : Found) : Test → Bool
  | .constant value => value
  | .name pattern ignoresCase =>
    Wildcard.isMatch (loweredPattern ignoresCase pattern) (lowered ignoresCase f.name)
  | .path pattern ignoresCase =>
    Wildcard.isMatch (loweredPattern ignoresCase pattern) (lowered ignoresCase f.path)
  | .regex r ignoresCase =>
    let r := Regex.both .start (.both r .finish)
    (Regex.matchAt ⟨ignoresCase, false⟩ r (.ofText f.path.toList)).isSome
  | .type letters through =>
    let letter := if through && !follows then
      match f.kind with
      | some .directory => 'd'
      | some .file => 'f'
      | none => 'l'
      else f.letter
    letters.contains letter
  | .size b unit => b.holds ((f.size + unit - 1) / unit)
  | .empty => if f.isDirectory then f.isEmptyDirectory else f.letter == 'f' && f.size == 0
  | .mode .exactly bits => f.mode == bits
  | .mode .all bits => f.mode &&& bits == bits
  | .mode .any bits => bits == 0 || f.mode &&& bits != 0
  | .executable => f.executable || f.kind == some .directory
  | .links b => b.holds (if f.isDirectory then 2 else 1)
  | .target pattern => f.letter == 'l' && Wildcard.isMatch pattern f.target.toList
  | .sameFile other => plainNames other == plainNames f.path

section

variable {m : Type → Type} [Monad m]

abbrev FindM (m : Type → Type) := StateT Progress (ShellM m)

def lifted {α : Type} (action : ShellM m α) : FindM m α := StateT.lift action

def failing : FindM m Unit := modify fun p => { p with status := 1 }

-- Runs a program for a file; tells whether it did well.
def runProgram (e : Engine m) (words : List String) : ShellM m Bool := do
  withDirectories
  match ← e.program words with
  | .ok status => return status == 0
  | .error refusal =>
    let reason := match refusal with
      | .notFound => FileFault.notFound.reason
      | .denied => refusal.reason
    complain "find" (quoted (words.headD "") ++ ": " ++ reason)
    return false

def Action.perform (e : Engine m) (f : Found) (a : Action) : FindM m Bool := do
  match a with
  | .print =>
    lifted (put (f.path ++ "\n"))
    return true
  | .printNull =>
    lifted (put (f.path ++ "\x00"))
    return true
  | .printFormat format =>
    lifted (put (formatted f (format.length + 1) format.toList).1)
    return true
  | .run words fromDirectory asks =>
    let name := if fromDirectory then "./" ++ f.name else f.path
    let words := words.map (replaceText "\x7b\x7d" name)
    if asks then
      lifted (putError ("< " ++ words.headD "" ++ " ... " ++ f.path ++ " > ? "))
      return false
    else if fromDirectory then
      lifted (restoring do
        let place ← fullPath (if f.depth == 0 && f.isDirectory then f.path else directoryOf f.path)
        modifyFrame fun frame => { frame with directory := place }
        runProgram e words)
    else lifted (runProgram e words)
  | .runForAll number _ =>
    modify fun p =>
      let paths := (p.collected.lookup number).getD []
      { p with collected := setEntry number (f.path :: paths) p.collected }
    return true
  | .delete =>
    if f.path == "." then return true
    match ← lifted (attempt (·.remove) f.path) with
    | .ok () => return true
    | .error fault =>
      lifted (complain "find" ("cannot delete " ++ quoted f.path ++ ": " ++ fault.reason))
      failing
      return false
  | .prune =>
    modify fun p => { p with pruned := true }
    return true
  | .quit =>
    modify fun p => { p with stopped := true }
    return true
where
  setEntry (number : Nat) (paths : List String) (entries : List (Nat × List String)) :
      List (Nat × List String) :=
    (number, paths) :: entries.filter (·.1 != number)

-- Does what an expression says about a file; tells whether it holds for it.
def Expr.perform (e : Engine m) (follows : Bool) (f : Found) : Expr → FindM m Bool
  | .test t => return t.holds follows f
  | .action a => do if (← get).stopped then return false else a.perform e f
  | .not x => return !(← x.perform e follows f)
  | .and a b => do if ← a.perform e follows f then b.perform e follows f else return false
  | .or a b => do if ← a.perform e follows f then return true else b.perform e follows f
  | .sequence a b => do
    let _ ← a.perform e follows f
    b.perform e follows f

def meet? (follows : Bool) (root path : String) (depth : Nat) : ShellM m (Option Found) := do
  let kind ← kindOf? path
  let occupied? ← occupant? path
  let occupied? := if follows then (kind.map Entry.kind).orElse fun _ => occupied? else occupied?
  match occupied? with
  | none => return none
  | some entry =>
    let size ←
      match entry with
      | .link target => pure target.length
      | .kind .directory => pure 4096
      | .kind .file => do pure (((← readInput path).toOption).getD "").length
    let executable ← onHost (·.isExecutable (← fullPath path))
    let isEmpty := entry == .kind .directory && (← entriesOf path).isEmpty
    return some ⟨path, root, depth, entry, kind, size, executable, isEmpty⟩

def walk (e : Engine m) (plan : Plan) (x : Expr) (root : String) :
    Nat → Nat → String → FindM m Unit
  | 0, _, _ => return
  | limit + 1, depth, path => do
    if (← get).stopped then return
    let follows := plan.follows || (depth == 0 && (plan.followsRoots || path.endsWith "/"))
    match ← lifted (meet? follows root path depth) with
    | none => return
    | some f =>
      let visit : FindM m Unit := do
        if plan.least ≤ depth then
          let _ ← x.perform e plan.follows f
      let below : FindM m Unit := do
        if f.isDirectory && plan.most.all (depth < ·) then
          for name in ← lifted (entriesOf path) do
            walk e plan x root limit (depth + 1) (inside path name)
      if plan.depthFirst then
        below
        if !(← get).stopped then visit
      else
        modify fun p => { p with pruned := false }
        visit
        if !(← get).pruned then below

def batches : Expr → List (Nat × List String)
  | .test _ => []
  | .action (.runForAll number words) => [(number, words)]
  | .action _ => []
  | .not x => batches x
  | .and a b => batches a ++ batches b
  | .or a b => batches a ++ batches b
  | .sequence a b => batches a ++ batches b

def formats : Expr → List String
  | .test _ => []
  | .action (.printFormat format) => [format]
  | .action _ => []
  | .not x => formats x
  | .and a b => formats a ++ formats b
  | .or a b => formats a ++ formats b
  | .sequence a b => formats a ++ formats b

def namedPaths : List String → List String
  | "-newer" :: path :: rest => path :: namedPaths rest
  | "-samefile" :: path :: rest => path :: namedPaths rest
  | _ :: rest => namedPaths rest
  | [] => []

def splitWords (words : List String) : List String × List String :=
  let isPath (word : String) : Bool :=
    !((word.startsWith "-" && word != "-") || word == "(" || word == "!")
  (words.takeWhile isPath, words.dropWhile isPath)

-- A file that only messages about formats need.
def anyFile : Found := ⟨".", ".", 0, .kind .directory, some .directory, 0, true, false⟩

end

end Find

section

variable {m : Type → Type} [Monad m]

open Shell Find

def find (e : Engine m) : Shell.Action m := fun words => do
  let isLeading (word : String) : Bool :=
    ["-H", "-L", "-P", "-O0", "-O1", "-O2", "-O3"].contains word
  let leading := words.takeWhile isLeading
  let words := words.drop leading.length
  let words := if words.head? == some "--" then words.drop 1 else words
  let follows := (leading.filter fun word => word == "-L" || word == "-P").getLast? == some "-L"
  let (paths, rest) := splitWords words
  if rest.head? == some "-help" || rest.head? == some "--help" then return 0
  match readExpr follows rest with
  | .error (.text text) =>
    complain "find" text
    return 1
  | .error (.stray word behind) =>
    complain "find" ("paths must precede expression: \x60" ++ word ++ "'")
    if (← occupant? word).isSome then
      complain "find" ("possible unquoted pattern after predicate \x60" ++ behind ++ "'?")
    return 1
  | .ok (x, plan) =>
    for path in namedPaths rest do
      if (← occupant? path).isNone then
        complain "find" (quoted path ++ ": " ++ (← absence path).reason)
        return 1
    for format in formats x do
      for fault in (formatted anyFile (format.length + 1) format.toList).2 do
        complain "find" ("warning: " ++ fault)
    let x := if x.acts then x else .and x (.action .print)
    let search : FindM m Unit := do
      for path in if paths.isEmpty then ["."] else paths do
        if (← lifted (occupant? path)).isNone then
          lifted (complain "find" (quoted path ++ ": " ++ (← lifted (absence path)).reason))
          failing
        else walk e { plan with followsRoots := leading.contains "-H" } x path maxWalk 0 path
      for (number, words) in batches x do
        let paths := (((← get).collected.lookup number).getD []).reverse
        if !paths.isEmpty then
          if !(← lifted (runProgram e (words.dropLast ++ paths))) then failing
    let (_, progress) ← search.run ⟨0, false, false, []⟩
    return progress.status

end

end Classwright.Tool
