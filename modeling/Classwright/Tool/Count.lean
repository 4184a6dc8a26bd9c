import Classwright.Tool.Show

namespace Classwright.Tool

open Shell

structure Counts where
  lines : Nat
  words : Nat
  chars : Nat
  bytes : Nat
  width : Nat

namespace Counts

def zero : Counts := ⟨0, 0, 0, 0, 0⟩

def add (a b : Counts) : Counts :=
  ⟨a.lines + b.lines, a.words + b.words, a.chars + b.chars, a.bytes + b.bytes, max a.width b.width⟩

def wordsIn : Bool → List Char → Nat
  | inWord, [] => if inWord then 1 else 0
  | inWord, c :: rest =>
    if Text.ByteClass.isSpace c then (if inWord then 1 else 0) + wordsIn false rest
    else wordsIn (inWord || isPrintable c) rest

def widthOf (line : String) : Nat :=
  line.toList.foldl (fun column c =>
    if c == '\t' then column + 8 - column % 8
    else if isPrintable c then column + 1
    else column) 0

def ofText (text : String) : Counts where
  lines := text.toList.countP (· == '\n')
  words := wordsIn false text.toList
  chars := text.length
  bytes := text.length
  width := ((linesOf text).map widthOf).foldl max 0

def row (keys : List String) (width : Nat) (c : Counts) : String :=
  let all := [("l", c.lines), ("w", c.words), ("m", c.chars), ("c", c.bytes), ("L", c.width)]
  " ".intercalate ((all.filter fun (key, _) => keys.contains key).map fun (_, n) =>
    padLeft width (toString n))

end Counts

inductive SetPart where
  | bytes (cs : List Char)
  | cls (name : String)
  | fill (c : Char)

def classMembers (name : String) : Option (List Char) :=
  (Text.ByteClass.named? name).map fun p => ((List.range 256).map Char.ofNat).filter p

def readSetEscape (cs : List Char) : Char × List Char :=
  match cs with
  | [] => ('\\', [])
  | c :: rest =>
    if isOctal c then
      let (digits, rest) := takeOctal 3 cs
      (octalByte digits, rest)
    else ((letterEscapes.lookup c).getD c, rest)

def readSetByte : List Char → Option (Char × List Char)
  | '\\' :: rest => some (readSetEscape rest)
  | c :: rest => some (c, rest)
  | [] => none

def readRepetition (cs : List Char) : Option (SetPart × List Char) := do
  let (c, rest) ← readSetByte cs
  match rest with
  | '*' :: rest =>
    let digits := rest.takeWhile Char.isDigit
    match rest.drop digits.length with
    | ']' :: rest =>
      let base := if digits.head? == some '0' then 8 else 10
      let n := (digitsValue? base digits).getD 0
      some (if n == 0 then .fill c else .bytes (List.replicate n c), rest)
    | _ => none
  | _ => none

-- Reads a set, at most `limit` parts of it.
def readSet : Nat → List Char → Except String (List SetPart)
  | 0, _ => .ok []
  | limit + 1, cs =>
    match cs with
    | [] => .ok []
    | '[' :: ':' :: rest =>
      let name := rest.takeWhile (· != ':')
      match rest.drop name.length with
      | ':' :: ']' :: behind =>
        if (classMembers (.ofList name)).isSome then do
          return .cls (.ofList name) :: (← readSet limit behind)
        else .error ("invalid character class " ++ literal (.ofList name))
      | _ => bytes limit ('[' :: ':' :: rest)
    | '[' :: '=' :: c :: '=' :: ']' :: rest => do return .bytes [c] :: (← readSet limit rest)
    | '[' :: rest =>
      match readRepetition rest with
      | some (part, rest) => do return part :: (← readSet limit rest)
      | none => bytes limit ('[' :: rest)
    | cs => bytes limit cs
where
  bytes (limit : Nat) (cs : List Char) : Except String (List SetPart) := do
    match readSetByte cs with
    | none => return []
    | some (first, '-' :: rest) =>
      match readSetByte rest with
      | some (last, rest) =>
        if last < first then
          .error ("range-endpoints of " ++ literal (.ofList [first, '-', last]) ++
            " are in reverse collating sequence order")
        else
          let row := (List.range (last.toNat - first.toNat + 1)).map fun i =>
            Char.ofNat (first.toNat + i)
          return .bytes row :: (← readSet limit rest)
      | none => return [.bytes [first, '-']]
    | some (c, rest) => return .bytes [c] :: (← readSet limit rest)

-- The bytes of a set; parts that fill it up do so to a length.
def setBytes (length : Nat) (parts : List SetPart) : List Char :=
  let fixed := parts.map fun
    | .bytes cs => cs
    | .cls name => (classMembers name).getD []
    | .fill _ => []
  let missing := length - fixed.flatten.length
  (parts.flatMap fun
    | .bytes cs => cs
    | .cls name => (classMembers name).getD []
    | .fill c => List.replicate missing c)

def squeeze (p : Char → Bool) : List Char → List Char
  | a :: b :: rest =>
    if a == b && p a then squeeze p (b :: rest) else a :: squeeze p (b :: rest)
  | cs => cs

section

variable {m : Type → Type} [Monad m]

def isFileStream (descriptor : Nat) : ShellM m Bool := do
  match ← stream? descriptor with
  | none => return false
  | some id =>
    match (← get).streams[id]? with
    | some (.file ..) => return true
    | _ => return false

def wc : Action m := fun words =>
  let specs := [flag "l" "lines", flag "w" "words", flag "m" "chars", flag "c" "bytes",
    flag "L" "max-line-length"]
  withOptions "wc" specs 1 words fun given operands => do
    let keys := given.map (·.1)
    let keys := if keys.isEmpty then ["l", "w", "c"] else keys
    let inputs := inputsOf operands
    -- The width of the fields comes from the sizes of the files, before they are read.
    let mut size := 0
    let mut least := 1
    for path in inputs do
      if path == "-" && !(← isFileStream 0) then least := 7
      else if path == "-" then size := size + ((← unread 0).getD "").length
      else match ← kindOf? path with
        | some .directory => least := 7
        | some .file =>
          if path == "/dev/null" then least := 7
          else if let .ok text ← onHost (·.readBytes (← fullPath path)) then
            size := size + text.length
        | none => pure ()
    let isSingle := inputs.length == 1 && keys.eraseDups.length == 1
    let width := if isSingle then 1 else max least (toString size).length
    let mut total := Counts.zero
    let mut status := 0
    for path in inputs do
      let label := if operands.isEmpty then "" else " " ++ path
      match ← readInput path with
      | .ok text =>
        let counts := Counts.ofText text
        put (counts.row keys width ++ label ++ "\n")
        total := total.add counts
      | .error fault =>
        complainOf "wc" path fault
        status := 1
        if fault == .isDirectory then put (Counts.zero.row keys width ++ label ++ "\n")
    if 1 < inputs.length then put (total.row keys width ++ " total\n")
    return status

def trSpecs : List OptionSpec :=
  [flag "c" "complement", flag "C" "", flag "d" "delete", flag "s" "squeeze-repeats",
    flag "t" "truncate-set1"]

def replacements (first second : List Char) (truncates : Bool) : List (Char × Char) :=
  match second.getLast? with
  | none => []
  | some last =>
    let missing := first.length - second.length
    first.zip (if truncates then second else second ++ List.replicate missing last)

def tr : Action m := fun words =>
  -- Options stand only in front of the sets.
  match readOptions (flag "help" "help" :: flag "version" "version" :: trSpecs) false
      (words.length + 1) words with
  | .error text => misuse "tr" text 1
  | .ok (given, sets) => do
    let deletes := given.has "d"
    let squeezes := given.has "s"
    let stop (text : String) : ShellM m Nat := do
      complain "tr" text
      return 1
    let more (text explanation : String) : ShellM m Nat := do
      complain "tr" text
      if explanation != "" then putError (explanation ++ "\n")
      hint "tr"
      return 1
    let needed := if deletes == squeezes then 2 else 1
    let most := if deletes && !squeezes then 1 else 2
    if given.has "help" || given.has "version" then return 0
    else if sets.length < needed then
      match sets.getLast? with
      | none => more "missing operand" ""
      | some last =>
        more ("missing operand after " ++ quoted last)
          (if squeezes then "Two strings must be given when both deleting and squeezing repeats."
          else "Two strings must be given when translating.")
    else if most < sets.length then
      more ("extra operand " ++ quoted ((sets[most]?).getD ""))
        (if sets.length == 2 then "Only one string may be given when deleting without squeezing " ++
          "repeats." else "")
    else
      match sets.mapM fun set => readSet (set.length + 1) set.toList with
      | .error text => stop text
      | .ok parts =>
        let given1 := setBytes 0 (parts.headD [])
        let complement := given.has "c" || given.has "C"
        let first :=
          if complement then ((List.range 256).map Char.ofNat).filter (!given1.contains ·)
          else given1
        let second? := (parts[1]?).map (setBytes first.length)
        let translates := !deletes && second?.isSome
        if translates && second? == some [] && !given.has "t" then
          stop "when not truncating set1, string2 must be non-empty"
        else
          let text := (← readAll 0).toList
          let second := second?.getD []
          let pairs := replacements first second (given.has "t")
          let replaced :=
            if deletes then text.filter (!first.contains ·)
            else if translates then
              text.map fun c => ((pairs.reverse.find? (·.1 == c)).map (·.2)).getD c
            else text
          let squeezed := if second?.isSome then second else first
          put (.ofList (if squeezes then squeeze squeezed.contains replaced else replaced))
          return 0

end

end Classwright.Tool
