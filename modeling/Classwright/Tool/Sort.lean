import Classwright.Number.Power
import Classwright.Tool.Show

namespace Classwright.Tool

open Shell

structure Amount where
  units : Int
  places : Nat

namespace Amount

def compare (a b : Amount) : Ordering :=
  Ord.compare (a.units * tenTo b.places) (b.units * tenTo a.places)

-- The number at the start of a text, and what follows it; there may be none.
def read (cs : List Char) : Amount × List Char :=
  let cs := cs.dropWhile Text.ByteClass.isBlank
  let (negative, cs) :=
    match cs with
    | '-' :: rest => (true, rest)
    | cs => (false, cs)
  let whole := cs.takeWhile Char.isDigit
  let rest := cs.dropWhile Char.isDigit
  let (places, rest) :=
    match rest with
    | '.' :: behind => (behind.takeWhile Char.isDigit, behind.dropWhile Char.isDigit)
    | rest => ([], rest)
  let n : Int := (digitsValue? 10 (whole ++ places)).getD 0
  (⟨if negative then -n else n, places.length⟩, rest)

end Amount

def magnitudeRank (c : Option Char) : Nat :=
  match c with
  | some c => ("KMGTPEZY".toList.findIdx? (· == c.toUpper)).map (· + 1) |>.getD 0
  | none => 0

def compareHuman (a b : List Char) : Ordering :=
  let (x, restA) := Amount.read a
  let (y, restB) := Amount.read b
  let rank (n : Amount) (rest : List Char) : Int :=
    let r : Int := if n.units == 0 then 0 else magnitudeRank rest.head?
    if n.units < 0 then -r else r
  (compare x.units.sign y.units.sign).then ((compare (rank x restA) (rank y restB)).then
    (x.compare y))

def month (cs : List Char) : Nat :=
  let name := ((cs.dropWhile Text.ByteClass.isBlank).take 3).map Char.toUpper
  let months := ["JAN", "FEB", "MAR", "APR", "MAY", "JUN", "JUL", "AUG", "SEP", "OCT", "NOV", "DEC"]
  ((months.findIdx? (· == .ofList name)).map (· + 1)).getD 0

def versionRank (c : Option Char) : Int :=
  match c with
  | none => 0
  | some c =>
    if c.isDigit then 0
    else if c.isAlpha then c.toNat
    else if c == '~' then -1
    else c.toNat + 256

def compareVersions : Nat → List Char → List Char → Ordering
  | 0, _, _ => .eq
  | limit + 1, a, b =>
    if a.isEmpty && b.isEmpty then .eq
    else
      let isText (cs : List Char) : Bool := cs.head?.any (!·.isDigit)
      if isText a || isText b then
        match compare (versionRank a.head?) (versionRank b.head?) with
        | .eq => compareVersions limit (a.drop 1) (b.drop 1)
        | order => order
      else
        let number (cs : List Char) : Nat := (digitsValue? 10 (cs.takeWhile Char.isDigit)).getD 0
        match compare (number a) (number b) with
        | .eq => compareVersions limit (a.dropWhile Char.isDigit) (b.dropWhile Char.isDigit)
        | order => order

def compareBytes : List Char → List Char → Ordering
  | [], [] => .eq
  | [], _ :: _ => .lt
  | _ :: _, [] => .gt
  | a :: as, b :: bs => (compare a b).then (compareBytes as bs)

def compareBy (letters : List Char) (a b : List Char) : Ordering :=
  let order :=
    if letters.contains 'n' then (Amount.read a).1.compare (Amount.read b).1
    else if letters.contains 'g' then (Amount.read a).1.compare (Amount.read b).1
    else if letters.contains 'h' then compareHuman a b
    else if letters.contains 'M' then compare (month a) (month b)
    else if letters.contains 'V' then compareVersions (a.length + b.length + 1) a b
    else
      let kept (c : Char) : Bool :=
        if letters.contains 'd' then c.isAlphanum || Text.ByteClass.isBlank c
        else if letters.contains 'i' then isPrintable c
        else true
      let folded (cs : List Char) : List Char :=
        let cs := if letters.contains 'd' || letters.contains 'i' then cs.filter kept else cs
        if letters.contains 'f' then cs.map Char.toUpper else cs
      compareBytes (folded a) (folded b)
  if letters.contains 'r' then order.swap else order

structure KeyPlace where
  field : Nat
  byte : Nat
  skipsBlanks : Bool

structure SortKey where
  first : KeyPlace
  last : Option KeyPlace
  letters : List Char

def dropBlankField (cs : List Char) : List Char :=
  (cs.dropWhile Text.ByteClass.isBlank).dropWhile (!Text.ByteClass.isBlank ·)

-- Drops fields from the front of a line; `last` tells that the separator stays.
def dropFields (separator : Option Char) (keepsLast : Bool) : Nat → List Char → List Char
  | 0, cs => cs
  | n + 1, cs =>
    match separator with
    | none => dropFields separator keepsLast n (dropBlankField cs)
    | some c =>
      let rest := cs.dropWhile (· != c)
      dropFields separator keepsLast n (if n == 0 && keepsLast then rest else rest.drop 1)

namespace SortKey

def part (separator : Option Char) (k : SortKey) (line : List Char) : List Char :=
  let skip (skips : Bool) (cs : List Char) : List Char :=
    if skips then cs.dropWhile Text.ByteClass.isBlank else cs
  let start := skip k.first.skipsBlanks (dropFields separator false (k.first.field - 1) line)
  let start := start.drop (k.first.byte - 1)
  match k.last with
  | none => start
  | some place =>
    let behind :=
      if place.byte == 0 then dropFields separator true place.field line
      else (skip place.skipsBlanks (dropFields separator false (place.field - 1) line)).drop
        place.byte
    start.take (start.length - behind.length)

end SortKey

def keyLetters : List Char := "bdfgihMnRrV".toList

-- Reads a place in a line; `start` tells whether a key starts there.
def readPlace (start : Bool) (cs : List Char) :
    Except String (KeyPlace × List Char × List Char) := do
  let digits := cs.takeWhile Char.isDigit
  let text := String.ofList cs
  if digits.isEmpty then
    .error ((if start then "invalid number at field start" else "invalid number after ','") ++
      ": invalid count at start of " ++ literal text)
  let field := (digitsValue? 10 digits).getD 0
  let rest := cs.drop digits.length
  let (byte, rest) ←
    match rest with
    | '.' :: behind =>
      let digits := behind.takeWhile Char.isDigit
      if digits.isEmpty then
        .error ("invalid number after '.': invalid count at start of " ++ literal (.ofList behind))
      else .ok ((digitsValue? 10 digits).getD 0, behind.drop digits.length)
    | rest => .ok (if start then 1 else 0, rest)
  let letters := rest.takeWhile keyLetters.contains
  return (⟨field, byte, letters.contains 'b'⟩, letters, rest.drop letters.length)

def readKey (text : String) : Except String SortKey := do
  let invalid {α : Type} (reason : String) : Except String α :=
    .error (reason ++ ": invalid field specification " ++ literal text)
  let (first, letters, rest) ← readPlace true text.toList
  if first.field == 0 then invalid "field number is zero"
  if first.byte == 0 then invalid "character offset is zero"
  match rest with
  | [] => return ⟨first, none, letters⟩
  | ',' :: rest =>
    let (last, more, rest) ← readPlace false rest
    if last.field == 0 then invalid "field number is zero"
    if rest.isEmpty then return ⟨first, some last, letters ++ more⟩
    else invalid "stray character in field spec"
  | _ => invalid "stray character in field spec"

section

variable {m : Type → Type} [Monad m]

def sortSpecs : List OptionSpec :=
  [flag "b" "ignore-leading-blanks", flag "d" "dictionary-order", flag "f" "ignore-case",
    flag "g" "general-numeric-sort", flag "i" "ignore-nonprinting", flag "M" "month-sort",
    flag "h" "human-numeric-sort", flag "n" "numeric-sort", flag "R" "random-sort",
    flag "r" "reverse", flag "V" "version-sort", flag "c" "check", flag "C" "", flag "m" "merge",
    valued "k" "key", valued "o" "output", flag "s" "stable", valued "t" "field-separator",
    flag "u" "unique", flag "z" "zero-terminated", valued "S" "buffer-size",
    valued "T" "temporary-directory", valued "parallel" "parallel"]

def dropRepeated (isSame : String → String → Bool) : List String → List String
  | a :: b :: rest =>
    if isSame a b then dropRepeated isSame (a :: rest) else a :: dropRepeated isSame (b :: rest)
  | lines => lines
termination_by lines => lines.length

def disorder? (isWrong : String → String → Bool) : Nat → List String → Option (Nat × String)
  | n, a :: b :: rest =>
    if isWrong a b then some (n + 1, b) else disorder? isWrong (n + 1) (b :: rest)
  | _, _ => none

def sort : Action m := fun words => withOptions "sort" sortSpecs 2 words fun given operands => do
  let stop (text : String) : ShellM m Nat := do
    complain "sort" text
    return 2
  let letters := given.filterMap fun (key, _) =>
    match key.toList with
    | [c] => if keyLetters.contains c then some c else none
    | _ => none
  let separator? : Except String (Option Char) :=
    match given.value? "t" with
    | none => .ok none
    | some "\\0" => .ok (some '\x00')
    | some text =>
      match text.toList with
      | [c] => .ok (some c)
      | [] => .error "empty tab"
      | _ => .error ("multi-character tab " ++ literal text)
  match separator?, (given.values "k").mapM readKey with
  | .error text, _ => stop text
  | _, .error text => stop text
  | .ok separator, .ok keys =>
    let ordered (k : SortKey) : SortKey :=
      if k.letters.isEmpty then
        { k with
          letters := letters
          first := { k.first with skipsBlanks := k.first.skipsBlanks || letters.contains 'b' } }
      else k
    let keys := keys.map ordered
    let whole (line : List Char) : List Char :=
      if letters.contains 'b' then line.dropWhile Text.ByteClass.isBlank else line
    let byKeys (a b : List Char) : Ordering :=
      if keys.isEmpty then compareBy letters (whole a) (whole b)
      else keys.foldl (fun order k =>
        order.then (compareBy k.letters (k.part separator a) (k.part separator b))) .eq
    let isStable := given.has "s" || given.has "u"
    let order (a b : String) : Ordering :=
      let last := compareBytes a.toList b.toList
      (byKeys a.toList b.toList).then
        (if isStable then .eq else if letters.contains 'r' then last.swap else last)
    let ending := if given.has "z" then '\x00' else '\n'
    let linesOf (text : String) : List String :=
      match (Text.splitOn ending text).reverse with
      | "" :: rest => rest.reverse
      | lines => lines.reverse
    let mut lines : List String := []
    for path in inputsOf operands do
      match ← readInput path with
      | .ok text => lines := lines ++ linesOf text
      | .error fault =>
        return ← stop ((if fault == .isDirectory then "read failed: " else "cannot read: ") ++
          quotedIfNeeded path ++ ": " ++ fault.reason)
    if given.has "c" || given.has "C" then
      let isWrong (a b : String) : Bool :=
        order a b == .gt || (given.has "u" && order a b == .eq)
      match disorder? isWrong 1 lines with
      | none => return 0
      | some (n, line) =>
        if given.has "c" then
          putError ("sort: " ++ operands.headD "-" ++ ":" ++ toString n ++ ": disorder: " ++ line ++
            "\n")
        return 1
    let sorted := lines.mergeSort fun a b => order a b != .gt
    let sorted :=
      if given.has "u" then dropRepeated (fun a b => byKeys a.toList b.toList == .eq) sorted
      else sorted
    let text := String.join (sorted.map (· ++ .singleton ending))
    match given.value? "o" with
    | none =>
      put text
      return 0
    | some path =>
      match ← writeOutput path text with
      | .ok () => return 0
      | .error fault => stop ("open failed: " ++ quotedIfNeeded path ++ ": " ++ fault.reason)

def runsOf (isSame : String → String → Bool) (lines : List String) : List (List String) :=
  lines.foldr (fun line runs =>
    match runs with
    | (next :: more) :: others =>
      if isSame line next then (line :: next :: more) :: others else [line] :: runs
    | runs => [line] :: runs) []

def uniqSpecs : List OptionSpec :=
  [flag "c" "count", flag "d" "repeated", flag "D" "all-repeated", valued "f" "skip-fields",
    flag "i" "ignore-case", valued "s" "skip-chars", flag "u" "unique", flag "z" "zero-terminated",
    valued "w" "check-chars"]

def uniq : Action m := fun words => withOptions "uniq" uniqSpecs 1 words fun given operands => do
  let number (key : String) : Option Nat := (given.value? key).bind (·.toNat?)
  let key (line : String) : List Char :=
    let skipped := (dropFields none false ((number "f").getD 0) line.toList).drop
      ((number "s").getD 0)
    let cs := match number "w" with
      | some n => skipped.take n
      | none => skipped
    if given.has "i" then cs.map Char.toLower else cs
  let shown (run : List String) : List String :=
    let isRepeated := 1 < run.length
    if given.has "D" then if isRepeated then run else []
    else if (given.has "d" && !isRepeated) || (given.has "u" && isRepeated) then []
    else match run with
      | [] => []
      | line :: _ =>
        [(if given.has "c" then padLeft 7 (toString run.length) ++ " " else "") ++ line]
  match operands with
  | _ :: _ :: extra :: _ => misuse "uniq" ("extra operand " ++ quoted extra) 1
  | operands =>
    let input := operands.headD "-"
    match ← readInput input with
    | .error fault =>
      if fault == .isDirectory then complain "uniq" ("error reading " ++ quoted input)
      else complainOf "uniq" input fault
      return 1
    | .ok text =>
      let runs := runsOf (fun a b => key a == key b) (linesOf text)
      let output := String.join ((runs.flatMap shown).map (· ++ "\n"))
      match operands with
      | [_, path] =>
        match ← writeOutput path output with
        | .ok () => return 0
        | .error fault =>
          complainOf "uniq" path fault
          return 1
      | _ =>
        put output
        return 0

def mergeColumns : Nat → List String → List String → List (Nat × String)
  | 0, _, _ => []
  | _, [], bs => bs.map (2, ·)
  | _, as, [] => as.map (1, ·)
  | limit + 1, a :: as, b :: bs =>
    match compareBytes a.toList b.toList with
    | .eq => (3, a) :: mergeColumns limit as bs
    | .lt => (1, a) :: mergeColumns limit as (b :: bs)
    | .gt => (2, b) :: mergeColumns limit (a :: as) bs

def isInOrder (lines : List String) : Bool :=
  (lines.zip (lines.drop 1)).all fun (a, b) => compareBytes a.toList b.toList != .gt

def comm : Action m := fun words =>
  withOptions "comm" [flag "1" "", flag "2" "", flag "3" "", flag "check-order" "check-order",
    flag "nocheck-order" "nocheck-order", valued "output-delimiter" "output-delimiter"] 1 words
    fun given operands => do
      match operands with
      | [first, second] =>
        match ← readInput first with
        | .error fault =>
          complainOf "comm" first fault
          return 1
        | .ok a =>
          match ← readInput second with
          | .error fault =>
            complainOf "comm" second fault
            return 1
          | .ok b =>
            let lines := linesOf a
            let others := linesOf b
            let isShown (column : Nat) : Bool := !given.has (toString column)
            let delimiter := (given.value? "output-delimiter").getD "\t"
            let shown (column : Nat) (line : String) : String :=
              let tabs := (List.range (column - 1)).filter fun i => isShown (i + 1)
              if isShown column then String.join (tabs.map fun _ => delimiter) ++ line ++ "\n"
              else ""
            put (String.join ((mergeColumns (lines.length + others.length) lines others).map
              fun (column, line) => shown column line))
            let unordered := ([lines, others].zipIdx.filter fun (ls, _) =>
              !isInOrder ls && lines != others && !given.has "nocheck-order").map (·.2 + 1)
            for number in unordered do
              complain "comm" ("file " ++ toString number ++ " is not in sorted order")
            if unordered.isEmpty then return 0
            complain "comm" "input is not in sorted order"
            return 1
      | [] => misuse "comm" "missing operand" 1
      | [one] => misuse "comm" ("missing operand after " ++ quoted one) 1
      | _ :: _ :: extra :: _ => misuse "comm" ("extra operand " ++ quoted extra) 1

end

end Classwright.Tool
