import Classwright.Tool.Files
import Classwright.Tool.Sort

namespace Classwright.Tool

open Shell

structure Hunk where
  oldStart : Nat
  newStart : Nat
  old : List String
  new : List String

structure LineEquality where
  ignoresCase : Bool
  ignoresBlanks : Bool
  ignoresAmount : Bool

namespace LineEquality

def squeezed (cs : List Char) : List Char :=
  let go := cs.foldl (fun (done : List Char) c =>
    let c := if Text.ByteClass.isSpace c then ' ' else c
    if c == ' ' && done.head? == some ' ' then done else c :: done) []
  (go.dropWhile (· == ' ')).reverse

def key (q : LineEquality) (line : String) : String :=
  let cs := line.toList
  let cs := if q.ignoresCase then cs.map Char.toLower else cs
  let cs := if q.ignoresBlanks then cs.filter (!Text.ByteClass.isSpace ·) else cs
  .ofList (if q.ignoresAmount then squeezed cs else cs)

end LineEquality

-- The lengths of the longest common rows of the rests of two lists, for each pair of rests.
def commonLengths (as bs : List String) : List (List Nat) :=
  as.foldr (fun a rows =>
    let below := rows.headD []
    let row := (bs.zip (below.zip (below.drop 1))).foldr (fun (b, down, diagonal) row =>
      (if a == b then diagonal + 1 else max down (row.headD 0)) :: row) [0]
    row :: rows) [List.replicate (bs.length + 1) 0]

-- Goes through two lists along a longest common row; counts the lines left behind.
def changes (table : Array (Array Nat)) :
    Nat → Nat → Nat → List (String × String) → List (String × String) → List Hunk
  | 0, _, _, _, _ => []
  | limit + 1, i, j, as, bs =>
    let length (i j : Nat) : Nat := ((table[i]?).bind (·[j]?)).getD 0
    let whole (old new : List String) (hunks : List Hunk) : List Hunk :=
      match hunks with
      | h :: rest =>
        if h.oldStart == i + old.length && h.newStart == j + new.length then
          ⟨i, j, old ++ h.old, new ++ h.new⟩ :: rest
        else ⟨i, j, old, new⟩ :: hunks
      | [] => [⟨i, j, old, new⟩]
    match as, bs with
    | [], [] => []
    | [], bs => [⟨i, j, [], bs.map (·.2)⟩]
    | as, [] => [⟨i, j, as.map (·.2), []⟩]
    | (a, x) :: as', (b, y) :: bs' =>
      if a == b then changes table limit (i + 1) (j + 1) as' bs'
      else if length i (j + 1) ≤ length (i + 1) j then
        whole [x] [] (changes table limit (i + 1) j as' bs)
      else whole [] [y] (changes table limit i (j + 1) as bs')

def hunksOf (q : LineEquality) (old new : List String) : List Hunk :=
  let as := old.map q.key
  let bs := new.map q.key
  let table := ((commonLengths as bs).map List.toArray).toArray
  changes table (old.length + new.length + 1) 0 0 (as.zip old) (bs.zip new)

-- A line with a mark in front of it; one without an end is told from others.
def markedLine (mark line : String) : String :=
  if line.endsWith "\n" then mark ++ line
  else mark ++ line ++ "\n\\ No newline at end of file\n"

namespace Hunk

def range (start count : Nat) : String :=
  if count ≤ 1 then toString (start + count)
  else toString (start + 1) ++ "," ++ toString (start + count)

def text (h : Hunk) : String :=
  let letter := if h.old.isEmpty then "a" else if h.new.isEmpty then "d" else "c"
  range h.oldStart h.old.length ++ letter ++ range h.newStart h.new.length ++ "\n" ++
    String.join (h.old.map (markedLine "< ")) ++
    (if h.old.isEmpty || h.new.isEmpty then "" else "---\n") ++
    String.join (h.new.map (markedLine "> "))

-- Hunks that are near each other, so that the lines around them touch.
def groups (context : Nat) : List Hunk → List (List Hunk)
  | [] => []
  | h :: rest =>
    match groups context rest with
    | (next :: more) :: others =>
      if next.oldStart ≤ h.oldStart + h.old.length + 2 * context then
        (h :: next :: more) :: others
      else [h] :: (next :: more) :: others
    | others => [h] :: others

def span (start count : Nat) : String :=
  if count == 1 then toString (start + 1)
  else toString (if count == 0 then start else start + 1) ++ "," ++ toString count

def unified (context : Nat) (old : Array String) (hs : List Hunk) : String :=
  match hs.head?, hs.getLast? with
  | some first, some last =>
    let start := first.oldStart - context
    let stop := min old.size (last.oldStart + last.old.length + context)
    let slice (a b : Nat) : String :=
      String.join ((old.toList.drop a).take (b - a) |>.map (markedLine " "))
    let (body, place) := hs.foldl (fun (body, place) h =>
      (body ++ slice place h.oldStart ++ String.join (h.old.map (markedLine "-")) ++
        String.join (h.new.map (markedLine "+")), h.oldStart + h.old.length)) ("", start)
    let added := (hs.map (·.new.length)).foldl (· + ·) 0
    let removed := (hs.map (·.old.length)).foldl (· + ·) 0
    let newStart := first.newStart - (first.oldStart - start)
    "@@ -" ++ span start (stop - start) ++ " +" ++
      span newStart (stop - start + added - removed) ++ " @@\n" ++ body ++ slice place stop
  | _, _ => ""

end Hunk

section

variable {m : Type → Type} [Monad m]

def difference? : Nat → Nat → List Char → List Char → Option (Nat × Nat)
  | _, _, [], _ => none
  | _, _, _, [] => none
  | place, line, a :: as, b :: bs =>
    if a != b then some (place, line)
    else difference? (place + 1) (if a == '\n' then line + 1 else line) as bs

def cmp : Action m := fun words =>
  let specs := [flag "s" "quiet", flag "s" "silent", flag "l" "verbose", flag "b" "print-bytes",
    valued "n" "bytes", valued "i" "ignore-initial"]
  withOptions "cmp" specs 2 words fun given operands => do
    match operands with
    | [] =>
      complain "cmp" "missing operand after 'cmp'"
      putError "cmp: Try 'cmp --help' for more information.\n"
      return 2
    | first :: rest =>
      let second := rest.headD "-"
      let fail (path : String) (fault : FileFault) : ShellM m Nat := do
        complain "cmp" (path ++ ": " ++ fault.reason)
        return 2
      if first == second then return 0
      match ← readInput first with
      | .error fault => fail first fault
      | .ok a =>
        match ← readInput second with
        | .error fault => fail second fault
        | .ok b =>
          let limited (text : String) : List Char :=
            match (given.value? "n").bind (·.toNat?) with
            | some n => text.toList.take n
            | none => text.toList
          let as := limited a
          let bs := limited b
          if as == bs then return 0
          if given.has "s" then return 1
          let shorter := if as.length < bs.length then as else bs
          let name := if as.length < bs.length then first else second
          if given.has "l" then
            let width := (toString (max as.length bs.length)).length
            let octal (c : Char) : String := padLeft 3 (.ofList (Nat.toDigits 8 c.toNat))
            for ((x, y), i) in (as.zip bs).zipIdx 1 do
              if x != y then
                put (padLeft width (toString i) ++ " " ++ octal x ++ " " ++ octal y ++ "\n")
          else if let some (place, line) := difference? 1 1 as bs then
            put (first ++ " " ++ second ++ " differ: char " ++ toString place ++ ", line " ++
              toString line ++ "\n")
            return 1
          if as.length != bs.length then
            if shorter.isEmpty then complain "cmp" ("EOF on " ++ name ++ " which is empty")
            else
              let lines := shorter.count '\n'
              let place := if given.has "l" then ""
                else if shorter.getLast? == some '\n' then ", line " ++ toString lines
                else ", in line " ++ toString (lines + 1)
              complain "cmp" ("EOF on " ++ name ++ " after byte " ++ toString shorter.length ++
                place)
          return 1

structure Comparison where
  given : Given
  options : List String
  equality : LineEquality

namespace Comparison

-- Shows how two texts differ; tells whether they do.
def texts (c : Comparison) (title : String) (first second a b : String) : ShellM m Bool := do
  let isBinary (text : String) : Bool := text.toList.contains '\x00'
  let identical : ShellM m Bool := do
    if c.given.has "s" then
      put ("Files " ++ first ++ " and " ++ second ++ " are identical\n")
    return false
  let differ : ShellM m Bool := do
    put ("Files " ++ first ++ " and " ++ second ++ " differ\n")
    return true
  if a == b then identical
  else if (isBinary a || isBinary b) && !c.given.has "a" then
    if c.given.has "q" then differ
    else
      put ("Binary files " ++ first ++ " and " ++ second ++ " differ\n")
      return true
  else
    let old := splitLines a
    let new := splitLines b
    let hunks := hunksOf c.equality old new
    if hunks.isEmpty then identical
    else if c.given.has "q" then differ
    else if c.given.has "u" || c.given.has "U" then
      let context := ((c.given.value? "U").bind (·.toNat?)).getD 3
      let labels := c.given.values "label"
      let label (i : Nat) (path : String) : String :=
        (labels[i]?).getD (path ++ "\t1970-01-01 00:00:00.000000000 +0000")
      put (title ++ "--- " ++ label 0 first ++ "\n+++ " ++ label 1 second ++ "\n" ++
        String.join ((Hunk.groups context hunks).map (Hunk.unified context old.toArray)))
      return true
    else
      put (title ++ String.join (hunks.map Hunk.text))
      return true

-- Compares two paths; the status is two if one of them cannot be read.
def paths (c : Comparison) (inTree : Bool) : Nat → String → String → ShellM m Nat
  | 0, _, _ => return 2
  | depth + 1, first, second => do
    let isSubtree ← (do return (← isDirectory first) && (← isDirectory second))
    if isSubtree then
      if inTree && !c.given.has "r" then
        put ("Common subdirectories: " ++ first ++ " and " ++ second ++ "\n")
        return 0
      else
        let sortNames (names : List String) : List String :=
          names.mergeSort fun a b => compareBytes a.toList b.toList != .gt
        let old := sortNames (← entriesOf first)
        let new := sortNames (← entriesOf second)
        let all := sortNames (old ++ new.filter (!old.contains ·))
        onEach (fun name => do
          let adds := c.given.has "N"
          if !old.contains name && !adds then
            put ("Only in " ++ second ++ ": " ++ name ++ "\n")
            return 1
          else if !new.contains name && !adds then
            put ("Only in " ++ first ++ ": " ++ name ++ "\n")
            return 1
          else c.paths true depth (inside first name) (inside second name)) all
    else
      let kinds := (← kindOf? first, ← kindOf? second)
      if inTree && (kinds.1 == some .directory || kinds.2 == some .directory) then
        let kind (k : Option FileKind) : String :=
          if k == some .directory then "directory" else "regular file"
        put ("File " ++ first ++ " is a " ++ kind kinds.1 ++ " while file " ++ second ++ " is a " ++
          kind kinds.2 ++ "\n")
        return 1
      else
        let read (path : String) : ShellM m (Option String) := do
          match ← readInput path with
          | .ok text => return some text
          | .error fault =>
            if inTree && fault == .notFound then return some ""
            complain "diff" (path ++ ": " ++ fault.reason)
            return none
        let a? ← read first
        let b? ← read second
        match a?, b? with
        | some a, some b =>
          let title := if inTree then
            " ".intercalate ("diff" :: c.options ++ [first, second]) ++ "\n" else ""
          return if ← c.texts title first second a b then 1 else 0
        | _, _ => return 2

end Comparison

def diff : Action m := fun words =>
  let specs := [flag "q" "brief", flag "s" "report-identical-files", flag "r" "recursive",
    flag "N" "new-file", flag "u" "", valued "U" "unified", flag "i" "ignore-case",
    flag "w" "ignore-all-space", flag "b" "ignore-space-change", flag "B" "ignore-blank-lines",
    flag "a" "text", valued "label" "label", valued "L" "", flag "normal" "normal",
    ⟨"color", "color", .maybe⟩, flag "strip" "strip-trailing-cr", valued "x" "exclude"]
  let usage (text : String) : ShellM m Nat := do
    complain "diff" text
    putError "diff: Try 'diff --help' for more information.\n"
    return 2
  match readOptions (flag "help" "help" :: flag "v" "version" :: specs) true
      (words.length + 1) words with
  | .error text => usage text
  | .ok (given, operands) => do
    if given.has "help" || given.has "v" then return 0
    let options := words.filter fun word => word.startsWith "-" && word != "-"
    let c : Comparison := ⟨given, options, ⟨given.has "i", given.has "w", given.has "b"⟩⟩
    match operands with
    | [] => usage "missing operand after 'diff'"
    | [one] => usage ("missing operand after " ++ quoted one)
    | [first, second] =>
      let isFirst ← isDirectory first
      let isSecond ← isDirectory second
      let first' := if isFirst && !isSecond then inside first (lastName second) else first
      let second' := if isSecond && !isFirst then inside second (lastName first) else second
      c.paths false maxWalk first' second'
    | _ :: _ :: extra :: _ => usage ("extra operand " ++ quoted extra)

end

end Classwright.Tool
