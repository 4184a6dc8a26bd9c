import Classwright.Number.Power
import Classwright.Tool.Show

namespace Classwright.Tool

open Shell

structure DumpType where
  size : Nat
  width : Nat
  shown : Nat → String

namespace DumpType

def zeroed (width base n : Nat) : String :=
  let digits := Nat.toDigits base n
  .ofList (List.replicate (width - digits.length) '0' ++ digits)

def signed (size n : Nat) : Int := if n < twoTo (8 * size - 1) then n else (n : Int) - twoTo (8 * size)

def byteName (n : Nat) : String :=
  let c := Char.ofNat n
  if n == 0 then "\\0"
  else match letterOf? c with
    | some letter => .ofList ['\\', letter]
    | none => if isPrintable c then .singleton c else zeroed 3 8 n

def ofLetter? (letter : Char) (size : Nat) : Option DumpType :=
  let places (base : Nat) : Nat := (Nat.toDigits base (twoTo (8 * size) - 1)).length
  match letter with
  | 'c' => some ⟨1, 3, byteName⟩
  | 'x' => some ⟨size, places 16, zeroed (places 16) 16⟩
  | 'o' => some ⟨size, places 8, zeroed (places 8) 8⟩
  | 'u' => some ⟨size, places 10, toString⟩
  | 'd' => some ⟨size, places 10 + 1, fun n => toString (signed size n)⟩
  | _ => none

def readAll? : Nat → List Char → Option (List DumpType)
  | 0, _ => none
  | _, [] => some []
  | limit + 1, c :: rest => do
    let digits := rest.takeWhile Char.isDigit
    let behind := rest.drop digits.length
    let (size, behind) := match digitsValue? 10 digits, behind with
      | some n, _ => (n, behind)
      | none, 'C' :: more => (1, more)
      | none, 'S' :: more => (2, more)
      | none, 'I' :: more => (4, more)
      | none, 'L' :: more => (8, more)
      | none, _ => (4, behind)
    if !([1, 2, 4, 8].contains size) then none
    let first ← ofLetter? c size
    return first :: (← readAll? limit behind)

-- The numbers in a line of bytes; `column` is the width that a byte takes at least.
def line (t : DumpType) (column : Nat) : Nat → List Char → String
  | 0, _ => ""
  | limit + 1, cs =>
    if cs.isEmpty then ""
    else
      let n := ((cs.take t.size).zipIdx.map fun (c, i) => c.toNat * Nat.pow 256 i).foldl (· + ·) 0
      padLeft (max (t.width + 1) (column * t.size)) (t.shown n) ++
        line t column limit (cs.drop t.size)

end DumpType

-- The lines of a dump, with the places where they start; equal lines are left out.
def dumpLines (width : Nat) : Nat → Nat → List Char → List (Nat × List Char)
  | 0, _, _ => []
  | limit + 1, place, cs =>
    if cs.isEmpty then []
    else (place, cs.take width) :: dumpLines width limit (place + width) (cs.drop width)

section

variable {m : Type → Type} [Monad m]

def od : Action m := fun words =>
  let letters := [("b", "o1"), ("c", "c"), ("d", "u2"), ("o", "o2"), ("s", "d2"), ("x", "x2")]
  let specs := [valued "A" "address-radix", valued "t" "format", valued "N" "read-bytes",
    valued "j" "skip-bytes", flag "v" "output-duplicates", ⟨"w", "width", .maybe⟩] ++
    letters.map fun (letter, _) => flag letter ""
  withOptions "od" specs 1 words fun given operands => do
    let formats := given.filterMap fun (key, value) =>
      if key == "t" then value else letters.lookup key
    let formats := if formats.isEmpty then ["o2"] else formats
    match formats.mapM fun format => DumpType.readAll? (format.length + 1) format.toList with
    | none =>
      complain "od" ("invalid type string " ++ quoted ("".intercalate formats))
      return 1
    | some types =>
      let types := types.flatten
      let column := ((types.map fun t => (t.width + t.size) / t.size).foldl max 0)
      let column := if types.length == 1 then 0 else column
      let mut texts : List String := []
      let mut status := 0
      for path in inputsOf operands do
        match ← readInput path with
        | .ok text => texts := text :: texts
        | .error fault =>
          complainOf "od" path fault
          status := 1
      let skipped := ((given.value? "j").bind sizeOf?).getD 0
      let all := (String.join texts.reverse).toList.drop skipped
      let cs := match (given.value? "N").bind sizeOf? with
        | some n => all.take n
        | none => all
      let radix := (given.value? "A").getD "o"
      let address (n : Nat) : String :=
        match radix with
        | "n" => ""
        | "d" => DumpType.zeroed 7 10 n
        | "x" => DumpType.zeroed 6 16 n
        | _ => DumpType.zeroed 7 8 n
      let blank := String.ofList (List.replicate (address 0).length ' ')
      let width := if given.has "w" then ((given.value? "w").bind (·.toNat?)).getD 32 else 16
      let rows := dumpLines width (cs.length + 1) skipped cs
      let show' (place : Nat) (cs : List Char) : String :=
        String.join (types.zipIdx.map fun (t, i) =>
          (if i == 0 then address place else blank) ++ t.line column (cs.length + 1) cs ++ "\n")
      let (text, _, _) := rows.foldl (fun (done, last, starred) (place, cs) =>
        if last == some cs && !given.has "v" && cs.length == width then
          (if starred then done else "*\n" :: done, last, true)
        else (show' place cs :: done, some cs, false)) (([] : List String), none, false)
      put (String.join text.reverse)
      if radix != "n" && !texts.isEmpty then put (address (skipped + cs.length) ++ "\n")
      return status

def base64Digits : List Char :=
  "ABCDEFGHIJKLMNOPQRSTUVWXYZabcdefghijklmnopqrstuvwxyz0123456789+/".toList

def encode64 : List Char → List Char
  | a :: b :: c :: rest =>
    digits 4 (a.toNat * 65536 + b.toNat * 256 + c.toNat) ++ encode64 rest
  | [a, b] => (digits 4 (a.toNat * 65536 + b.toNat * 256)).take 3 ++ ['=']
  | [a] => (digits 4 (a.toNat * 65536)).take 2 ++ ['=', '=']
  | [] => []
where
  digits (count n : Nat) : List Char :=
    (List.range count).reverse.map fun i => (base64Digits[n / Nat.pow 64 i % 64]?).getD '='

-- Four digits as three bytes; tells whether all of the digits made sense.
def decode64 : List Char → List Char × Bool
  | [] => ([], true)
  | a :: b :: c :: d :: rest =>
    let value (e : Char) : Option Nat := base64Digits.findIdx? (· == e)
    let bytes (n count : Nat) : List Char :=
      ([n / 65536, n / 256 % 256, n % 256].take count).map Char.ofNat
    match value a, value b, value c, value d with
    | some x, some y, some z, some w =>
      let (more, good) := decode64 rest
      (bytes (((x * 64 + y) * 64 + z) * 64 + w) 3 ++ more, good)
    | some x, some y, some z, none =>
      (bytes (((x * 64 + y) * 64 + z) * 64) 2, d == '=' && rest.isEmpty)
    | some x, some y, none, none =>
      (bytes ((x * 64 + y) * 4096) 1, c == '=' && d == '=' && rest.isEmpty)
    | _, _, _, _ => ([], false)
  | _ => ([], false)

def base64 : Action m := fun words =>
  let specs := [flag "d" "decode", flag "i" "ignore-garbage", valued "w" "wrap"]
  withOptions "base64" specs 1 words fun given operands => do
    match operands with
    | _ :: extra :: _ => misuse "base64" ("extra operand " ++ quoted extra) 1
    | _ =>
      let path := operands.headD "-"
      match ← readInput path with
      | .error fault =>
        complainOf "base64" path fault
        return 1
      | .ok text =>
        if given.has "d" then
          let cs := text.toList.filter fun c =>
            c != '\n' && (!given.has "i" || c == '=' || base64Digits.contains c)
          let (bytes, good) := decode64 cs
          put (.ofList bytes)
          if good then return 0
          complain "base64" "invalid input"
          return 1
        else
          let cs := encode64 text.toList
          match ((given.value? "w").getD "76").toNat? with
          | none =>
            complain "base64" ("invalid wrap size: " ++ quoted ((given.value? "w").getD ""))
            return 1
          | some 0 =>
            put (.ofList cs)
            return 0
          | some width =>
            put (String.join ((dumpLines width (cs.length + 1) 0 cs).map fun (_, row) =>
              .ofList row ++ "\n"))
            return 0

def operand? (name : String) (words : List String) : Option String :=
  (words.reverse.find? (·.startsWith (name ++ "="))).map fun word =>
    .ofList (word.toList.drop (name.length + 1))

def dd : Action m := fun words => do
  let names := ["if", "of", "bs", "ibs", "obs", "count", "skip", "seek", "conv", "status", "iflag",
    "oflag"]
  let isKnown (word : String) : Bool := names.any fun name => word.startsWith (name ++ "=")
  match words.find? (!isKnown ·) with
  | some word => misuse "dd" ("unrecognized operand " ++ quoted word) 1
  | none =>
    let number (name : String) (standard : Nat) : Nat :=
      ((operand? name words).bind sizeOf?).getD standard
    let size := max (number "bs" (number "ibs" 512)) 1
    let input := (operand? "if" words).getD "-"
    match ← readInput input with
    | .error fault =>
      complain "dd" ("failed to open " ++ quoted input ++ ": " ++ fault.reason)
      return 1
    | .ok text =>
      let rest := text.toList.drop (number "skip" 0 * size)
      let cs := match (operand? "count" words).bind sizeOf? with
        | some n => rest.take (n * size)
        | none => rest
      let conversions := Text.splitOn ',' ((operand? "conv" words).getD "")
      let cs := if conversions.contains "ucase" then cs.map Char.toUpper
        else if conversions.contains "lcase" then cs.map Char.toLower else cs
      let result ← match operand? "of" words with
        | none => do
          put (.ofList cs)
          pure (Except.ok ())
        | some path => do
          let old ← match ← readInput path with
            | .ok text => pure text.toList
            | .error _ => pure []
          let start := number "seek" 0 * size
          let before := old.take start ++ List.replicate (start - old.length) '\x00'
          let after := if conversions.contains "notrunc" then old.drop (start + cs.length) else []
          pure (← writeOutput path (.ofList (before ++ cs ++ after)))
      match result with
      | .error fault =>
        let path := (operand? "of" words).getD ""
        complain "dd" ("failed to open " ++ quoted path ++ ": " ++ fault.reason)
        return 1
      | .ok () =>
        let status := operand? "status" words
        let blocks := toString (cs.length / size) ++ "+" ++ (if cs.length % size == 0 then "0"
          else "1")
        if status != some "none" then
          putError (blocks ++ " records in\n" ++ blocks ++ " records out\n")
          if status != some "noxfer" then
            putError (toString cs.length ++ (if cs.length == 1 then " byte" else " bytes") ++
              " copied, 0.0001 s, " ++ toString (cs.length * 10) ++ " kB/s\n")
        return 0

def fileSuffix (digits : List Char) (length n : Nat) : String :=
  .ofList ((List.range length).reverse.map fun i =>
    (digits[n / Nat.pow digits.length i % digits.length]?).getD 'z')

def split : Action m := fun words =>
  let specs := [valued "l" "lines", valued "b" "bytes", valued "a" "suffix-length",
    flag "d" "numeric-suffixes", flag "x" "hex-suffixes", valued "add" "additional-suffix",
    flag "verbose" "verbose", flag "e" "elide-empty-files"]
  -- A count may stand in front of all other options.
  let words := match words with
    | first :: rest =>
      match first.toList with
      | '-' :: c :: cs =>
        if (c :: cs).all Char.isDigit then "-l" :: .ofList (c :: cs) :: rest else words
      | _ => words
    | [] => []
  withOptions "split" specs 1 words fun given operands => do
    match operands with
    | _ :: _ :: extra :: _ => misuse "split" ("extra operand " ++ quoted extra) 1
    | _ =>
      let path := operands.headD "-"
      let start := (operands[1]?).getD "x"
      match ← readInput path with
      | .error fault =>
        complain "split" ("cannot open " ++ quoted path ++ " for reading: " ++ fault.reason)
        return 1
      | .ok text =>
        let count := ((given.value? "b").orElse fun _ => given.value? "l").getD "1000"
        match sizeOf? count with
        | none =>
          complain "split" ("invalid number of " ++ (if given.has "b" then "bytes" else "lines") ++
            ": " ++ quoted count)
          return 1
        | some 0 =>
          complain "split" ("invalid number of " ++ (if given.has "b" then "bytes" else "lines") ++
            ": " ++ quoted count)
          return 1
        | some count =>
          let pieces :=
            if given.has "b" then
              (dumpLines count (text.length + 1) 0 text.toList).map fun (_, cs) => .ofList cs
            else
              let lines := splitLines text
              (chunks count (lines.length + 1) lines).map String.join
          let digits := if given.has "d" then "0123456789".toList
            else if given.has "x" then "0123456789abcdef".toList
            else "abcdefghijklmnopqrstuvwxyz".toList
          let length := ((given.value? "a").bind (·.toNat?)).getD 2
          for (piece, i) in pieces.zipIdx do
            let name := start ++ fileSuffix digits length i ++ (given.value? "add").getD ""
            if given.has "verbose" then put ("creating file " ++ quoted name ++ "\n")
            if Nat.pow digits.length length ≤ i then
              complain "split" "output file suffixes exhausted"
              return 1
            if let .error fault ← writeOutput name piece then
              complain "split" (quotedIfNeeded name ++ ": " ++ fault.reason)
              return 1
          return 0
where
  chunks (size : Nat) : Nat → List String → List (List String)
    | 0, _ => []
    | limit + 1, xs => if xs.isEmpty then [] else xs.take size :: chunks size limit (xs.drop size)

end

end Classwright.Tool
