import Classwright.Number.Power
import Classwright.Tool.Basic

namespace Classwright.Tool

open Shell

namespace Digest

def bigEndian (size n : Nat) : List Nat :=
  (List.range size).reverse.map fun i => n / Nat.pow 256 i % 256

def littleEndian (size n : Nat) : List Nat := (bigEndian size n).reverse

def ofBigEndian (bytes : List Nat) : Nat := bytes.foldl (fun n b => n * 256 + b) 0

def ofLittleEndian (bytes : List Nat) : Nat := ofBigEndian bytes.reverse

def padded (block sizeBytes : Nat) (encode : Nat → Nat → List Nat) (bytes : List Nat) : List Nat :=
  let used := (bytes.length + 1 + sizeBytes) % block
  let zeros := if used == 0 then 0 else block - used
  bytes ++ 0x80 :: List.replicate zeros 0 ++ encode sizeBytes (8 * bytes.length)

def parts (size : Nat) : Nat → List Nat → List (List Nat)
  | 0, _ => []
  | limit + 1, bytes =>
    if bytes.isEmpty then [] else bytes.take size :: parts size limit (bytes.drop size)

def hexByte (b : Nat) : String :=
  let digits := Nat.toDigits 16 b
  .ofList (if digits.length < 2 then '0' :: digits else digits)

def hex (bytes : List Nat) : String := String.join (bytes.map hexByte)

-- Turns the bits of a word of some width to the left; those that fall out come in again.
def rotate (width count n : Nat) : Nat :=
  (n <<< count ||| n >>> (width - count)) % twoTo width

def complement (width n : Nat) : Nat := twoTo width - 1 - n

def sines : Array Nat := #[
    0xd76aa478, 0xe8c7b756, 0x242070db, 0xc1bdceee, 0xf57c0faf, 0x4787c62a, 0xa8304613,
    0xfd469501, 0x698098d8, 0x8b44f7af, 0xffff5bb1, 0x895cd7be, 0x6b901122, 0xfd987193,
    0xa679438e, 0x49b40821, 0xf61e2562, 0xc040b340, 0x265e5a51, 0xe9b6c7aa, 0xd62f105d,
    0x02441453, 0xd8a1e681, 0xe7d3fbc8, 0x21e1cde6, 0xc33707d6, 0xf4d50d87, 0x455a14ed,
    0xa9e3e905, 0xfcefa3f8, 0x676f02d9, 0x8d2a4c8a, 0xfffa3942, 0x8771f681, 0x6d9d6122,
    0xfde5380c, 0xa4beea44, 0x4bdecfa9, 0xf6bb4b60, 0xbebfbc70, 0x289b7ec6, 0xeaa127fa,
    0xd4ef3085, 0x04881d05, 0xd9d4d039, 0xe6db99e5, 0x1fa27cf8, 0xc4ac5665, 0xf4292244,
    0x432aff97, 0xab9423a7, 0xfc93a039, 0x655b59c3, 0x8f0ccc92, 0xffeff47d, 0x85845dd1,
    0x6fa87e4f, 0xfe2ce6e0, 0xa3014314, 0x4e0811a1, 0xf7537e82, 0xbd3af235, 0x2ad7d2bb,
    0xeb86d391]

def turns : Array Nat := #[
    7, 12, 17, 22, 5, 9, 14, 20, 4, 11, 16, 23, 6, 10, 15, 21]

structure Four where
  a : Nat
  b : Nat
  c : Nat
  d : Nat

def md5Step (words : Array Nat) (s : Four) (i : Nat) : Four :=
  let (mixed, place) :=
    if i < 16 then ((s.b &&& s.c) ||| (complement 32 s.b &&& s.d), i)
    else if i < 32 then ((s.d &&& s.b) ||| (complement 32 s.d &&& s.c), (5 * i + 1) % 16)
    else if i < 48 then (s.b ^^^ s.c ^^^ s.d, (3 * i + 5) % 16)
    else (s.c ^^^ (s.b ||| complement 32 s.d), 7 * i % 16)
  let sum := (mixed + s.a + (sines[i]?).getD 0 + (words[place]?).getD 0) % twoTo 32
  let turn := (turns[i / 16 * 4 + i % 4]?).getD 0
  ⟨s.d, (s.b + rotate 32 turn sum) % twoTo 32, s.b, s.c⟩

def md5Block (s : Four) (block : List Nat) : Four :=
  let words := ((parts 4 16 block).map ofLittleEndian).toArray
  let t := (List.range 64).foldl (md5Step words) s
  ⟨(s.a + t.a) % twoTo 32, (s.b + t.b) % twoTo 32, (s.c + t.c) % twoTo 32, (s.d + t.d) % twoTo 32⟩

def md5 (bytes : List Nat) : String :=
  let message := padded 64 8 littleEndian bytes
  let s := (parts 64 (message.length + 1) message).foldl md5Block
    ⟨0x67452301, 0xefcdab89, 0x98badcfe, 0x10325476⟩
  hex ([s.a, s.b, s.c, s.d].flatMap (littleEndian 4))

def extended (width : Nat) (next : List Nat → Nat) (count : Nat) (block : List Nat) : List Nat :=
  let words := (parts (width / 8) 16 block).map ofBigEndian
  (List.range (count - 16)).foldl (fun done _ => next done :: done) words.reverse

def nth (words : List Nat) (i : Nat) : Nat := (words[i]?).getD 0

structure Five where
  a : Nat
  b : Nat
  c : Nat
  d : Nat
  e : Nat

def sha1Step (s : Five) (entry : Nat × Nat) : Five :=
  let (word, i) := entry
  let (mixed, constant) :=
    if i < 20 then ((s.b &&& s.c) ||| (complement 32 s.b &&& s.d), 0x5a827999)
    else if i < 40 then (s.b ^^^ s.c ^^^ s.d, 0x6ed9eba1)
    else if i < 60 then ((s.b &&& s.c) ||| (s.b &&& s.d) ||| (s.c &&& s.d), 0x8f1bbcdc)
    else (s.b ^^^ s.c ^^^ s.d, 0xca62c1d6)
  ⟨(rotate 32 5 s.a + mixed + s.e + constant + word) % twoTo 32, s.a, rotate 32 30 s.b, s.c, s.d⟩

def sha1Block (s : Five) (block : List Nat) : Five :=
  let words := (extended 32 (fun done =>
    rotate 32 1 (nth done 2 ^^^ nth done 7 ^^^ nth done 13 ^^^ nth done 15)) 80 block).reverse
  let t := words.zipIdx.foldl sha1Step s
  ⟨(s.a + t.a) % twoTo 32, (s.b + t.b) % twoTo 32, (s.c + t.c) % twoTo 32, (s.d + t.d) % twoTo 32,
    (s.e + t.e) % twoTo 32⟩

def sha1 (bytes : List Nat) : String :=
  let message := padded 64 8 bigEndian bytes
  let s := (parts 64 (message.length + 1) message).foldl sha1Block
    ⟨0x67452301, 0xefcdab89, 0x98badcfe, 0x10325476, 0xc3d2e1f0⟩
  hex ([s.a, s.b, s.c, s.d, s.e].flatMap (bigEndian 4))

abbrev Moves := Nat × Nat × Nat

-- A sum of one family: its width of words, its constants and the distances by which bits move.
structure Family where
  width : Nat
  constants : List Nat
  start : List Nat
  upper : Moves
  lower : Moves
  first : Moves
  second : Moves

namespace Family

def turned (f : Family) (count n : Nat) : Nat := rotate f.width (f.width - count) n

def threeTurns (f : Family) (moves : Moves) (n : Nat) : Nat :=
  f.turned moves.1 n ^^^ f.turned moves.2.1 n ^^^ f.turned moves.2.2 n

def turnsAndShift (f : Family) (moves : Moves) (n : Nat) : Nat :=
  f.turned moves.1 n ^^^ f.turned moves.2.1 n ^^^ n >>> moves.2.2

def nextWord (f : Family) (done : List Nat) : Nat :=
  (nth done 15 + f.turnsAndShift f.first (nth done 14) + nth done 6 +
    f.turnsAndShift f.second (nth done 1)) % twoTo f.width

def step (f : Family) (s : List Nat) (entry : Nat × Nat) : List Nat :=
  match s with
  | [a, b, c, d, e, g, h, i] =>
    let choice := (e &&& g) ^^^ (complement f.width e &&& h)
    let majority := (a &&& b) ^^^ (a &&& c) ^^^ (b &&& c)
    let sum := i + f.threeTurns f.lower e + choice + entry.1 + entry.2
    [(sum + f.threeTurns f.upper a + majority) % twoTo f.width, a, b, c, (d + sum) % twoTo f.width,
      e, g, h]
  | s => s

def block (f : Family) (s : List Nat) (bytes : List Nat) : List Nat :=
  let words := (extended f.width f.nextWord f.constants.length bytes).reverse
  let t := (f.constants.zip words).foldl f.step s
  (s.zip t).map fun (x, y) => (x + y) % twoTo f.width

def sum (f : Family) (bytes : List Nat) : String :=
  let size := 2 * f.width
  let message := padded size (f.width / 4) bigEndian bytes
  let s := (parts size (message.length + 1) message).foldl f.block f.start
  hex (s.flatMap (bigEndian (f.width / 8)))

end Family

def Family.sha256 : Family where
  width := 32
  constants := [
    0x428a2f98, 0x71374491, 0xb5c0fbcf, 0xe9b5dba5, 0x3956c25b, 0x59f111f1, 0x923f82a4,
    0xab1c5ed5, 0xd807aa98, 0x12835b01, 0x243185be, 0x550c7dc3, 0x72be5d74, 0x80deb1fe,
    0x9bdc06a7, 0xc19bf174, 0xe49b69c1, 0xefbe4786, 0x0fc19dc6, 0x240ca1cc, 0x2de92c6f,
    0x4a7484aa, 0x5cb0a9dc, 0x76f988da, 0x983e5152, 0xa831c66d, 0xb00327c8, 0xbf597fc7,
    0xc6e00bf3, 0xd5a79147, 0x06ca6351, 0x14292967, 0x27b70a85, 0x2e1b2138, 0x4d2c6dfc,
    0x53380d13, 0x650a7354, 0x766a0abb, 0x81c2c92e, 0x92722c85, 0xa2bfe8a1, 0xa81a664b,
    0xc24b8b70, 0xc76c51a3, 0xd192e819, 0xd6990624, 0xf40e3585, 0x106aa070, 0x19a4c116,
    0x1e376c08, 0x2748774c, 0x34b0bcb5, 0x391c0cb3, 0x4ed8aa4a, 0x5b9cca4f, 0x682e6ff3,
    0x748f82ee, 0x78a5636f, 0x84c87814, 0x8cc70208, 0x90befffa, 0xa4506ceb, 0xbef9a3f7,
    0xc67178f2]
  start := [
    0x6a09e667, 0xbb67ae85, 0x3c6ef372, 0xa54ff53a, 0x510e527f, 0x9b05688c, 0x1f83d9ab,
    0x5be0cd19]
  upper := (2, 13, 22)
  lower := (6, 11, 25)
  first := (7, 18, 3)
  second := (17, 19, 10)

def Family.sha512 : Family where
  width := 64
  constants := [
    0x428a2f98d728ae22, 0x7137449123ef65cd, 0xb5c0fbcfec4d3b2f, 0xe9b5dba58189dbbc,
    0x3956c25bf348b538, 0x59f111f1b605d019, 0x923f82a4af194f9b, 0xab1c5ed5da6d8118,
    0xd807aa98a3030242, 0x12835b0145706fbe, 0x243185be4ee4b28c, 0x550c7dc3d5ffb4e2,
    0x72be5d74f27b896f, 0x80deb1fe3b1696b1, 0x9bdc06a725c71235, 0xc19bf174cf692694,
    0xe49b69c19ef14ad2, 0xefbe4786384f25e3, 0x0fc19dc68b8cd5b5, 0x240ca1cc77ac9c65,
    0x2de92c6f592b0275, 0x4a7484aa6ea6e483, 0x5cb0a9dcbd41fbd4, 0x76f988da831153b5,
    0x983e5152ee66dfab, 0xa831c66d2db43210, 0xb00327c898fb213f, 0xbf597fc7beef0ee4,
    0xc6e00bf33da88fc2, 0xd5a79147930aa725, 0x06ca6351e003826f, 0x142929670a0e6e70,
    0x27b70a8546d22ffc, 0x2e1b21385c26c926, 0x4d2c6dfc5ac42aed, 0x53380d139d95b3df,
    0x650a73548baf63de, 0x766a0abb3c77b2a8, 0x81c2c92e47edaee6, 0x92722c851482353b,
    0xa2bfe8a14cf10364, 0xa81a664bbc423001, 0xc24b8b70d0f89791, 0xc76c51a30654be30,
    0xd192e819d6ef5218, 0xd69906245565a910, 0xf40e35855771202a, 0x106aa07032bbd1b8,
    0x19a4c116b8d2d0c8, 0x1e376c085141ab53, 0x2748774cdf8eeb99, 0x34b0bcb5e19b48a8,
    0x391c0cb3c5c95a63, 0x4ed8aa4ae3418acb, 0x5b9cca4f7763e373, 0x682e6ff3d6b2b8a3,
    0x748f82ee5defb2fc, 0x78a5636f43172f60, 0x84c87814a1f0ab72, 0x8cc702081a6439ec,
    0x90befffa23631e28, 0xa4506cebde82bde9, 0xbef9a3f7b2c67915, 0xc67178f2e372532b,
    0xca273eceea26619c, 0xd186b8c721c0c207, 0xeada7dd6cde0eb1e, 0xf57d4f7fee6ed178,
    0x06f067aa72176fba, 0x0a637dc5a2c898a6, 0x113f9804bef90dae, 0x1b710b35131c471b,
    0x28db77f523047d84, 0x32caab7b40c72493, 0x3c9ebe0a15c9bebc, 0x431d67c49c100d4c,
    0x4cc5d4becb3e42b6, 0x597f299cfc657e2a, 0x5fcb6fab3ad6faec, 0x6c44198c4a475817]
  start := [
    0x6a09e667f3bcc908, 0xbb67ae8584caa73b, 0x3c6ef372fe94f82b, 0xa54ff53a5f1d36f1,
    0x510e527fade682d1, 0x9b05688c2b3e6c1f, 0x1f83d9abfb41bd6b, 0x5be0cd19137e2179]
  upper := (28, 34, 39)
  lower := (14, 18, 41)
  first := (1, 8, 7)
  second := (19, 61, 6)

def remainderStep (n : Nat) : Nat :=
  (List.range 8).foldl (fun n _ =>
    if n < twoTo 31 then n * 2 else (n * 2 ^^^ 0x04c11db7) % twoTo 32) n

def remainder (bytes : List Nat) : Nat :=
  let size := (littleEndian 8 bytes.length).reverse.dropWhile (· == 0)
  complement 32 ((bytes ++ size.reverse).foldl (fun n b =>
    (n * 256 % twoTo 32) ^^^ remainderStep ((n / twoTo 24 ^^^ b) * twoTo 24)) 0)

def turningSum (bytes : List Nat) : Nat :=
  bytes.foldl (fun n b => (n / 2 + n % 2 * twoTo 15 + b) % twoTo 16) 0

end Digest

section

variable {m : Type → Type} [Monad m]

def bytesOf (text : String) : List Nat := text.toList.map Char.toNat

def readSumLine? (size : Nat) (line : String) : Option (String × String) :=
  let cs := line.toList
  let digits := cs.takeWhile Text.ByteClass.isHexDigit
  match cs.drop digits.length with
  | ' ' :: mark :: name =>
    if digits.length == size && (mark == ' ' || mark == '*') && !name.isEmpty then
      some ((String.ofList digits).toLower, .ofList name)
    else none
  | _ => none

def checkSums (program : String) (sum : List Nat → String) (given : Given) (path text : String) :
    ShellM m Nat := do
  let lines := (linesOf text).filter (· != "")
  let size := (sum []).length
  let entries := lines.filterMap (readSumLine? size)
  if entries.isEmpty then
    let name := if path == "-" then "'standard input'" else quotedIfNeeded path
    complain program (name ++ ": no properly formatted checksum lines found")
    return 1
  else
    let mut unread := 0
    let mut wrong := 0
    for (expected, name) in entries do
      match ← readInput name with
      | .error fault =>
        complainOf program name fault
        if !given.has "status" then put (name ++ ": FAILED open or read\n")
        unread := unread + 1
      | .ok text =>
        if sum (bytesOf text) == expected then
          if !given.has "status" && !given.has "quiet" then put (name ++ ": OK\n")
        else
          if !given.has "status" then put (name ++ ": FAILED\n")
          wrong := wrong + 1
    let warn (count : Nat) (one several : String) : ShellM m Unit := do
      if count != 0 && !given.has "status" then
        complain program ("WARNING: " ++ toString count ++ if count == 1 then one else several)
    warn (lines.length - entries.length) " line is improperly formatted"
      " lines are improperly formatted"
    warn unread " listed file could not be read" " listed files could not be read"
    warn wrong " computed checksum did NOT match" " computed checksums did NOT match"
    return if unread == 0 && wrong == 0 then 0 else 1

def sumWith (program : String) (sum : List Nat → String) : Action m := fun words =>
  let specs := [flag "b" "binary", flag "t" "text", flag "c" "check", flag "quiet" "quiet",
    flag "status" "status", flag "w" "warn", flag "tag" "tag", flag "z" "zero",
    flag "strict" "strict", flag "ignore-missing" "ignore-missing"]
  withOptions program specs 1 words fun given operands => do
    let inputs := inputsOf operands
    if given.has "c" then
      inputs.foldlM (fun status path => do
        match ← readInput path with
        | .ok text => return max status (← checkSums program sum given path text)
        | .error fault =>
          complainOf program path fault
          return 1) 0
    else
      let mark := if given.has "b" then " *" else "  "
      eachInput (complainOf program) (fun path text =>
        put (sum (bytesOf text) ++ mark ++ path ++ "\n")) inputs

def cksum : Action m := fun words => withOptions "cksum" [] 1 words fun _ operands =>
  eachInput (complainOf "cksum") (fun path text =>
    put (toString (Digest.remainder (bytesOf text)) ++ " " ++ toString text.length ++
      (if operands.isEmpty then "" else " " ++ path) ++ "\n")) (inputsOf operands)

def sum : Action m := fun words => withOptions "sum" [flag "r" "", flag "s" "sysv"] 1 words
  fun _ operands =>
    eachInput (complainOf "sum") (fun path text => do
      let digits := toString (Digest.turningSum (bytesOf text))
      put (.ofList (List.replicate (5 - digits.length) '0') ++ digits ++ " " ++
        padLeft 5 (toString ((text.length + 1023) / 1024)) ++
        (if operands.isEmpty then "" else " " ++ path) ++ "\n")) (inputsOf operands)

end

end Classwright.Tool
