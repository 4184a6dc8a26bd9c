import Classwright.Number.Places
import Classwright.Shell.Arithmetic

namespace Classwright.Shell

def letterEscapes : List (Char × Char) :=
  [('\\', '\\'), ('a', '\x07'), ('b', '\x08'), ('f', '\x0c'), ('n', '\n'), ('r', '\r'),
    ('t', '\t'), ('v', '\x0b')]

def octalByte (digits : List Char) : Char := .ofNat ((digitsValue? 8 digits).getD 0 % 256)

def isOctal (c : Char) : Bool := '0' ≤ c && c ≤ '7'

-- The octal digits at the start of a text, `limit` at most, and what follows them.
def takeOctal (limit : Nat) (cs : List Char) : List Char × List Char :=
  let digits := (cs.take limit).takeWhile isOctal
  (digits, cs.drop digits.length)

-- Reads an escape behind its backslash; one without a meaning is a backslash.
def readEscape (cs : List Char) : Char × List Char :=
  match cs with
  | [] => ('\\', [])
  | c :: rest =>
    if isOctal c then
      let (digits, rest) := takeOctal 3 cs
      (octalByte digits, rest)
    else match letterEscapes.lookup c with
      | some byte => (byte, rest)
      | none => ('\\', cs)

def unescape : Nat → List Char → List Char × Bool
  | 0, _ => ([], false)
  | limit + 1, cs =>
    match cs with
    | [] => ([], false)
    | '\\' :: 'c' :: _ => ([], true)
    | '\\' :: '0' :: rest =>
      let (digits, rest) := takeOctal 3 rest
      follow limit (octalByte ('0' :: digits)) rest
    | '\\' :: rest =>
      let (byte, rest) := readEscape rest
      follow limit byte rest
    | c :: rest => follow limit c rest
where
  follow (limit : Nat) (byte : Char) (rest : List Char) : List Char × Bool :=
    let (text, ended) := unescape limit rest
    (byte :: text, ended)

def unescaped (text : String) : String × Bool :=
  let (cs, ended) := unescape (text.length + 1) text.toList
  (.ofList cs, ended)

structure Directive where
  flags : List Char
  width : Nat
  precision : Option Nat
  deriving Repr, DecidableEq

namespace Directive

def has (d : Directive) (flag : Char) : Bool := d.flags.contains flag

-- Fills a text up; `mark` is a sign or the mark of a base, which zeros follow.
def pad (d : Directive) (zeros : Bool) (mark text : String) : String :=
  let missing := d.width - (mark.length + text.length)
  let filling (c : Char) : String := .ofList (List.replicate missing c)
  if d.has '-' then mark ++ text ++ filling ' '
  else if zeros && d.has '0' then mark ++ filling '0' ++ text
  else filling ' ' ++ mark ++ text

def string (d : Directive) (text : String) : String :=
  d.pad false "" (match d.precision with
    | some n => .ofList (text.toList.take n)
    | none => text)

def sign (d : Directive) (negative : Bool) : String :=
  if negative then "-" else if d.has '+' then "+" else if d.has ' ' then " " else ""

def digits (d : Directive) (text : String) : String :=
  match d.precision with
  | some 0 => if text == "0" then "" else text
  | some n => .ofList (List.replicate (n - text.length) '0') ++ text
  | none => text

def signed (d : Directive) (n : Int) : String :=
  d.pad d.precision.isNone (d.sign (n < 0)) (d.digits (toString n.natAbs))

def unsigned (d : Directive) (letter : Char) (n : Nat) : String :=
  let base := if letter == 'o' then 8 else if letter == 'u' then 10 else 16
  let text : String := .ofList (Nat.toDigits base n)
  let text := d.digits (if letter == 'X' then text.map Char.toUpper else text)
  let text :=
    if letter == 'o' && d.has '#' && !text.startsWith "0" then "0" ++ text else text
  let mark :=
    if d.has '#' && n != 0 && (letter == 'x' || letter == 'X') then "0" ++ .singleton letter else ""
  d.pad d.precision.isNone mark text

def real (d : Directive) (letter : Char) (x : Binary64) : String :=
  let places := d.precision.getD 6
  let isUpper := letter.isUpper
  let f := x.magnitude
  let mark := if isUpper then 'E' else 'e'
  let (text, isFinite) : String × Bool :=
    match x with
    | .nan => ("nan", false)
    | .infinite _ => ("inf", false)
    | _ =>
      (match letter.toLower with
        | 'f' => f.fixed places (d.has '#')
        | 'e' => f.scientific places (d.has '#') mark
        | _ => f.general places (d.has '#') mark, true)
  d.pad isFinite (d.sign x.isNegative)
    (if isUpper && !isFinite then text.map Char.toUpper else text)

end Directive

structure Printing where
  arguments : List String
  consumed : Bool
  status : Nat
  output : List String

def outOfRange : String := "Numerical result out of range"

section

variable {m : Type → Type} [Monad m]

abbrev Print (m : Type → Type) := StateT Printing (ShellM m)

namespace Print

def emit (text : String) : Print m Unit := modify fun p => { p with output := text :: p.output }

def argument? : Print m (Option String) := do
  let p ← get
  match p.arguments with
  | [] => return none
  | a :: rest =>
    set { p with arguments := rest, consumed := true }
    return some a

def warn (text : String) (status : Nat) : Print m Unit := do
  StateT.lift (complain text)
  modify fun p => { p with status := status }

def number (isSigned : Bool) : Print m Int := do
  match ← argument? with
  | none => return 0
  | some text =>
    match text.toList with
    | '\'' :: c :: _ => return c.toNat
    | '"' :: c :: _ => return c.toNat
    | cs =>
      let trimmed := cs.dropWhile Text.ByteClass.isSpace
      let (negative, unsigned) :=
        match trimmed with
        | '-' :: rest => (true, rest)
        | '+' :: rest => (false, rest)
        | cs => (false, cs)
      match readNatural unsigned with
      | none =>
        if !cs.isEmpty then warn (text ++ ": expected numeric value") 1
        return 0
      | some (n, rest) =>
        let value : Int := if negative then -n else n
        let (low, high) : Int × Int :=
          if isSigned then (-(twoTo 63), twoTo 63 - 1) else (-(twoTo 64) + 1, twoTo 64 - 1)
        if !rest.isEmpty then warn (text ++ ": not completely converted") 1
        else if value < low || high < value then warn (text ++ ": " ++ outOfRange) 1
        return max low (min high value)

def realNumber : Print m Binary64 := do
  match ← argument? with
  | none => return .zero false
  | some text =>
    match text.toList with
    | '\'' :: c :: _ => return .ofDecimal false c.toNat 0
    | '"' :: c :: _ => return .ofDecimal false c.toNat 0
    | cs =>
      let (negative, unsigned) :=
        match cs.dropWhile Text.ByteClass.isSpace with
        | '-' :: rest => (true, rest)
        | '+' :: rest => (false, rest)
        | cs => (false, cs)
      match Binary64.readDecimal negative unsigned with
      | some (x, rest) =>
        if !rest.isEmpty then warn (text ++ ": not completely converted") 1
        return x
      | none =>
        if !cs.isEmpty then warn (text ++ ": expected numeric value") 1
        return .zero false

def size (cs : List Char) : Print m (Int × List Char) := do
  match cs with
  | '*' :: rest => return (← number true, rest)
  | cs =>
    let digits := cs.takeWhile Char.isDigit
    return ((digitsValue? 10 digits).getD 0, cs.drop digits.length)

-- Prints what a directive asks for; tells whether the output ends there.
def directive (start : String) (d : Directive) (letter : Char) : Print m Bool := do
  match letter with
  | 'b' =>
    let (text, ended) := unescaped ((← argument?).getD "")
    emit (d.string text)
    return ended
  | 'c' =>
    let c := ((← argument?).getD "").toList.headD '\x00'
    emit (d.pad false "" (.singleton c))
    return false
  | 's' =>
    emit (d.string ((← argument?).getD ""))
    return false
  | letter =>
    if letter == 'd' || letter == 'i' then emit (d.signed (← number true))
    else if "ouxX".toList.contains letter then
      emit (d.unsigned letter ((← number false) % twoTo 64).toNat)
    else if "eEfFgG".toList.contains letter then emit (d.real letter (← realNumber))
    else warn (start ++ ": invalid directive") 2
    return (← get).status == 2

-- Prints a format once; tells whether the output ends there.
def once : Nat → List Char → Print m Bool
  | 0, _ => return true
  | limit + 1, cs => do
    match cs with
    | [] => return false
    | '\\' :: rest =>
      let (byte, rest) := readEscape rest
      emit (.singleton byte)
      once limit rest
    | '%' :: '%' :: rest =>
      emit "%"
      once limit rest
    | '%' :: rest =>
      let flags := rest.takeWhile "#-+ 0".toList.contains
      let (width, behind) ← size (rest.drop flags.length)
      let (precision, behind) ←
        match behind with
        | '.' :: behind => do
          let (n, behind) ← size behind
          pure (if n < 0 then none else some n.toNat, behind)
        | behind => pure (none, behind)
      match behind with
      | [] => do
        warn "missing format character" 2
        return true
      | letter :: behind =>
        let start := String.ofList ('%' :: rest.take (rest.length - behind.length))
        let flags := if width < 0 then '-' :: flags else flags
        if ← directive start ⟨flags, width.natAbs, precision⟩ letter then return true
        once limit behind
    | c :: rest =>
      emit (.singleton c)
      once limit rest

def again (format : String) : Nat → Print m Unit
  | 0 => return
  | limit + 1 => do
    modify fun p => { p with consumed := false }
    if ← once (format.length + 1) format.toList then return
    let p ← get
    if p.consumed && !p.arguments.isEmpty then again format limit

end Print

def printFormat (format : String) (arguments : List String) : ShellM m Nat := do
  let (_, p) ← (Print.again format (arguments.length + 1)).run ⟨arguments, false, 0, []⟩
  put (String.join p.output.reverse)
  if p.status == 2 then throw (.fault 2)
  return p.status

end

end Classwright.Shell
