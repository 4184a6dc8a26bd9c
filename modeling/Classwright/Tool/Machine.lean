import Classwright.Tool.Files

namespace Classwright.Tool

open Shell

structure Day where
  year : Nat
  month : Nat
  day : Nat

def Day.ofCount (count : Nat) : Day :=
  let z := count + 719468
  let era := z / 146097
  let inEra := z % 146097
  let yearOfEra := (inEra - inEra / 1460 + inEra / 36524 - inEra / 146096) / 365
  let dayOfYear := inEra - (365 * yearOfEra + yearOfEra / 4 - yearOfEra / 100)
  let shifted := (5 * dayOfYear + 2) / 153
  let day := dayOfYear - (153 * shifted + 2) / 5 + 1
  let month := if shifted < 10 then shifted + 3 else shifted - 9
  ⟨yearOfEra + era * 400 + (if month ≤ 2 then 1 else 0), month, day⟩

def dayCount (year : Nat) : Nat :=
  let before := year - 1
  before * 365 + before / 4 - before / 100 + before / 400 - 719162

def weekdays : List String :=
  ["Thursday", "Friday", "Saturday", "Sunday", "Monday", "Tuesday", "Wednesday"]

def months : List String := ["January", "February", "March", "April", "May", "June", "July",
  "August", "September", "October", "November", "December"]

def twoDigits (n : Nat) : String := (if n < 10 then "0" else "") ++ toString n

-- What a directive of a date format stands for, so many seconds behind the start of 1970.
def dateDirective? (seconds : Nat) (c : Char) : Option String :=
  let count := seconds / 86400
  let day := Day.ofCount count
  let hour := seconds / 3600 % 24
  let minute := seconds / 60 % 60
  let weekday := (weekdays[count % 7]?).getD ""
  let month := (months[day.month - 1]?).getD ""
  let short (name : String) : String := .ofList (name.toList.take 3)
  let date := toString day.year ++ "-" ++ twoDigits day.month ++ "-" ++ twoDigits day.day
  let time := twoDigits hour ++ ":" ++ twoDigits minute ++ ":" ++ twoDigits (seconds % 60)
  match c with
  | 'Y' => some (toString day.year)
  | 'm' => some (twoDigits day.month)
  | 'd' => some (twoDigits day.day)
  | 'e' => some (padLeft 2 (toString day.day))
  | 'H' => some (twoDigits hour)
  | 'M' => some (twoDigits minute)
  | 'S' => some (twoDigits (seconds % 60))
  | 'N' => some "000000000"
  | 's' => some (toString seconds)
  | 'F' => some date
  | 'T' => some time
  | 'R' => some (twoDigits hour ++ ":" ++ twoDigits minute)
  | 'D' => some (twoDigits day.month ++ "/" ++ twoDigits day.day ++ "/" ++
      twoDigits (day.year % 100))
  | 'y' => some (twoDigits (day.year % 100))
  | 'a' => some (short weekday)
  | 'A' => some weekday
  | 'b' => some (short month)
  | 'h' => some (short month)
  | 'B' => some month
  | 'u' => some (toString ((count + 3) % 7 + 1))
  | 'w' => some (toString ((count + 4) % 7))
  | 'j' =>
    let days := count - dayCount day.year
    some (.ofList (List.replicate (3 - (toString (days + 1)).length) '0') ++ toString (days + 1))
  | 'Z' => some "UTC"
  | 'z' => some "+0000"
  | 'n' => some "\n"
  | 't' => some "\t"
  | '%' => some "%"
  | _ => none

def dateText (seconds : Nat) : List Char → String
  | '%' :: c :: rest =>
    (dateDirective? seconds c).getD (.ofList ['%', c]) ++ dateText seconds rest
  | c :: rest => .singleton c ++ dateText seconds rest
  | [] => ""

section

variable {m : Type → Type} [Monad m]

def date : Action m := fun words =>
  let specs := [valued "d" "date", flag "u" "utc", ⟨"I", "iso-8601", .maybe⟩, flag "R" "rfc-email",
    valued "r" "reference", valued "s" "set"]
  withOptions "date" specs 1 words fun given operands => do
    let seconds? : Option Nat := match given.value? "d" with
      | none => some 0
      | some text =>
        match text.toList with
        | '@' :: digits => digitsValue? 10 digits
        | _ => some 0
    match seconds?, operands with
    | none, _ =>
      complain "date" ("invalid date " ++ quoted ((given.value? "d").getD ""))
      return 1
    | some _, _ :: extra :: _ => misuse "date" ("extra operand " ++ quoted extra) 1
    | some seconds, _ =>
      let format := operands.headD (if given.has "I" then "+%F"
        else if given.has "R" then "+%a, %d %b %Y %T %z" else "+%a %b %e %T %Z %Y")
      match format.toList with
      | '+' :: cs =>
        put (dateText seconds cs ++ "\n")
        return 0
      | _ =>
        complain "date" ("invalid date " ++ quoted format)
        return 1

def statDirective? (path : String) (entry : Entry) (size : Nat) (executable : Bool) (c : Char) :
    Option String :=
  let mode := match entry with
    | .link _ => ("777", "lrwxrwxrwx")
    | .kind .directory => ("755", "drwxr-xr-x")
    | .kind .file => if executable then ("755", "-rwxr-xr-x") else ("644", "-rw-r--r--")
  match c with
  | 'n' => some path
  | 'N' => some (match entry with
    | .link target => quoted path ++ " -> " ++ quoted target
    | _ => quoted path)
  | 's' => some (toString size)
  | 'F' => some (match entry with
    | .link _ => "symbolic link"
    | .kind .directory => "directory"
    | .kind .file => if size == 0 then "regular empty file" else "regular file")
  | 'a' => some mode.1
  | 'A' => some mode.2
  | 'U' => some "root"
  | 'G' => some "root"
  | 'u' => some "0"
  | 'g' => some "0"
  | 'h' => some (if entry == .kind .directory then "2" else "1")
  | 'B' => some "512"
  | 'b' => some (toString ((size + 4095) / 4096 * 8))
  | 'X' => some "0"
  | 'Y' => some "0"
  | 'Z' => some "0"
  | '%' => some "%"
  | _ => none

def statText (directive? : Char → Option String) : List Char → String
  | '%' :: c :: rest => (directive? c).getD "?" ++ statText directive? rest
  | c :: rest => .singleton c ++ statText directive? rest
  | [] => ""

-- Everything belongs to the user with all rights, and no time passes.
def stat : Action m := fun words =>
  let specs := [valued "c" "format", valued "printf" "printf", flag "L" "dereference",
    flag "t" "terse", flag "f" "file-system"]
  withOptions "stat" specs 1 words fun given operands => do
    if operands.isEmpty then misuse "stat" "missing operand" 1
    else
      onEach (fun path => do
        let occupied? ←
          if given.has "L" then do pure ((← kindOf? path).map Entry.kind) else occupant? path
        match occupied? with
        | none =>
          complain "stat" ("cannot statx " ++ quoted path ++ ": " ++ (← absence path).reason)
          return 1
        | some entry =>
          let size ←
            match entry with
            | .link target => pure target.length
            | .kind .directory => pure 4096
            | .kind .file => do pure (((← readInput path).toOption).getD "").length
          let executable ← onHost (·.isExecutable (← fullPath path))
          let directive? := statDirective? path entry size executable
          match given.value? "printf", given.value? "c" with
          | some format, _ => put (statText directive? (unescaped format).1.toList)
          | none, some format => put (statText directive? format.toList ++ "\n")
          | none, none =>
            put (statText directive? "  File: %n\n  Size: %s\tBlocks: %b\t%F\n".toList)
          return 0) operands

def saying (text : String) : Action m := fun _ => do
  put (text ++ "\n")
  return 0

def identity : Action m := fun words =>
  let specs := [flag "u" "user", flag "g" "group", flag "G" "groups", flag "n" "name",
    flag "r" "real"]
  withOptions "id" specs 1 words fun given operands => do
    match operands with
    | user :: _ =>
      if user != "root" && user != "0" then
        complain "id" (quoted user ++ ": no such user")
        return 1
    | [] => pure ()
    let named := given.has "u" || given.has "g" || given.has "G"
    put (if !named then "uid=0(root) gid=0(root) groups=0(root)\n"
      else if given.has "n" then "root\n" else "0\n")
    return 0

def uname : Action m := fun words =>
  let specs := [flag "a" "all", flag "s" "kernel-name", flag "n" "nodename",
    flag "r" "kernel-release", flag "v" "kernel-version", flag "m" "machine", flag "p" "processor",
    flag "i" "hardware-platform", flag "o" "operating-system"]
  withOptions "uname" specs 1 words fun given _ => do
    let parts := [("s", "Linux"), ("n", "localhost"), ("r", "6.0.0"), ("v", "#1"), ("m", "x86_64"),
      ("o", "Linux")].filterMap fun (key, text) =>
        if given.has key || given.has "a" || (given.isEmpty && key == "s") then some text else none
    put (" ".intercalate parts ++ "\n")
    return 0

def tty : Action m := fun words => do
  if !words.contains "-s" then put "not a tty\n"
  return 1

end

end Classwright.Tool
