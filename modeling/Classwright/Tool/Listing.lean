import Classwright.Tool.Files
import Classwright.Tool.Sort

namespace Classwright.Tool

open Shell

def lsSpecs : List OptionSpec :=
  [flag "a" "all", flag "A" "almost-all", flag "b" "escape", flag "B" "ignore-backups", flag "c" "",
    flag "C" "", ⟨"color", "color", .maybe⟩, flag "d" "directory", flag "f" "",
    ⟨"F", "classify", .maybe⟩, flag "g" "", flag "G" "no-group", flag "h" "human-readable",
    flag "i" "inode", valued "I" "ignore", flag "k" "kibibytes", flag "l" "",
    flag "L" "dereference", flag "H" "", flag "m" "", flag "n" "numeric-uid-gid",
    flag "N" "literal",
    flag "o" "", flag "p" "", flag "q" "hide-control-chars", flag "Q" "quote-name",
    flag "r" "reverse", flag "R" "recursive", flag "s" "size", flag "S" "", valued "sort" "sort",
    flag "t" "", valued "T" "tabsize", flag "u" "", flag "U" "", flag "v" "", valued "w" "width",
    flag "x" "", flag "X" "", flag "1" "", valued "time-style" "time-style",
    valued "format" "format", flag "dirs" "group-directories-first", valued "hide" "hide",
    flag "show" "show-control-chars"]

structure Listed where
  name : String
  path : String
  entry : Entry
  size : Nat
  executable : Bool

namespace Listed

def isDirectory (l : Listed) : Bool := l.entry == .kind .directory

def mark (l : Listed) (given : Given) : String :=
  if l.isDirectory then if given.has "F" || given.has "p" then "/" else ""
  else if !given.has "F" then ""
  else match l.entry with
    | .link _ => if given.has "l" then "" else "@"
    | _ => if l.executable then "*" else ""

def label (l : Listed) (given : Given) : String :=
  (if given.has "Q" then "\"" ++ l.name ++ "\"" else l.name) ++ l.mark given

def extension (name : String) : String :=
  let cs := name.toList.reverse
  let behind := cs.takeWhile (· != '.')
  if behind.length == cs.length then "" else .ofList ('.' :: behind.reverse)

def precedes (given : Given) (a b : Listed) : Bool :=
  let byName := compareBytes a.name.toList b.name.toList
  let order :=
    if given.has "S" then (compare b.size a.size).then byName
    else if given.has "X" then
      (compareBytes (extension a.name).toList (extension b.name).toList).then byName
    else if given.has "v" then
      (compareVersions (a.name.length + b.name.length + 1) a.name.toList b.name.toList).then byName
    else byName
  let order := if given.has "r" then order.swap else order
  if given.has "dirs" && a.isDirectory != b.isDirectory then a.isDirectory else order != .gt

def sorted (given : Given) (ls : List Listed) : List Listed :=
  if given.has "U" || given.has "f" then ls else ls.mergeSort (precedes given)

def blocks (l : Listed) : Nat := (l.size + 4095) / 4096 * 4

def details (given : Given) (width : Nat) (l : Listed) : String :=
  let mode := match l.entry with
    | .link _ => "lrwxrwxrwx 1 "
    | .kind .directory => "drwxr-xr-x 2 "
    | .kind .file => if l.executable then "-rwxr-xr-x 1 " else "-rw-r--r-- 1 "
  let owner := if given.has "n" then "0" else "root"
  let owners := (if given.has "g" then [] else [owner]) ++
    (if given.has "o" || given.has "G" then [] else [owner])
  mode ++ String.join (owners.map (· ++ " ")) ++ padLeft width (toString l.size) ++
    " Jan  1 00:00 "

end Listed

section

variable {m : Type → Type} [Monad m]

def listed (through : Bool) (name path : String) : ShellM m (Option Listed) := do
  let entry ←
    match ← occupant? path with
    | some (.link target) =>
      if through then do
        match ← kindOf? path with
        | some kind => pure (some (.kind kind))
        | none => pure (some (.link target))
      else pure (some (.link target))
    | entry => pure entry
  match entry with
  | none => return none
  | some entry =>
    let size ←
      match entry with
      | .link target => pure target.length
      | .kind .directory => pure 4096
      | .kind .file => do pure (((← readInput path).toOption).getD "").length
    let executable ← onHost (·.isExecutable (← fullPath path))
    return some ⟨name, path, entry, size, executable⟩

-- Texts next to each other, two columns apart; tabs are used where they save blanks.
def inRow (column : Nat) : List String → String
  | [] => ""
  | [text] => text
  | text :: rest =>
    let stop := column + text.length + 2
    text ++ gap 2 (column + text.length) stop ++ inRow stop rest
where
  gap : Nat → Nat → Nat → String
    | 0, _, _ => ""
    | limit + 1, column, stop =>
      if stop ≤ column then ""
      else if (column + 1) / 8 < stop / 8 then "\t" ++ gap limit (column / 8 * 8 + 8) stop
      else " " ++ gap limit (column + 1) stop

def listingText (given : Given) (totals : Bool) (ls : List Listed) : ShellM m String := do
  let ls := Listed.sorted given ls
  let isLong := ["l", "n", "g", "o"].any given.has
  let width := (ls.map fun l => (toString l.size).length).foldl max 0
  let line (l : Listed) : String :=
    let target := match l.entry with
      | .link target => if isLong then " -> " ++ target else ""
      | _ => ""
    (if given.has "i" then "1 " else "") ++
      (if given.has "s" then toString l.blocks ++ " " else "") ++
      (if isLong then l.details given width else "") ++ l.label given ++ target
  let total := if totals && (isLong || given.has "s") then
    "total " ++ toString ((ls.map (·.blocks)).foldl (· + ·) 0) ++ "\n" else ""
  if given.has "m" then
    return if ls.isEmpty then "" else ", ".intercalate (ls.map line) ++ "\n"
  else if (given.has "C" || given.has "x") && !isLong then
    return if ls.isEmpty then "" else inRow 0 (ls.map line) ++ "\n"
  else return total ++ String.join (ls.map fun l => line l ++ "\n")

def shownEntries (given : Given) (path : String) : ShellM m (List Listed) := do
  let names ← entriesOf path
  let hidden (name : String) : Bool := name.startsWith "."
  let ignored := given.values "I" ++
    if given.has "a" || given.has "A" then [] else given.values "hide"
  let isIgnored (name : String) : Bool :=
    ignored.any (fun pattern => Wildcard.isMatch (Wildcard.ofText pattern) name.toList) ||
      (given.has "B" && name.endsWith "~")
  let showsAll := given.has "a" || given.has "f"
  let names := if showsAll then "." :: ".." :: names
    else if given.has "A" then names
    else names.filter (!hidden ·)
  let all ← (names.filter (!isIgnored ·)).mapM fun name =>
    listed (given.has "L") name (inside path name)
  return all.filterMap id

def listDirectory (given : Given) : Nat → Bool → Bool → String → ShellM m (String × Nat)
  | 0, _, _, _ => return ("", 1)
  | depth + 1, titled, first, path => do
    match ← onHost (·.list (← fullPath path)) with
    | .error fault =>
      complain "ls" ("cannot open directory " ++ quoted path ++ ": " ++ fault.reason)
      return ("", 2)
    | .ok _ =>
      let ls ← shownEntries given path
      let title := if titled then (if first then "" else "\n") ++ path ++ ":\n" else ""
      let text := title ++ (← listingText given true ls)
      if !given.has "R" then return (text, 0)
      else
        let below := (Listed.sorted given ls).filter fun l =>
          l.isDirectory && l.name != "." && l.name != ".."
        below.foldlM (fun (text, status) l => do
          let (more, other) ← listDirectory given depth true false l.path
          return (text ++ more, max status other)) (text, 0)

def ls : Action m := fun words => withOptions "ls" lsSpecs 2 words fun given operands => do
  let through := given.has "L" ||
    !(given.has "d" || given.has "F" || ["l", "n", "g", "o"].any given.has)
  let mut status := 0
  let mut found : List Listed := []
  for path in if operands.isEmpty then ["."] else operands do
    match ← listed through path path with
    | some l => found := l :: found
    | none =>
      complain "ls" ("cannot access " ++ quoted path ++ ": " ++ (← absence path).reason)
      status := 2
  let isOpened (l : Listed) : Bool := l.isDirectory && !given.has "d"
  let files := found.reverse.filter (!isOpened ·)
  let directories := Listed.sorted given (found.reverse.filter isOpened)
  let text ← listingText given false files
  let titled := 1 < operands.length || given.has "R"
  let (text, worst) ← directories.foldlM (fun (text, worst) l => do
    let (more, other) ← listDirectory given maxWalk titled (text == "") l.path
    return (text ++ more, max worst other)) (text, status)
  put text
  return worst

end

end Classwright.Tool
