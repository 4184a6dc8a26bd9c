import Classwright.Tool.Names
import Classwright.Tool.Show

namespace Classwright.Tool

open Shell

def maxWalk : Nat := 2000

section

variable {m : Type → Type} [Monad m]

inductive Entry where
  | link (target : String)
  | kind (kind : FileKind)
  deriving DecidableEq

def occupant? (path : String) : ShellM m (Option Entry) := do
  let full ← fullPath path
  match ← onHost (·.linkTarget? full) with
  | some target => return some (.link target)
  | none => return (← kindOf? path).map .kind

def isDirectory (path : String) : ShellM m Bool := return (← kindOf? path) == some .directory

def absence (path : String) : ShellM m FileFault := do
  match ← onHost (·.readBytes (← fullPath path)) with
  | .error fault => return fault
  | .ok _ => return .notFound

-- The names of the absolute path of a file, with links followed; the rest may be missing.
def follow : Nat → List String → List String → ShellM m (List String)
  | 0, place, _ => return place
  | _, place, [] => return place
  | limit + 1, place, name :: rest => do
    if name == "" || name == "." then follow limit place rest
    else if name == ".." then follow limit place.dropLast rest
    else
      let next := place ++ [name]
      match ← onHost (·.linkTarget? ("/" ++ "/".intercalate next)) with
      | some target =>
        follow limit (if Path.isAbsolute target then [] else place) (Path.names target ++ rest)
      | none => follow limit next rest

def canonical (path : String) : ShellM m String := do
  let names := Path.names (← fullPath path)
  return "/" ++ "/".intercalate (← follow (names.length + 1000) [] names)

def relativePath (start path : String) : String :=
  go (Path.names start) (Path.names path)
where
  go (from' to' : List String) : String :=
    match from', to' with
    | a :: as, b :: bs =>
      if a == b then go as bs else climb (a :: as) (b :: bs)
    | from', to' => climb from' to'
  climb (from' to' : List String) : String :=
    let names := from'.map (fun _ => "..") ++ to'
    if names.isEmpty then "." else "/".intercalate names

def entriesOf (path : String) : ShellM m (List String) := do
  match ← onHost (·.list (← fullPath path)) with
  | .ok names => return names
  | .error _ => return []

def inside (directory name : String) : String :=
  if directory.endsWith "/" then directory ++ name else directory ++ "/" ++ name

def attempt (change : Host m → String → m (Except FileFault Unit)) (path : String) :
    ShellM m (Except FileFault Unit) := do
  let full ← fullPath path
  onHost (change · full)

-- Complains if a change fails; the text stands before the reason.
def reporting (program text : String) (result : Except FileFault Unit) : ShellM m Nat :=
  match result with
  | .ok () => return 0
  | .error fault => do
    complain program (text ++ ": " ++ fault.reason)
    return 1

-- Does something with each of some things; the status is the greatest one.
def onEach {α : Type} (action : α → ShellM m Nat) (xs : List α) : ShellM m Nat :=
  xs.foldlM (fun status x => do return max status (← action x)) 0

def removeTree (verbose force : Bool) : Nat → String → ShellM m Nat
  | 0, _ => return 1
  | depth + 1, path => do
    let entry ← occupant? path
    let inner ←
      if entry == some (.kind .directory) then
        onEach (fun name => removeTree verbose force depth (inside path name)) (← entriesOf path)
      else pure 0
    match ← attempt (·.remove) path with
    | .ok () =>
      if verbose then
        let what := if entry == some (.kind .directory) then "removed directory " else "removed "
        put (what ++ quoted path ++ "\n")
      return inner
    | .error fault =>
      if force && fault == .notFound then return inner
      complain "rm" ("cannot remove " ++ quoted path ++ ": " ++ fault.reason)
      return 1

def rmSpecs : List OptionSpec :=
  [flag "f" "force", flag "i" "", flag "I" "", flag "interactive" "interactive",
    flag "r" "recursive", flag "R" "", flag "d" "dir", flag "v" "verbose",
    flag "one-file-system" "one-file-system", flag "no-preserve-root" "no-preserve-root",
    flag "preserve-root" "preserve-root"]

def rm : Action m := fun words => withOptions "rm" rmSpecs 1 words fun given operands => do
  let force := given.last? ["f", "i"] == some "f"
  let asks := given.last? ["f", "i"] == some "i"
  let recursive := given.has "r" || given.has "R"
  if operands.isEmpty then if force then return 0 else misuse "rm" "missing operand" 1
  else
    onEach (fun path => do
      let last := lastName path
      let cannot (fault : FileFault) : ShellM m Nat := do
        complain "rm" ("cannot remove " ++ quoted path ++ ": " ++ fault.reason)
        return 1
      if recursive && (last == "." || last == "..") then
        complain "rm" ("refusing to remove '.' or '..' directory: skipping " ++ quoted path)
        return 1
      else if recursive && last == "/" then
        complain "rm" "it is dangerous to operate recursively on '/'"
        complain "rm" "use --no-preserve-root to override this failsafe"
        return 1
      else match ← occupant? path with
        | none =>
          let fault ← absence path
          if force && (fault == .notFound || fault == .notDirectory) then return 0
          else cannot fault
        | some (.kind .directory) =>
          if recursive then removeTree (given.has "v") force maxWalk path
          else if !given.has "d" then cannot .isDirectory
          else match ← attempt (·.remove) path with
            | .ok () => return 0
            | .error fault => cannot fault
        | some _ =>
          if asks then
            putError ("rm: remove regular " ++
              (if (← readInput path).toOption == some "" then "empty " else "") ++ "file " ++
              quoted path ++ "? ")
            let answer ← readAll 0
            if answer.startsWith "y" || answer.startsWith "Y" then
              removeTree (given.has "v") force maxWalk path
            else return 0
          else removeTree (given.has "v") force maxWalk path) operands

def upward (path : String) : List String := Path.ancestors path

def rmdir : Action m := fun words =>
  let specs := [flag "p" "parents", flag "v" "verbose",
    flag "ignore" "ignore-fail-on-non-empty"]
  withOptions "rmdir" specs 1 words fun given operands => do
    if operands.isEmpty then misuse "rmdir" "missing operand" 1
    else
      let one (path : String) : ShellM m Nat := do
        if given.has "v" then put ("rmdir: removing directory, " ++ quoted path ++ "\n")
        let fail (fault : FileFault) : ShellM m Nat := do
          complain "rmdir" ("failed to remove " ++ quoted path ++ ": " ++ fault.reason)
          return 1
        match ← occupant? path with
        | none => fail (← absence path)
        | some (.kind .directory) =>
          if lastName path == "." then fail .invalid
          else match ← attempt (·.remove) path with
            | .ok () => return 0
            | .error .notEmpty => if given.has "ignore" then return 0 else fail .notEmpty
            | .error fault => fail fault
        | some _ => fail .notDirectory
      onEach (fun path =>
        if given.has "p" then
          (upward path).foldlM (fun status path => do
            if status != 0 then return status else one path) 0
        else one path) operands

def mkdir : Action m := fun words =>
  let specs := [flag "p" "parents", valued "m" "mode", flag "v" "verbose"]
  withOptions "mkdir" specs 1 words fun given operands => do
    if operands.isEmpty then misuse "mkdir" "missing operand" 1
    else
      let announce (path : String) : ShellM m Unit := do
        if given.has "v" then put ("mkdir: created directory " ++ quoted path ++ "\n")
      let fail (path : String) (fault : FileFault) : ShellM m Nat := do
        complain "mkdir" ("cannot create directory " ++ quoted path ++ ": " ++ fault.reason)
        return 1
      let one (path : String) : ShellM m Nat := do
        match ← attempt (·.makeDirectory) path with
        | .ok () =>
          announce path
          return 0
        | .error fault => fail path fault
      let chain (path : String) : ShellM m Nat := do
        if path == "" then fail path .notFound
        else
          (upward path).reverse.foldlM (fun status part => do
            if status != 0 then return status
            else if ← isDirectory part then return 0
            else if part != path && (← kindOf? part).isSome then fail part .notDirectory
            else one part) 0
      onEach (if given.has "p" then chain else one) operands

def touch : Action m := fun words =>
  let specs := [flag "a" "", flag "c" "no-create", valued "d" "date", flag "h" "no-dereference",
    flag "m" "", valued "r" "reference", valued "t" "", flag "f" "", valued "time" "time"]
  withOptions "touch" specs 1 words fun given operands => do
    if operands.isEmpty then misuse "touch" "missing file operand" 1
    else
      onEach (fun path => do
        if (← kindOf? path).isSome then return 0
        else
          let fault ← absence path
          if fault == .notDirectory && path.endsWith "/" then
            complain "touch" ("setting times of " ++ quoted path ++ ": " ++ fault.reason)
            return 1
          else if path.endsWith "/" then
            complain "touch" ("setting times of " ++ quoted path ++ ": " ++
              FileFault.notFound.reason)
            return 1
          else if given.has "c" && fault == .notFound then return 0
          else
            reporting "touch" ("cannot touch " ++ quoted path)
              (← attempt (fun host path => host.writeBytes path "") path)) operands

structure Copying where
  program : String
  recursive : Bool
  keepsLinks : Bool
  verbose : Bool
  keepsOld : Bool
  asks : Bool
  makesLinks : Bool
  backup : Option String

def isSameFile (a b : String) : ShellM m Bool := do
  if (← kindOf? b).isNone then return false
  return (← canonical a) == (← canonical b)

namespace Copying

def fail (c : Copying) (text : String) : ShellM m Nat := do
  complain c.program text
  return 1

def announce (c : Copying) (source target : String) : ShellM m Unit := do
  if c.verbose then put (quoted source ++ " -> " ++ quoted target ++ "\n")

def file (c : Copying) (source target : String) : ShellM m Nat := do
  match ← readInput source with
  | .error fault =>
    c.fail ("cannot open " ++ quoted source ++ " for reading: " ++ fault.reason)
  | .ok text =>
    let full ← fullPath target
    let isNew := (← kindOf? target).isNone
    if let some suffix := c.backup then
      if !isNew then
        let _ ← onHost fun host => host.rename full (full ++ suffix)
    let executable ← onHost (·.isExecutable (← fullPath source))
    match ← writeOutput target text with
    | .error fault =>
      let fault := if fault == .isDirectory then .notDirectory else fault
      c.fail ("cannot create regular file " ++ quoted target ++ ": " ++ fault.reason)
    | .ok () =>
      if isNew && executable then
        let _ ← onHost (·.setExecutable full true)
      c.announce source target
      return 0

def link (c : Copying) (target destination : String) : ShellM m Nat := do
  if (← occupant? target).isSome then
    let _ ← attempt (·.remove) target
  reporting c.program ("cannot create symbolic link " ++ quoted target)
    (← attempt (fun host path => host.makeLink path destination) target)

-- Copies what a path leads to; the copy of the whole, at `root`, is not copied again.
def tree (c : Copying) (root : String) : Nat → String → String → ShellM m Nat
  | 0, _, _ => return 1
  | depth + 1, source, target => do
    match ← occupant? source with
    | none =>
      c.fail ("cannot stat " ++ quoted source ++ ": " ++ (← absence source).reason)
    | some (.link destination) =>
      if c.keepsLinks then
        c.announce source target
        c.link target destination
      else go depth source target
    | some (.kind _) => go depth source target
where
  go (depth : Nat) (source target : String) : ShellM m Nat := do
    match ← kindOf? source with
    | none => c.fail ("cannot stat " ++ quoted source ++ ": " ++ (← absence source).reason)
    | some .file =>
      match ← kindOf? target with
      | some .directory =>
        c.fail ("cannot overwrite directory " ++ quoted target ++ " with non-directory")
      | some .file =>
        if c.keepsOld then return 0
        else if c.asks then
          putError (c.program ++ ": overwrite " ++ quoted target ++ "? ")
          if (← readAll 0).startsWith "y" then c.file source target else return 0
        else c.file source target
      | none => c.file source target
    | some .directory =>
      if !c.recursive then c.fail ("-r not specified; omitting directory " ++ quoted source)
      else if (← kindOf? target) == some .file then
        c.fail ("cannot overwrite non-directory " ++ quoted target ++ " with directory " ++
          quoted source)
      else
        let names ← entriesOf source
        let made ←
          if ← isDirectory target then pure (Except.ok ())
          else do
            c.announce source target
            attempt (·.makeDirectory) target
        match made with
        | .error fault =>
          c.fail ("cannot create directory " ++ quoted target ++ ": " ++ fault.reason)
        | .ok () =>
          onEach (fun name => do
            let path := inside source name
            if (← canonical path) == root then return 0
            else c.tree root depth path (inside target name)) names

def one (c : Copying) (source target : String) : ShellM m Nat := do
  if (← occupant? source).isSome && (← isSameFile source target) && !(← isDirectory source) then
    c.fail (quoted source ++ " and " ++ quoted target ++ " are the same file")
  else if c.makesLinks then
    reporting c.program ("cannot create symbolic link " ++ quoted target)
      (← attempt (fun host path => host.makeLink path source) target)
  else
    let place ← canonical source
    let root ← canonical target
    let status ← c.tree root maxWalk source target
    if c.recursive && (← isDirectory source) && (root == place || root.startsWith (place ++ "/"))
    then
      c.fail ("cannot copy a directory, " ++ quoted source ++ ", into itself, " ++ quoted target)
    else return status

end Copying

-- Splits operands into sources and a target; `into` tells whether the target is a directory.
def withTarget (program : String) (given : Given) (operands : List String)
    (go : Bool → List String → String → ShellM m Nat) : ShellM m Nat := do
  match given.value? "t" with
  | some directory =>
    if operands.isEmpty then misuse program "missing file operand" 1
    else if ← isDirectory directory then go true operands directory
    else
      complain program ("target directory " ++ quoted directory ++ ": " ++
        (← absence directory).reason)
      return 1
  | none =>
    match operands.reverse with
    | [] => misuse program "missing file operand" 1
    | [_] => missingOperand program operands "file "
    | target :: sources =>
      let isInto := !given.has "T" && (← isDirectory target)
      if isInto then go true sources.reverse target
      else if 1 < sources.length then
        if given.has "T" then misuse program ("extra operand " ++ quoted target) 1
        else
          let fault ← match ← kindOf? target with
            | some _ => pure FileFault.notDirectory
            | none => absence target
          complain program ("target " ++ quoted target ++ ": " ++ fault.reason)
          return 1
      else go false sources.reverse target

def backupSuffix? (given : Given) : Option String :=
  if given.has "b" || given.has "backup" || given.has "S" then
    some ((given.value? "S").getD "~")
  else none

def cpSpecs : List OptionSpec :=
  [flag "a" "archive", flag "b" "", ⟨"backup", "backup", .maybe⟩, flag "d" "", flag "f" "force",
    flag "i" "interactive", flag "H" "", flag "L" "dereference", flag "l" "link",
    flag "n" "no-clobber", flag "P" "no-dereference", flag "p" "", flag "R" "recursive",
    flag "r" "", flag "s" "symbolic-link", valued "S" "suffix", valued "t" "target-directory",
    flag "T" "no-target-directory", flag "u" "", ⟨"update", "update", .maybe⟩, flag "v" "verbose",
    flag "x" "one-file-system", flag "parents" "parents", ⟨"preserve", "preserve", .maybe⟩,
    valued "no-preserve" "no-preserve", flag "remove-destination" "remove-destination",
    flag "strip" "strip-trailing-slashes", ⟨"reflink", "reflink", .maybe⟩]

def cp : Action m := fun words => withOptions "cp" cpSpecs 1 words fun given operands => do
  let recursive := given.has "r" || given.has "R" || given.has "a"
  let c : Copying := {
    program := "cp"
    recursive := recursive
    keepsLinks := (recursive || given.has "P" || given.has "d") && !given.has "L"
    verbose := given.has "v"
    keepsOld := given.last? ["f", "i", "n"] == some "n" || given.has "u"
    asks := given.last? ["i", "n"] == some "i"
    makesLinks := given.has "s"
    backup := backupSuffix? given }
  withTarget "cp" given operands fun isInto sources target => do
    if given.has "parents" && !isInto then
      misuse "cp" "with --parents, the destination must be a directory" 1
    else if given.has "parents" then
      onEach (fun source => do
        let place := inside target source
        for directory in (upward (directoryOf place)).reverse do
          let _ ← attempt (·.makeDirectory) directory
        c.one source place) sources
    else if isInto then
      onEach (fun source => do
        let last := lastName source
        if last == ".." || last == "." then
          if recursive then c.one source (inside target last)
          else c.fail ("-r not specified; omitting directory " ++ quoted source)
        else c.one source (inside target last)) sources
    else
      onEach (fun source => do
        if target.endsWith "/" && (← kindOf? source) == some .file then
          c.fail ("cannot create regular file " ++ quoted target ++ ": " ++
            FileFault.notDirectory.reason)
        else c.one source target) sources

def mvSpecs : List OptionSpec :=
  [flag "b" "", flag "f" "force", flag "i" "interactive", flag "n" "no-clobber",
    valued "t" "target-directory", flag "T" "no-target-directory", flag "u" "",
    ⟨"update", "update", .maybe⟩, flag "v" "verbose", valued "S" "suffix",
    flag "strip" "strip-trailing-slashes", ⟨"backup", "backup", .maybe⟩]

def moveOne (given : Given) (source target : String) : ShellM m Nat := do
  let fail (text : String) : ShellM m Nat := do
    complain "mv" text
    return 1
  match ← occupant? source with
  | none => fail ("cannot stat " ++ quoted source ++ ": " ++ (← absence source).reason)
  | some entry =>
    let old ← occupant? target
    let isMoved := entry == .kind .directory
    let place ← canonical source
    let root ← canonical target
    if old.isSome && place == root && !isMoved then
      fail (quoted source ++ " and " ++ quoted target ++ " are the same file")
    else if lastName source == "." || lastName source == ".." then
      fail ("cannot move " ++ quoted source ++ " to " ++ quoted target ++
        ": Device or resource busy")
    else if isMoved && (root == place || root.startsWith (place ++ "/")) then
      fail ("cannot move " ++ quoted source ++ " to a subdirectory of itself, " ++ quoted target)
    else if old == some (.kind .directory) && !isMoved then
      fail ("cannot overwrite directory " ++ quoted target ++ " with non-directory")
    else if old.isSome && old != some (.kind .directory) && isMoved then
      fail ("cannot overwrite non-directory " ++ quoted target ++ " with directory " ++
        quoted source)
    else if old.isSome && given.last? ["f", "i", "n"] == some "n" then
      fail ("not replacing " ++ quoted target)
    else if old.isNone && target.endsWith "/" && !isMoved then
      fail ("cannot move " ++ quoted source ++ " to " ++ quoted target ++ ": " ++
        FileFault.notDirectory.reason)
    else
      let from' ← fullPath source
      let to' ← fullPath target
      if let some suffix := backupSuffix? given then
        if old.isSome then
          let _ ← onHost (·.rename to' (to' ++ suffix))
      match ← onHost (·.rename from' to') with
      | .ok () =>
        if given.has "v" then put ("renamed " ++ quoted source ++ " -> " ++ quoted target ++ "\n")
        return 0
      | .error .notEmpty =>
        fail ("cannot overwrite " ++ quoted target ++ ": " ++ FileFault.notEmpty.reason)
      | .error fault =>
        fail ("cannot move " ++ quoted source ++ " to " ++ quoted target ++ ": " ++ fault.reason)

def mv : Action m := fun words => withOptions "mv" mvSpecs 1 words fun given operands =>
  withTarget "mv" given operands fun isInto sources target =>
    onEach (fun source =>
      moveOne given source (if isInto then inside target (lastName source) else target)) sources

def lnSpecs : List OptionSpec :=
  [flag "s" "symbolic", flag "f" "force", flag "n" "no-dereference", flag "v" "verbose",
    flag "r" "relative", flag "T" "no-target-directory", valued "t" "target-directory",
    flag "b" "", flag "i" "interactive", flag "L" "logical", flag "P" "physical",
    valued "S" "suffix"]

-- Makes one link, to `source`, at `target`.
def linkOne (given : Given) (source target : String) : ShellM m Nat := do
  let symbolic := given.has "s"
  let fail (text : String) : ShellM m Nat := do
    complain "ln" text
    return 1
  let kind := if symbolic then "symbolic link" else "hard link"
  if !symbolic && (← occupant? source).isNone then
    fail ("failed to access " ++ quoted source ++ ": " ++ (← absence source).reason)
  else if !symbolic && (← occupant? source) == some (.kind .directory) then
    fail (quotedIfNeeded source ++ ": hard link not allowed for directory")
  else
    if (← occupant? target).isSome && given.has "f" then
      let _ ← attempt (·.remove) target
    let done ←
      if (← occupant? target).isSome then pure (Except.error FileFault.exists)
      else if symbolic then do
        let source ←
          if given.has "r" then
            pure (relativePath (← canonical (directoryOf target)) (← canonical source))
          else pure source
        attempt (fun host path => host.makeLink path source) target
      else match ← readInput source with
        | .ok text => attempt (fun host path => host.writeBytes path text) target
        | .error fault => pure (.error fault)
    match done with
    | .ok () =>
      if given.has "v" then
        put (quoted target ++ (if symbolic then " -> " else " => ") ++ quoted source ++ "\n")
      return 0
    | .error fault =>
      fail ("failed to create " ++ kind ++ " " ++ quoted target ++
        (if symbolic || fault == .exists then "" else " => " ++ quoted source) ++ ": " ++
        fault.reason)

def ln : Action m := fun words => withOptions "ln" lnSpecs 1 words fun given operands => do
  let into (target : String) : ShellM m Bool := do
    if given.has "T" then return false
    if given.has "n" && (← onHost (·.linkTarget? (← fullPath target))).isSome then return false
    isDirectory target
  match given.value? "t", operands.reverse with
  | some directory, _ =>
    onEach (fun source => linkOne given source (inside directory (lastName source))) operands
  | none, [] => misuse "ln" "missing file operand" 1
  | none, [source] => linkOne given source (inside "." (lastName source))
  | none, target :: sources =>
    if ← into target then
      onEach (fun source => linkOne given source (inside target (lastName source))) sources.reverse
    else match sources with
      | [source] => linkOne given source target
      | _ =>
        let fault ← match ← kindOf? target with
          | some _ => pure FileFault.notDirectory
          | none => absence target
        complain "ln" ("target " ++ quoted target ++ ": " ++ fault.reason)
        return 1

def unlink : Action m := fun words => withOptions "unlink" [] 1 words fun _ operands => do
  match operands with
  | [] => misuse "unlink" "missing operand" 1
  | [path] =>
    let result ←
      match ← occupant? path with
      | none => pure (Except.error (← absence path))
      | some (.kind .directory) => pure (.error .isDirectory)
      | some _ => attempt (·.remove) path
    reporting "unlink" ("cannot unlink " ++ quoted path) result
  | _ :: extra :: _ => misuse "unlink" ("extra operand " ++ quoted extra) 1

def modeEffect? (mode : String) : Option (Bool → Bool) :=
  match digitsValue? 8 mode.toList with
  | some n => some fun _ => n / 64 % 2 == 1 || n / 8 % 2 == 1 || n % 2 == 1
  | none =>
    (Text.splitOn ',' mode).foldlM (fun effect clause => do
      let behind := clause.toList.dropWhile "ugoa".toList.contains
      match behind with
      | sign :: letters =>
        if !"+-=".toList.contains sign || !letters.all "rwxXstugo".toList.contains then none
        else
          let has := letters.contains 'x'
          some fun old =>
            let old := effect old
            if sign == '+' then old || has else if sign == '-' then old && !has else has
      | [] => none) id

def chmod : Action m := fun words =>
  let specs := [flag "R" "recursive", flag "v" "verbose", flag "c" "changes", flag "f" "silent",
    valued "reference" "reference", flag "r" "", flag "w" "", flag "x" "", flag "X" ""]
  let mode? := words.find? fun word => word.startsWith "-" && word.length < 5 &&
    (word.toList.drop 1).all "rwx".toList.contains && 1 < word.length
  let words := match mode? with
    | some _ => "--" :: words
    | none => words
  withOptions "chmod" specs 1 words fun given operands => do
    match operands with
    | [] => misuse "chmod" "missing operand" 1
    | [mode] => misuse "chmod" ("missing operand after " ++ quoted mode) 1
    | mode :: paths =>
      match modeEffect? mode with
      | none => misuse "chmod" ("invalid mode: " ++ quoted mode) 1
      | some effect =>
        onEach (fun path => do
          if (← kindOf? path).isNone then
            complain "chmod" ("cannot access " ++ quoted path ++ ": " ++ (← absence path).reason)
            return 1
          else change (given.has "R") effect maxWalk path) paths
where
  change (recursive : Bool) (effect : Bool → Bool) : Nat → String → ShellM m Nat
    | 0, _ => return 1
    | depth + 1, path => do
      if ← isDirectory path then
        if recursive then
          onEach (fun name => change recursive effect depth (inside path name)) (← entriesOf path)
        else return 0
      else
        let old ← onHost (·.isExecutable (← fullPath path))
        let _ ← attempt (fun host path => host.setExecutable path (effect old)) path
        return 0

def install : Action m := fun words =>
  let specs := [flag "d" "directory", flag "D" "", valued "m" "mode", valued "o" "owner",
    valued "g" "group", valued "t" "target-directory", flag "T" "no-target-directory",
    flag "v" "verbose", flag "c" "", flag "p" "preserve-timestamps", flag "s" "strip"]
  withOptions "install" specs 1 words fun given operands => do
    let executable := ((given.value? "m").bind fun mode =>
      (modeEffect? mode).map (· false)).getD true
    let c : Copying := ⟨"install", false, false, given.has "v", false, false, false, none⟩
    let directories (path : String) : ShellM m Unit := do
      for directory in (upward path).reverse do
        let _ ← attempt (·.makeDirectory) directory
    if given.has "d" then
      if operands.isEmpty then misuse "install" "missing file operand" 1
      else
        for path in operands do directories path
        return 0
    else
      withTarget "install" given operands fun isInto sources target =>
        onEach (fun source => do
          let place := if isInto then inside target (lastName source) else target
          if given.has "D" then directories (directoryOf place)
          if (← kindOf? source) == some .directory then
            c.fail ("omitting directory " ++ quoted source)
          else
            let status ← c.one source place
            if status == 0 then
              let _ ← attempt (fun host path => host.setExecutable path executable) place
            return status) sources

def readlink : Action m := fun words =>
  let specs := [flag "f" "canonicalize", flag "e" "canonicalize-existing",
    flag "m" "canonicalize-missing", flag "n" "no-newline", flag "q" "quiet", flag "s" "silent",
    flag "v" "verbose", flag "z" "zero"]
  withOptions "readlink" specs 1 words fun given operands => do
    if operands.isEmpty then misuse "readlink" "missing operand" 1
    else
      let ending := if given.has "n" && operands.length == 1 then "" else "\n"
      onEach (fun path => do
        match given.last? ["f", "e", "m"] with
        | none =>
          match ← occupant? path with
          | some (.link target) =>
            put (target ++ ending)
            return 0
          | _ => return 1
        | some mode =>
          let place ← canonical path
          let exists? ←
            if mode == "m" then pure true
            else if mode == "e" then do pure (← kindOf? path).isSome
            else isDirectory (directoryOf place)
          if exists? then
            put (place ++ ending)
            return 0
          else return 1) operands

def realpath : Action m := fun words =>
  let specs := [flag "e" "canonicalize-existing", flag "m" "canonicalize-missing",
    flag "s" "strip", flag "q" "quiet", valued "relative-to" "relative-to", flag "z" "zero"]
  withOptions "realpath" specs 1 words fun given operands => do
    if operands.isEmpty then misuse "realpath" "missing operand" 1
    else
      onEach (fun path => do
        let place ← canonical path
        let found ←
          if given.has "m" then pure true
          else if given.has "e" then do pure (← kindOf? path).isSome
          else isDirectory (directoryOf place)
        if found then
          let shown ← match given.value? "relative-to" with
            | some start => pure (relativePath (← canonical start) place)
            | none => pure place
          put (shown ++ "\n")
          return 0
        else
          complain "realpath" (quotedIfNeeded path ++ ": " ++ (← absence path).reason)
          return 1) operands

def mktemp : Action m := fun words =>
  let specs := [flag "d" "directory", flag "u" "dry-run", flag "q" "quiet", flag "t" "",
    ⟨"p", "tmpdir", .maybe⟩]
  withOptions "mktemp" specs 1 words fun given operands => do
    let template := operands.headD "tmp.XXXXXXXXXX"
    let directory :=
      if given.has "p" then ((given.value? "p").getD "/tmp")
      else if operands.isEmpty || given.has "t" then "/tmp"
      else "."
    let name (n : Nat) : String :=
      let cs := template.toList.reverse
      let marks := cs.takeWhile (· == 'X')
      let digits := (Nat.toDigits 10 (1000000000 + n)).reverse.take marks.length
      .ofList ((digits ++ cs.drop marks.length).reverse)
    let path (n : Nat) : String :=
      if directory == "." then name n else inside directory (name n)
    let free ← (List.range 1000).filterM fun n => return (← kindOf? (path n)).isNone
    let chosen := path (free.headD 0)
    if template.toList.reverse.take 3 != ['X', 'X', 'X'] then
      complain "mktemp" ("too few X's in template " ++ quoted template)
      return 1
    else
      let made ←
        if given.has "u" then pure (Except.ok ())
        else if given.has "d" then attempt (·.makeDirectory) chosen
        else attempt (fun host path => host.writeBytes path "") chosen
      match made with
      | .ok () =>
        put (chosen ++ "\n")
        return 0
      | .error fault =>
        let what := if given.has "d" then "directory" else "file"
        complain "mktemp" ("failed to create " ++ what ++ " via template " ++
          quoted (inside directory template) ++ ": " ++ fault.reason)
        return 1

def truncate : Action m := fun words =>
  let specs := [valued "s" "size", flag "c" "no-create", valued "r" "reference",
    flag "o" "io-blocks"]
  withOptions "truncate" specs 1 words fun given operands => do
    let text := (given.value? "s").getD ""
    let sign := text.toList.head?
    let digits := if sign == some '+' || sign == some '-' then text.toList.drop 1 else text.toList
    if !given.has "s" then misuse "truncate" "you must specify either '--size' or '--reference'" 1
    else if operands.isEmpty then misuse "truncate" "missing file operand" 1
    else match sizeOf? (.ofList digits) with
      | none =>
        complain "truncate" ("Invalid number: " ++ literal text)
        return 1
      | some n =>
        onEach (fun path => do
          let old := ((← readInput path).toOption).getD ""
          if given.has "c" && (← kindOf? path).isNone then return 0
          else
            let size := match sign with
              | some '+' => old.length + n
              | some '-' => old.length - n
              | _ => n
            let filling := List.replicate (size - old.length) '\x00'
            reporting "truncate" ("cannot open " ++ quoted path ++ " for writing")
              (← writeOutput path (.ofList (old.toList.take size ++ filling)))) operands

end

end Classwright.Tool
