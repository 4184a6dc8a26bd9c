import Classwright.Shell.Condition
import Classwright.Shell.Expansion
import Classwright.Shell.Format

namespace Classwright.Shell

-- What a builtin, or a program, does with its arguments; the name is not one of them.
abbrev Action (m : Type → Type) := List String → ShellM m Nat

namespace Builtin

section

variable {m : Type → Type} [Monad m]

-- The options in front of some arguments, and the other arguments; `allowed` lists the letters.
def splitOptions (allowed : String) (arguments : List String) :
    ShellM m (List Char × List String) := do
  match arguments with
  | [] => return ([], [])
  | argument :: rest =>
    if argument == "--" then return ([], rest)
    else if argument == "-" || !argument.startsWith "-" then return ([], arguments)
    else
      let letters := argument.toList.drop 1
      match letters.find? (!allowed.toList.contains ·) with
      | some letter => fail ("Illegal option -" ++ .singleton letter)
      | none =>
        let (more, rest) ← splitOptions allowed rest
        return (letters ++ more, rest)

def quoted (text : String) : String :=
  let parts := (Text.splitOn '\'' text).map fun part => "'" ++ part ++ "'"
  let joined := "\"'\"".intercalate parts
  joined

def echo : Action m := fun arguments => do
  let (arguments, ends) :=
    match arguments with
    | "-n" :: rest => (rest, false)
    | arguments => (arguments, true)
  let (text, ended) := unescaped (" ".intercalate arguments)
  if ← write 1 (text ++ if ends && !ended then "\n" else "") then return 0
  complain "echo: I/O error"
  return 1

def printf : Action m := fun arguments => do
  let arguments ←
    match arguments with
    | first :: rest =>
      if first == "--" then pure rest
      else if first.startsWith "-" && first != "-" then
        fail ("Illegal option -" ++ .ofList ((first.toList.drop 1).take 1))
      else pure arguments
    | [] => pure []
  match arguments with
  | [] => fail "usage: printf format [arg ...]"
  | format :: rest => printFormat format rest

def test : Action m := fun words => do
  return if ← Condition.decide words (words.length + 1) then 0 else 1

def bracket : Action m := fun words => do
  if words.getLast? != some "]" then fail "missing ]"
  test words.dropLast

def withoutDots (path : String) : String :=
  let names := (Path.names path).foldl (fun done name =>
    if name == "" || name == "." then done
    else if name == ".." then done.drop 1
    else name :: done) []
  "/" ++ "/".intercalate names.reverse

def changeDirectory : Action m := fun arguments => do
  let (_, arguments) ← splitOptions "PL" arguments
  let old := (← frame).directory
  let (target, shows) ←
    match arguments with
    | [] => do pure ((← value? "HOME").getD "", false)
    | "-" :: _ => do pure ((← value? "OLDPWD").getD "", true)
    | target :: _ => pure (target, false)
  if target == "" then
    if shows then put "\n"
    return 0
  let path := withoutDots (← fullPath target)
  if (← onHost (·.kind? (← fullPath target))) != some .directory then
    fail ("can't cd to " ++ target)
  modifyFrame fun f => { f with directory := path }
  setVariable "OLDPWD" old true
  setVariable "PWD" path true
  if shows then put (path ++ "\n")
  return 0

def printDirectory : Action m := fun arguments => do
  let _ ← splitOptions "PL" arguments
  put ((← frame).directory ++ "\n")
  return 0

def lineGlyphs (raw : Bool) : List Char → List Glyph × Nat × Bool
  | [] => ([], 0, false)
  | '\n' :: _ => ([], 1, true)
  | '\\' :: c :: rest =>
    if raw then add (.byte '\\' false true) 1 (lineGlyphs raw (c :: rest))
    else if c == '\n' then
      let (gs, count, ended) := lineGlyphs raw rest
      (gs, count + 2, ended)
    else add (.byte c false false) 2 (lineGlyphs raw rest)
  | ['\\'] => (if raw then [.byte '\\' false true] else [], 1, false)
  | c :: rest => add (.byte c false true) 1 (lineGlyphs raw rest)
where
  add (g : Glyph) (size : Nat) : List Glyph × Nat × Bool → List Glyph × Nat × Bool
    | (gs, count, ended) => (g :: gs, count + size, ended)

def splitAmong (separators : List Char) : List String → List Glyph → List (String × String)
  | [], _ => []
  | [name], gs =>
    match Fields.ofGlyphs separators gs with
    | [] => [(name, "")]
    | [field] => [(name, plainText field)]
    | _ => [(name, Glyph.text ((gs.dropWhile isBlank).reverse.dropWhile isBlank).reverse)]
  | name :: names, gs =>
    let gs := gs.dropWhile isBlank
    let field := gs.takeWhile (!isSeparator ·)
    let rest := (gs.dropWhile (!isSeparator ·)).dropWhile isBlank
    let rest :=
      match rest with
      | g :: behind =>
        if isSeparator g then behind.dropWhile isBlank else rest
      | [] => []
    (name, Glyph.text field) :: splitAmong separators names rest
where
  isSeparator : Glyph → Bool
    | .byte c _ splits => splits && separators.contains c
    | _ => false
  isBlank : Glyph → Bool
    | .byte c _ splits => splits && separators.contains c && Text.ByteClass.isSpace c
    | _ => false

def checkNames (names : List String) : ShellM m Unit := do
  match names.find? (!isName ·.toList) with
  | some name => fail (name ++ ": bad variable name")
  | none => return

def read : Action m := fun arguments => do
  let (raw, arguments) := rawAndNames arguments
  let (options, names) ← splitOptions "r" arguments
  if names.isEmpty then fail "arg count"
  let text := (← unread 0).getD ""
  let (gs, count, ended) := lineGlyphs (raw || options.contains 'r') text.toList
  skipBytes 0 count
  let fields := splitAmong (← fieldSeparators).toList names gs
  for (name, value) in fields do
    checkNames [name]
    setVariable name value false
  return if ended then 0 else 1
where
  rawAndNames : List String → Bool × List String
    | "-p" :: _ :: rest => rawAndNames rest
    | "-rp" :: _ :: rest => (true, rest)
    | "-r" :: rest => (true, (rawAndNames rest).2)
    | arguments => (false, arguments)

def insertSorted {α : Type} (entries : List (String × α)) : List (String × α) :=
  entries.mergeSort (·.1 ≤ ·.1)

def listVariables (start : String) (p : Variable → Bool) : ShellM m Nat := do
  for (name, v) in insertSorted ((← frame).bindings.filter fun entry => p entry.2) do
    match v.value with
    | some value => put (start ++ name ++ "=" ++ quoted value ++ "\n")
    | none => if start != "" then put (start ++ name ++ "\n")
  return 0

def splitAssignment (text : String) : String × Option String :=
  let name := text.toList.takeWhile (· != '=')
  match text.toList.dropWhile (· != '=') with
  | _ :: value => (.ofList name, some (.ofList value))
  | [] => (text, none)

def declare (word : String) (mark : Variable → Variable) (isMarked : Variable → Bool) :
    Action m := fun arguments => do
  let (options, arguments) ← splitOptions "p" arguments
  if arguments.isEmpty || options.contains 'p' then listVariables (word ++ " ") isMarked
  else
    for argument in arguments do
      let (name, value) := splitAssignment argument
      checkNames [name]
      if let some text := value then setVariable name text false
      let old := (← binding? name).getD ⟨none, false, false⟩
      restoreVariable name (some (mark old))
    return 0

def unset : Action m := fun arguments => do
  let (options, names) ← splitOptions "fv" arguments
  if options.contains 'f' then
    for name in names do
      modifyFrame fun f => { f with functions := removeEntry name f.functions }
  else
    for name in names do
      checkNames [name]
      unsetVariable name
  return 0

def localVariables : Action m := fun arguments => do
  match (← frame).hidden with
  | [] => fail "not in a function"
  | _ =>
    for argument in arguments do
      let (name, value) := splitAssignment argument
      let old ← binding? name
      modifyFrame fun f =>
        match f.hidden with
        | saved :: outer =>
          { f with
            hidden := (if saved.any (·.1 == name) then saved else (name, old) :: saved) :: outer }
        | [] => f
      if let some text := value then
        checkNames [name]
        setVariable name text false
    return 0

-- The options by name; those without a letter have a mark that is none.
def optionNames : List (String × Char) :=
  [("errexit", 'e'), ("noglob", 'f'), ("ignoreeof", 'I'), ("interactive", 'i'), ("monitor", 'm'),
    ("noexec", 'n'), ("stdin", 's'), ("xtrace", 'x'), ("verbose", 'v'), ("vi", 'V'),
    ("emacs", 'E'), ("noclobber", 'C'), ("allexport", 'a'), ("notify", 'b'), ("nounset", 'u'),
    ("privileged", 'p'), ("nolog", '1'), ("debug", '2')]

def setOption (letter : Char) (on : Bool) : ShellM m Unit :=
  modifyFrame fun f =>
    let others := f.options.filter (· != letter)
    { f with options := if on then letter :: others else others }

def listOptions : ShellM m Nat := do
  put "Current option settings\n"
  for (name, letter) in optionNames do
    let padding := String.ofList (List.replicate (16 - name.length) ' ')
    put (name ++ padding ++ (if ← hasOption letter then "on" else "off") ++ "\n")
  return 0

def set : Action m := fun arguments => do
  if arguments.isEmpty then listVariables "" fun _ => true else go arguments
where
  letters (on : Bool) : List Char → ShellM m Unit
    | [] => return
    | letter :: rest => do
      if optionOrder.contains letter then setOption letter on
      else fail ("Illegal option " ++ (if on then "-" else "+") ++ .singleton letter)
      letters on rest
  go : Action m
    | [] => return 0
    | "--" :: rest => do
      modifyFrame fun f => { f with arguments := rest }
      return 0
    | "-" :: rest => do
      setOption 'x' false
      setOption 'v' false
      if !rest.isEmpty then modifyFrame fun f => { f with arguments := rest }
      return 0
    | argument :: rest => do
      let (on, cs) :=
        match argument.toList with
        | '-' :: cs => (true, cs)
        | '+' :: cs => (false, cs)
        | _ => (false, [])
      if cs.isEmpty then
        modifyFrame fun f => { f with arguments := argument :: rest }
        return 0
      else
        letters on (cs.filter (· != 'o'))
        if !cs.contains 'o' then go rest
        else match rest with
          | name :: rest =>
            named name on
            go rest
          | [] => listOptions
  named (name : String) (on : Bool) : ShellM m Unit := do
    match optionNames.lookup name with
    | some letter => setOption letter on
    | none => fail ("Illegal option -o " ++ name)

-- The number that an argument gives; no other text is allowed.
def count (text : String) : ShellM m Nat := do
  if text.toList.all Char.isDigit && !text.isEmpty then return (digitsValue? 10 text.toList).getD 0
  else fail ("Illegal number: " ++ text)

def shift : Action m := fun arguments => do
  let n ← match arguments with
    | text :: _ => count text
    | [] => pure 1
  let f ← frame
  if f.arguments.length < n then fail "can't shift that many"
  modifyFrame fun f => { f with arguments := f.arguments.drop n }
  return 0

def getopts : Action m := fun arguments => do
  match arguments with
  | letters :: name :: rest =>
    let words ← if rest.isEmpty then do pure (← frame).arguments else pure rest
    let index := (((← value? "OPTIND").bind (·.toNat?)).getD 1) - 1
    let (silent, allowed) :=
      match letters.toList with
      | ':' :: cs => (true, cs)
      | cs => (false, cs)
    let done (index : Nat) : ShellM m Nat := do
      setVariable "OPTIND" (toString (index + 1)) false
      setVariable name "?" false
      modifyFrame fun f => { f with cluster := 0 }
      return 1
    let cluster := max 1 (← frame).cluster
    let word := (words[index]?.getD "").toList
    if cluster == 1 && (word.head? != some '-' || word.length < 2) then done index
    else if cluster == 1 && word == ['-', '-'] then done (index + 1)
    else
      match word[cluster]? with
      | none => done index
      | some letter =>
        let behind := allowed.dropWhile (· != letter)
        let isLast := word.length ≤ cluster + 1
        let step (index cluster : Nat) (value : Char) (argument : Option String) :
            ShellM m Nat := do
          setVariable "OPTIND" (toString (index + 1)) false
          modifyFrame fun f => { f with cluster := cluster }
          match argument with
          | some text => setVariable "OPTARG" text false
          | none => unsetVariable "OPTARG"
          setVariable name (.singleton value) false
          return 0
        let next := if isLast then (index + 1, 0) else (index, cluster + 1)
        if behind.isEmpty || letter == ':' then
          if silent then step next.1 next.2 '?' (some (.singleton letter))
          else
            putError ("Illegal option -" ++ .singleton letter ++ "\n")
            step next.1 next.2 '?' none
        else if (behind.drop 1).head? == some ':' then
          if !isLast then step (index + 1) 0 letter (some (.ofList (word.drop (cluster + 1))))
          else match words[index + 1]? with
            | some argument => step (index + 2) 0 letter (some argument)
            | none =>
              if silent then step (index + 1) 0 ':' (some (.singleton letter))
              else
                putError ("No arg for -" ++ .singleton letter ++ " option\n")
                step (index + 1) 0 '?' none
        else step next.1 next.2 letter none
  | _ => fail "Usage: getopts optstring var [arg...]"

def signals : List (String × Nat) :=
  [("EXIT", 0), ("HUP", 1), ("INT", 2), ("QUIT", 3), ("ILL", 4), ("TRAP", 5), ("ABRT", 6),
    ("BUS", 7), ("FPE", 8), ("KILL", 9), ("USR1", 10), ("SEGV", 11), ("USR2", 12), ("PIPE", 13),
    ("ALRM", 14), ("TERM", 15), ("STKFLT", 16), ("CHLD", 17), ("CONT", 18), ("STOP", 19),
    ("TSTP", 20), ("TTIN", 21), ("TTOU", 22), ("URG", 23), ("XCPU", 24), ("XFSZ", 25),
    ("VTALRM", 26), ("PROF", 27), ("WINCH", 28), ("POLL", 29), ("PWR", 30), ("SYS", 31)]

def signal? (text : String) : Option (String × Nat) :=
  let upper := text.map Char.toUpper
  let name := if upper.startsWith "SIG" then String.ofList (upper.toList.drop 3) else upper
  signals.find? fun entry => entry.1 == name || some entry.2 == text.toNat?

-- Sets what is done when signals arrive, of which only the end of the shell ever does.
def trap : Action m := fun arguments => do
  let arguments := if arguments.head? == some "--" then arguments.drop 1 else arguments
  match arguments with
  | [] =>
    for (name, _) in signals do
      if let some text := (← frame).traps.lookup name then
        put ("trap -- " ++ quoted text ++ " " ++ name ++ "\n")
    return 0
  | first :: rest =>
    let (action, names) : Option String × List String :=
      if first == "-" then (none, rest)
      else if rest.isEmpty || (first.toList.all Char.isDigit && !first.isEmpty) then
        (none, arguments)
      else (some first, rest)
    for name in names do
      match signal? name with
      | none =>
        putError ("trap: " ++ name ++ ": bad trap\n")
        return 1
      | some (name, _) =>
        modifyFrame fun f =>
          { f with
            traps :=
              match action with
              | some text => setEntry name text f.traps
              | none => removeEntry name f.traps }
    return 0

def killUsage : String :=
  "Usage: kill [-s sigspec | -signum | -sigspec] [pid | job]... or\nkill -l [exitstatus]"

-- Sends a signal; there is no other process than the shell.
def kill : Action m := fun arguments => do
  match arguments with
  | [] => fail killUsage
  | "-l" :: rest =>
    for text in rest do
      match signal? text with
      | some (name, number) => put ((if text.toNat?.isSome then name else toString number) ++ "\n")
      | none => fail ("invalid signal number or exit status: " ++ text)
    return 0
  | "-s" :: name :: rest => send name rest
  | first :: rest =>
    if first.startsWith "-" && first != "--" then send (.ofList (first.toList.drop 1)) rest
    else send "TERM" (if first == "--" then rest else arguments)
where
  send (name : String) (processes : List String) : ShellM m Nat := do
    match signal? name with
    | none => fail ("invalid signal number or name: " ++ name)
    | some (_, number) =>
      for process in processes do
        if process == toString processNumber then
          if number != 0 then throw (.exit (128 + number))
        else if process.toList.all Char.isDigit then
          complain "No such process\n"
          return 1
        else fail ("Illegal number: " ++ process)
      return 0

def maskLetters (mask : Nat) : String :=
  let letters (shift : Nat) : String :=
    let bits := mask / Nat.pow 8 shift % 8
    (if bits / 4 % 2 == 0 then "r" else "") ++ (if bits / 2 % 2 == 0 then "w" else "") ++
      (if bits % 2 == 0 then "x" else "")
  "u=" ++ letters 2 ++ ",g=" ++ letters 1 ++ ",o=" ++ letters 0

def umask : Action m := fun arguments => do
  let (options, arguments) ← splitOptions "S" arguments
  let mask := (← frame).mask
  match arguments with
  | [] =>
    if options.contains 'S' then put (maskLetters mask ++ "\n")
    else
      let digits := String.ofList (Nat.toDigits 8 mask)
      put (.ofList (List.replicate (4 - digits.length) '0') ++ digits ++ "\n")
    return 0
  | text :: _ =>
    match digitsValue? 8 text.toList with
    | some n =>
      modifyFrame fun f => { f with mask := n % 512 }
      return 0
    | none =>
      if (text.toList.head?.map Char.isDigit).getD false then fail ("Illegal number: " ++ text)
      else return 0

def ignore (status : Nat) : Action m := fun _ => return status

-- The builtins that need nothing but the state of the shell.
def plain : List (String × Action m) :=
  [(":", ignore 0), ("true", ignore 0), ("false", ignore 1), ("echo", echo), ("printf", printf),
    ("test", test), ("[", bracket), ("cd", changeDirectory), ("chdir", changeDirectory),
    ("pwd", printDirectory), ("read", read),
    ("export", declare "export" (fun v => { v with exported := true }) (·.exported)),
    ("readonly", declare "readonly" (fun v => { v with readonly := true }) (·.readonly)),
    ("unset", unset), ("local", localVariables), ("set", set), ("shift", shift),
    ("getopts", getopts), ("trap", trap), ("kill", kill), ("umask", umask), ("wait", ignore 0),
    ("jobs", ignore 0), ("bg", ignore 0), ("ulimit", ignore 0),
    ("times", fun _ => do
      put "0m0.000000s 0m0.000000s\n0m0.000000s 0m0.000000s\n"
      return 0),
    ("fg", fun _ => fail "No current job")]

end

end Builtin

end Classwright.Shell
