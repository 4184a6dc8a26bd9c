import Classwright.Shell.Grammar
import Classwright.Shell.Program

namespace Classwright.Shell

-- How often a loop is run at most.
def maxRounds : Nat := 1000000

section

variable {m : Type → Type} [Monad m]

def setLine (line : Nat) : ShellM m Unit := modifyFrame fun f => { f with line := line }

def setStatus (status : Nat) : ShellM m Nat := do
  modifyFrame fun f => { f with status := status }
  return status

-- Leaves the shell if an option says so for a command that failed while nothing depends on it.
def checked (tested : Bool) (status : Nat) : ShellM m Nat := do
  let status ← setStatus status
  if status != 0 && !tested && (← hasOption 'e') then throw (.exit status)
  return status

def openingReason (creates : Bool) (fault : FileFault) : String :=
  match fault with
  | .notFound => if creates then "Directory nonexistent" else "No such file"
  | .notDirectory => if creates then "Directory nonexistent" else "No such file"
  | fault => fault.reason

def deviceDescriptor? (path : String) : Option Nat :=
  match path with
  | "/dev/stdin" => some 0
  | "/dev/stdout" => some 1
  | "/dev/stderr" => some 2
  | path =>
    let start := "/dev/fd/"
    if path.startsWith start then (String.ofList (path.toList.drop start.length)).toNat? else none

def openFile (opening : Opening) (path : String) : ShellM m (Except FileFault Nat) := do
  let full ← fullPath path
  if path == "/dev/null" then return .ok (← newStream .nowhere)
  if let some descriptor := deviceDescriptor? path then
    if let some id ← stream? descriptor then return .ok id
  let isNew := (← onHost (·.kind? full)).isNone
  let create : ShellM m (Except FileFault Unit) := onHost (·.writeBytes full "")
  let opened (made : Except FileFault Unit) (position : Nat) (appends : Bool) :
      ShellM m (Except FileFault Nat) := do
    match made with
    | .ok () => return .ok (← newStream (.file full position appends))
    | .error fault => return .error fault
  match opening with
  | .read =>
    match ← onHost (·.readBytes full) with
    | .ok _ => opened (.ok ()) 0 false
    | .error .isDirectory => return .ok (← newStream (.source ""))
    | .error fault => return .error fault
  | .write =>
    if !isNew && (← onHost (·.kind? full)) == some .file && (← hasOption 'C') then
      return .error .exists
    else opened (← create) 0 false
  | .overwrite => opened (← create) 0 false
  | .append =>
    let made ← if isNew then create else
      if (← onHost (·.kind? full)) == some .directory then pure (.error .isDirectory)
      else pure (.ok ())
    opened made 0 true
  | .readWrite => opened (← if isNew then create else pure (.ok ())) 0 false

inductive Target where
  | file (descriptor : Nat) (opening : Opening) (path : String)
  | duplicate (descriptor : Nat) (source : String)
  | text (descriptor : Nat) (text : String)

def targets (e : Engine m) : List Redirection → ShellM m (List Target)
  | [] => return []
  | r :: rest => do
    let target ←
      match r with
      | .file descriptor opening word => do
        let path := Glyph.text (← e.glyphs ⟨false, false⟩ word)
        pure (.file descriptor opening path)
      | .duplicate descriptor word => do
        let source ← textOf e word
        let isValid := source == "-" || (source.length == 1 && source.toList.all Char.isDigit)
        if !isValid then fail "Syntax error: Bad fd number"
        pure (.duplicate descriptor source)
      | .document descriptor number => do
        let word := ((← get).documents.lookup number).getD []
        pure (.text descriptor (← textOf e word))
    return target :: (← targets e rest)

-- Connects descriptors to targets; complains about the first that cannot be.
def connectAll : List Target → ShellM m Bool
  | [] => return true
  | target :: rest => do
    match target with
    | .file descriptor opening path =>
      match ← openFile opening path with
      | .ok id => connect descriptor (some id)
      | .error fault =>
        let creates := opening != .read
        complain ("cannot " ++ (if creates then "create " else "open ") ++ path ++ ": " ++
          openingReason creates fault)
        return false
    | .duplicate descriptor source =>
      match source.toNat? with
      | none => connect descriptor none
      | some number =>
        match ← stream? number with
        | some id => connect descriptor (some id)
        | none =>
          complain (source ++ ": Bad file descriptor")
          return false
    | .text descriptor text => connect descriptor (some (← newStream (.source text)))
    connectAll rest

def redirected (ts : List Target) (action : ShellM m Nat) : ShellM m Nat := do
  let before := (← frame).descriptors
  let restore := modifyFrame fun f => { f with descriptors := before }
  if ← connectAll ts then
    let status ← tryCatch action fun jump => do
      restore
      throw jump
    restore
    return status
  else
    restore
    return 2

-- Runs the commands of a source, line by line, at most `limit` lines.
def runLines (e : Engine m) (tested : Bool) : Nat → Source → Nat → ShellM m Nat
  | 0, _, status => return status
  | limit + 1, source, status => do
    let source := { source with nextDocument := (← get).nextDocument }
    let (result, source) := Read.nextLine.run.run source
    modify fun s =>
      { s with
        documents := source.documents ++ s.documents
        nextDocument := source.nextDocument }
    match result with
    | .error fault =>
      setLine fault.line
      fail fault.reason
    | .ok command =>
      let status ←
        match command with
        | some c => if ← hasOption 'n' then pure status else e.run tested c
        | none => pure status
      if source.rest.isEmpty then return status
      runLines e tested limit { source with documents := [] } status

def runScript (e : Engine m) (tested : Bool) (text : String) : ShellM m Nat :=
  runLines e tested (text.length + 1) (.ofText text 0) 0

namespace Builtin

def eval (e : Engine m) (tested : Bool) : Action m := fun arguments =>
  e.script tested (" ".intercalate arguments)

def call (action : ShellM m Nat) : ShellM m Nat := do
  let f ← frame
  modifyFrame fun f => { f with calls := f.calls + 1 }
  let back := modifyFrame fun g => { g with calls := f.calls }
  let status ← tryCatch action fun
    | .leaveCall status => return status
    | jump => do
      back
      throw jump
  back
  return status

def inDirectories (name : String) : List String → ShellM m (Option String)
  | [] => return none
  | directory :: rest => do
    let path := Path.join directory name
    if (← onHost (·.kind? (← fullPath path))) == some .file then return some path
    else inDirectories name rest

def source (e : Engine m) : Action m := fun arguments => do
  match arguments with
  | [] => return 0
  | name :: _ =>
    let path ←
      if name.toList.contains '/' then pure name
      else match ← inDirectories name (Text.splitOn ':' ((← value? "PATH").getD "")) with
        | some path => pure path
        | none => fail (name ++ ": not found")
    match ← onHost (·.readBytes (← fullPath path)) with
    | .error fault => fail ("cannot open " ++ path ++ ": " ++ openingReason false fault)
    | .ok text =>
      modifyFrame fun f => { f with builtin := some path }
      call (e.script false text)

def givenStatus (arguments : List String) : ShellM m Nat := do
  match arguments with
  | text :: _ => return (← count text)
  | [] => return (← frame).status

def exit : Action m := fun arguments => do throw (.exit ((← givenStatus arguments) % 256))

def leave : Action m := fun arguments => do
  let status ← givenStatus arguments
  throw (if (← frame).calls == 0 then .exit (status % 256) else .leaveCall status)

def leaveLoops (jump : Nat → Jump) : Action m := fun arguments => do
  let levels ←
    match arguments with
    | text :: _ => count text
    | [] => pure 1
  if levels == 0 then fail ("Illegal number: " ++ arguments.headD "")
  let loops := (← frame).loops
  if loops == 0 then return 0
  throw (jump (min levels loops))

def meaning? (isTool : String → Bool) (name : String) : ShellM m (Option (String × String)) := do
  if Token.keywords.contains name then return some (" is a shell keyword", name)
  else if specialBuiltins.contains name then return some (" is a special shell builtin", name)
  else if ((← frame).functions.lookup name).isSome then
    return some (" is a shell function", name)
  else if isBuiltin name then return some (" is a shell builtin", name)
  else match ← findProgram isTool name with
    | .ok (.tool tool) =>
      let path := if name.toList.contains '/' then name else "/usr/bin/" ++ tool
      return some (" is " ++ path, path)
    | .ok (.script path) => return some (" is " ++ path, path)
    | .error _ => return none
where
  isBuiltin (name : String) : Bool :=
    (plain.lookup name : Option (Action Id)).isSome ||
      ["command", "type", "hash", "alias", "unalias"].contains name

def describe (isTool : String → Bool) : Action m := fun names => do
  let mut status := 0
  for name in names do
    match ← meaning? isTool name with
    | some (text, _) => put (name ++ text ++ "\n")
    | none =>
      put (name ++ ": not found\n")
      status := 127
  return status

def locate (isTool : String → Bool) (name : String) : ShellM m Nat := do
  match ← meaning? isTool name with
  | some (_, short) =>
    put (short ++ "\n")
    return 0
  | none => return 127

def hash (isTool : String → Bool) : Action m := fun names => do
  let mut status := 0
  for name in names do
    if name != "-r" && (← meaning? isTool name).isNone then
      complain (name ++ ": not found")
      status := 1
  return status

end Builtin

def declarations : List String := ["export", "readonly", "local", "alias"]

def commandFields (e : Engine m) (ws : List Word) : ShellM m (List String) := do
  match ws with
  | [] => return []
  | first :: rest =>
    match ← fieldsOf e first with
    | [] => commandFields e rest
    | name :: more =>
      let isDeclaration := declarations.contains name
      let argument (w : Word) : ShellM m (List String) := do
        match w.assignment? with
        | some (name, value) =>
          if isDeclaration then return [name ++ "=" ++ (← assignedValue e value)]
          else fieldsOf e w
        | none => fieldsOf e w
      return name :: more ++ (← rest.mapM argument).flatten

def assignAll (e : Engine m) (exports : Bool) : List (String × Word) → ShellM m (List String)
  | [] => return []
  | (name, word) :: rest => do
    let value ← assignedValue e word
    setVariable name value exports
    return (name ++ "=" ++ value) :: (← assignAll e exports rest)

def traceCommand (parts : List String) : ShellM m Unit := do
  if ← hasOption 'x' then
    putError ((← value? "PS4").getD "" ++ " ".intercalate parts ++ "\n")

def withVariables (names : List String) (action : ShellM m Nat) : ShellM m Nat := do
  let old ← names.mapM fun name => do return (name, ← binding? name)
  let restore : ShellM m Unit := old.forM fun (name, v) => restoreVariable name v
  let status ← tryCatch action fun jump => do
    restore
    throw jump
  restore
  return status

-- Runs a builtin, whose name messages tell; one that may fail does not end the shell.
def runBuiltin (name : String) (isSpecial : Bool) (action : ShellM m Nat) : ShellM m Nat := do
  let outer := (← frame).builtin
  let restore := modifyFrame fun f => { f with builtin := outer }
  modifyFrame fun f => { f with builtin := some name }
  let status ← tryCatch action fun
    | .fault status =>
      if isSpecial then do
        restore
        throw (.fault status)
      else return status
    | jump => do
      restore
      throw jump
  restore
  return status

def runFunction (e : Engine m) (tested : Bool) (body : Command) (arguments : List String) :
    ShellM m Nat := do
  let before ← frame
  modifyFrame fun f =>
    { f with arguments := arguments, loops := 0, hidden := [] :: f.hidden }
  let back : ShellM m Unit := do
    for (name, old) in (← frame).hidden.headD [] do restoreVariable name old
    modifyFrame fun f =>
      { f with arguments := before.arguments, loops := before.loops, hidden := before.hidden }
  let status ← tryCatch (Builtin.call (e.run tested body)) fun jump => do
    back
    throw jump
  back
  return status

-- Runs a program, and complains if there is none; one that was looked up is missing, then.
def runNamed (e : Engine m) (words : List String) : ShellM m Nat := do
  match ← e.program words with
  | .ok status => return status
  | .error refusal =>
    let name := words.headD ""
    complain (name ++ ": " ++ refusal.reason)
    return if name.toList.contains '/' then refusal.status else Refusal.notFound.status

def runningBuiltins (isTool : String → Bool) (e : Engine m) (tested : Bool) :
    List (String × Action m) :=
  [("eval", Builtin.eval e tested), (".", Builtin.source e), ("exit", Builtin.exit),
    ("return", Builtin.leave), ("break", Builtin.leaveLoops .breakLoop),
    ("continue", Builtin.leaveLoops .continueLoop), ("type", Builtin.describe isTool),
    ("hash", Builtin.hash isTool), ("alias", Builtin.ignore 0), ("unalias", Builtin.ignore 0)]

def builtin? (isTool : String → Bool) (e : Engine m) (tested : Bool) (name : String) :
    Option (Action m) :=
  match (runningBuiltins isTool e tested).lookup name with
  | some action => some action
  | none => Builtin.plain.lookup name

def runOther (isTool : String → Bool) (e : Engine m) (tested special : Bool)
    (fields : List String) : ShellM m Nat := do
  let name := fields.headD ""
  match builtin? isTool e tested name with
  | some action =>
    runBuiltin name (special && specialBuiltins.contains name) (action (fields.drop 1))
  | none => runNamed e fields

def runCommand (isTool : String → Bool) (e : Engine m) (tested : Bool) : Action m :=
  fun arguments => do
    match arguments with
    | "-v" :: name :: _ => Builtin.locate isTool name
    | "-V" :: name :: _ => Builtin.describe isTool [name]
    | "-p" :: rest => go rest
    | "--" :: rest => go rest
    | rest => go rest
where
  go (words : List String) : ShellM m Nat := do
    if words.isEmpty then return 0
    modifyFrame fun f => { f with builtin := none }
    runOther isTool e tested false words

def dispatch (isTool : String → Bool) (e : Engine m) (tested : Bool)
    (assignments : List (String × Word)) (fields : List String) : ShellM m Nat := do
  let name := fields.headD ""
  let names := assignments.map (·.1)
  let body? := (← frame).functions.lookup name
  if fields.isEmpty || specialBuiltins.contains name then
    let texts ← assignAll e false assignments
    traceCommand (texts ++ fields)
    if fields.isEmpty then return (← frame).outputStatus
    else if name == "exec" then
      match fields.drop 1 with
      | [] => return 0
      | words =>
        let status ← runBuiltin "exec" true do
          match ← e.program words with
          | .ok status => return status
          | .error refusal =>
            modifyFrame fun f => { f with builtin := none }
            complain ("exec: " ++ words.headD "" ++ ": " ++ refusal.reason)
            return refusal.status
        throw (.exit status)
    else runOther isTool e tested true fields
  else
    withVariables names do
      let texts ← assignAll e true assignments
      traceCommand (texts ++ fields)
      match body? with
      | some body => runFunction e tested body (fields.drop 1)
      | none =>
        if name == "command" then
          runBuiltin name false (runCommand isTool e tested (fields.drop 1))
        else runOther isTool e tested true fields

def runSimple (isTool : String → Bool) (e : Engine m) (tested : Bool) (line : Nat)
    (assignments : List (String × Word)) (ws : List Word) (rs : List Redirection) :
    ShellM m Nat := do
  setLine line
  modifyFrame fun f => { f with outputStatus := 0 }
  let fields ← commandFields e ws
  let ts ← targets e rs
  let isSpecial := specialBuiltins.contains (fields.headD "")
  if fields == ["exec"] then
    let before := (← frame).descriptors
    if ← connectAll ts then dispatch isTool e tested assignments fields
    else
      modifyFrame fun f => { f with descriptors := before }
      throw (.fault 2)
  else
    let before := (← frame).descriptors
    let restore := modifyFrame fun f => { f with descriptors := before }
    if ← connectAll ts then
      let status ← tryCatch (dispatch isTool e tested assignments fields) fun jump => do
        restore
        throw jump
      restore
      return status
    else
      restore
      if isSpecial then throw (.fault 2)
      return 2

def inSubshell (e : Engine m) (action : ShellM m Nat) : ShellM m Nat := restoring do
  modifyFrame fun f => { f with traps := [] }
  ending e action

-- Runs commands of which each feeds the next one; the input of the first is given.
def runPipeline (e : Engine m) (tested : Bool) (input : Option Nat) :
    List Command → ShellM m Nat
  | [] => return 0
  | c :: rest => do
    let feed : ShellM m Unit := do if let some id := input then connect 0 (some id)
    if rest.isEmpty then inSubshell e do
      feed
      e.run tested c
    else
      let id ← newStream (.sink [])
      let _ ← inSubshell e do
        feed
        connect 1 (some id)
        e.run tested c
      let text ← collected id
      setStream id .nowhere
      runPipeline e tested (some (← newStream (.source text))) rest

-- Runs a part of a loop; tells whether the loop goes on, and the status.
def loopPart (action : ShellM m Nat) : ShellM m (Bool × Nat) :=
  tryCatch (do return (true, ← action)) fun
    | .breakLoop 1 => return (false, 0)
    | .continueLoop 1 => return (true, 0)
    | .breakLoop levels => throw (.breakLoop (levels - 1))
    | .continueLoop levels => throw (.continueLoop (levels - 1))
    | jump => throw jump

def enclosed (action : ShellM m Nat) : ShellM m Nat := do
  let before := (← frame).loops
  modifyFrame fun f => { f with loops := before + 1 }
  let back := modifyFrame fun f => { f with loops := before }
  let status ← tryCatch action fun jump => do
    back
    throw jump
  back
  return status

-- Runs a loop, at most so many times.
def runLoop (e : Engine m) (tested untilTrue : Bool) (test body : Command) :
    Nat → Nat → ShellM m Nat
  | 0, status => return status
  | rounds + 1, status => do
    let (goesOn, result) ← loopPart do
      let result ← e.run true test
      return if (result == 0) != untilTrue then 0 else 1
    if !goesOn then return 0
    else if result != 0 then return status
    else
      let (goesOn, status) ← loopPart (e.run tested body)
      if goesOn then runLoop e tested untilTrue test body rounds status else return status

def runForEach (e : Engine m) (tested : Bool) (name : String) (body : Command) :
    List String → Nat → ShellM m Nat
  | [], status => return status
  | value :: rest, _ => do
    setVariable name value false
    let (goesOn, status) ← loopPart (e.run tested body)
    if goesOn then runForEach e tested name body rest status else return status

def matchesAny (e : Engine m) (text : String) : List Word → ShellM m Bool
  | [] => return false
  | w :: rest => do
    if Wildcard.isMatch (← patternOf e w) text.toList then return true
    else matchesAny e text rest

def runCases (e : Engine m) (tested : Bool) (text : String) :
    List (List Word × Option Command) → ShellM m Nat
  | [] => return 0
  | (patterns, body) :: rest => do
    if ← matchesAny e text patterns then
      match body with
      | some c => e.run tested c
      | none => return 0
    else runCases e tested text rest

-- Runs a command; what it is made of is run by `e`.
def runStep (isTool : String → Bool) (e : Engine m) (tested : Bool) (c : Command) :
    ShellM m Nat := do
  match c with
  | .simple line assignments ws rs =>
    checked tested (← runSimple isTool e tested line assignments ws rs)
  | .pipeline commands => checked tested (← runPipeline e tested none commands)
  | .negated c =>
    let status ← e.run true c
    setStatus (if status == 0 then 1 else 0)
  | .both first second =>
    let status ← e.run true first
    if status == 0 then e.run tested second else return status
  | .either first second =>
    let status ← e.run true first
    if status != 0 then e.run tested second else return status
  | .sequence first second =>
    let _ ← e.run tested first
    e.run tested second
  | .background line c =>
    setLine line
    let _ ← inSubshell e do
      connect 0 (some (← newStream .nowhere))
      e.run false c
    setStatus 0
  | .redirected line c rs =>
    setLine line
    let ts ← targets e rs
    checked tested (← redirected ts (e.run tested c))
  | .subshell line c rs =>
    setLine line
    let ts ← targets e rs
    checked tested (← inSubshell e (redirected ts (e.run tested c)))
  | .conditional test yes no =>
    let status ← e.run true test
    if status == 0 then e.run tested yes
    else match no with
      | some c => e.run tested c
      | none => setStatus 0
  | .loop untilTrue test body =>
    setStatus (← enclosed (runLoop e tested untilTrue test body maxRounds 0))
  | .forEach line name ws body =>
    setLine line
    let values ← allFields e ws
    setStatus (← enclosed (runForEach e tested name body values 0))
  | .select line word cases =>
    setLine line
    let text ← textOf e word
    setStatus (← runCases e tested text cases)
  | .define name body =>
    modifyFrame fun f => { f with functions := setEntry name body f.functions }
    setStatus 0

def glyphsStep (e : Engine m) (p : Purpose) (w : Word) : ShellM m (List Glyph) := do
  wordGlyphs e p (← expandTilde (· == '/') w)

def maxNesting : Nat := 2000

-- The parts of a shell, for commands that are nested at most so deep.
def engine (tools : Engine m → String → Option (Action m)) : Nat → Engine m
  | 0 => ⟨fun _ _ => tooDeep, fun _ _ => tooDeep, fun _ => tooDeep, fun _ _ => tooDeep⟩
  | depth + 1 => {
      run := fun tested c => do
        let e := engine tools depth
        runStep (fun name => (tools e name).isSome) e tested c
      script := fun tested text => do runScript (engine tools depth) tested text
      program := fun words => do
        let e := engine tools depth
        runProgram (tools e) e words
      glyphs := fun p w => do glyphsStep (engine tools depth) p w }
where
  tooDeep {α : Type} : ShellM m α := fail "nested too deep"

end

end Classwright.Shell
