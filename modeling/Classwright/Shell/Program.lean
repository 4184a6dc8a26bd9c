import Classwright.Shell.Builtin

namespace Classwright.Shell

inductive Program where
  | tool (name : String)
  | script (path : String)
  deriving DecidableEq

def toolDirectories : List String :=
  ["/usr/local/sbin", "/usr/local/bin", "/usr/sbin", "/usr/bin", "/sbin", "/bin"]

def splitPath (path : String) : String × String :=
  let cs := path.toList.reverse
  (.ofList ((cs.dropWhile (· != '/')).drop 1).reverse, .ofList (cs.takeWhile (· != '/')).reverse)

section

variable {m : Type → Type} [Monad m]

def programAt (isTool : String → Bool) (path : String) : ShellM m (Except Refusal Program) := do
  let (directory, name) := splitPath path
  if toolDirectories.contains directory && isTool name then return .ok (.tool name)
  let full ← fullPath path
  match ← onHost (·.kind? full) with
  | none => return .error .notFound
  | some .directory => return .error .denied
  | some .file =>
    if ← onHost (·.isExecutable full) then return .ok (.script path) else return .error .denied

-- Looks a program up in directories; what may not be run is not what was looked for.
def programIn (isTool : String → Bool) (name : String) :
    List String → ShellM m (Except Refusal Program)
  | [] => return .error .notFound
  | directory :: rest => do
    let path := if directory == "" then name else directory ++ "/" ++ name
    match ← programAt isTool (if directory == "" then "./" ++ name else path) with
    | .ok found => return .ok found
    | .error refusal =>
      match ← programIn isTool name rest with
      | .ok found => return .ok found
      | .error .denied => return .error .denied
      | .error .notFound =>
        let isThere := (← onHost (·.kind? (← fullPath path))).isSome
        return .error (if isThere then refusal else .notFound)

def findProgram (isTool : String → Bool) (name : String) :
    ShellM m (Except Refusal Program) := do
  if name == "" then return .error .denied
  else if name.toList.contains '/' then programAt isTool name
  else programIn isTool name (Text.splitOn ':' ((← value? "PATH").getD ""))

def ending (e : Engine m) (body : ShellM m Nat) : ShellM m Nat := do
  let status ← statusOf body
  match (← frame).traps.lookup "EXIT" with
  | none => return status
  | some text =>
    modifyFrame fun f => { f with status := status, traps := removeEntry "EXIT" f.traps }
    tryCatch (do
      let _ ← e.script false text
      return status) fun
      | .exit status => return status
      | _ => return status

def ownVariables : List (String × Variable) :=
  [("IFS", " \t\n"), ("OPTIND", "1"), ("PATH", ":".intercalate toolDirectories),
    ("PPID", "4241"), ("PS1", "# "), ("PS2", "> "), ("PS4", "+ ")].map fun (name, value) =>
      (name, ⟨some value, false, false⟩)

-- Makes the shell at work a new one, with nothing left of it but what programs get to know.
def renew (name : String) (arguments : List String) (options : List Char) : ShellM m Unit := do
  let taken := (← environment).filter fun (name, _) => name != "IFS"
  let exported := taken.map fun (name, value) => (name, (⟨some value, true, false⟩ : Variable))
  let own := ownVariables.filter fun (name, _) => !exported.any (·.1 == name)
  modifyFrame fun f =>
    { f with
      bindings := exported ++ own, functions := [], hidden := [], scriptName := name,
      arguments := arguments, line := 1, status := 0, options := options, loops := 0, calls := 0,
      traps := [], builtin := none, cluster := 0 }

def shellOptions : List String → List Char → List Char × List String
  | [], letters => (letters, [])
  | "--" :: rest, letters => (letters, rest)
  | "-" :: rest, letters => (letters, rest)
  | "-o" :: name :: rest, letters =>
    match Builtin.optionNames.lookup name with
    | some letter => shellOptions rest (letter :: letters)
    | none => shellOptions rest letters
  | argument :: rest, letters =>
    if argument.startsWith "-" then shellOptions rest (argument.toList.drop 1 ++ letters)
    else (letters, argument :: rest)

-- The shell as a program: it runs a script from its arguments, from a file or from its input.
def shellProgram (e : Engine m) (name : String) : Action m := fun arguments => do
  let (letters, operands) := shellOptions arguments []
  let options := letters.filter fun c => c != 'c' && optionOrder.contains c
  if letters.contains 'c' then
    match operands with
    | [] =>
      putError (name ++ ": 0: -c requires an argument\n")
      return 2
    | text :: rest =>
      renew (rest.headD name) (rest.drop 1) options
      ending e (e.script false text)
  else
    match operands with
    | [] =>
      let text ← readAll 0
      renew name [] options
      ending e (e.script false text)
    | path :: rest =>
      match ← onHost (·.readBytes (← fullPath path)) with
      | .ok text =>
        renew path rest options
        ending e (e.script false text)
      | .error fault =>
        let reason := if fault == .isDirectory then fault.reason else "No such file"
        putError (name ++ ": 0: cannot open " ++ path ++ ": " ++ reason ++ "\n")
        return 2

def interpreter? (text : String) : Option (List String) :=
  match text.toList with
  | '#' :: '!' :: cs =>
    let line := String.ofList (cs.takeWhile (· != '\n'))
    some ((Text.splitOn ' ' line).filter (· != ""))
  | _ => none

-- Runs a program with its arguments; `tools` are the known programs.
def runProgram (tools : String → Option (Action m)) (e : Engine m) (words : List String) :
    ShellM m (Except Refusal Nat) := do
  let name := words.headD ""
  let inSubshell (action : ShellM m Nat) : ShellM m (Except Refusal Nat) := do
    let status ← restoring do
      modifyFrame fun f => { f with traps := [], builtin := none }
      statusOf action
    return .ok status
  match ← findProgram (fun name => (tools name).isSome) name with
  | .error refusal => return .error refusal
  | .ok (.tool tool) =>
    match tools tool with
    | some action => inSubshell (action (words.drop 1))
    | none => return .error .notFound
  | .ok (.script path) =>
    match ← onHost (·.readBytes (← fullPath path)) with
    | .error _ => return .error .denied
    | .ok text =>
      match interpreter? text with
      | some (program :: arguments) =>
        e.program (program :: arguments ++ path :: words.drop 1)
      | _ => inSubshell (shellProgram e "sh" (path :: words.drop 1))

end

end Classwright.Shell
