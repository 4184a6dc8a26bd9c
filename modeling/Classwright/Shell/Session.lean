import Classwright.File.Host
import Classwright.Shell.Syntax

namespace Classwright.Shell

structure Variable where
  value : Option String
  exported : Bool
  readonly : Bool
  deriving Inhabited

inductive Stream where
  | nowhere
  | source (rest : String)
  | sink (chunks : List String)
  | file (path : String) (position : Nat) (appends : Bool)
  deriving Inhabited

inductive Jump where
  | exit (status : Nat)
  -- A fault that ends the shell, unless it arose in a builtin that may fail.
  | fault (status : Nat)
  | breakLoop (levels : Nat)
  | continueLoop (levels : Nat)
  | leaveCall (status : Nat)

structure Frame where
  directory : String
  bindings : List (String × Variable)
  functions : List (String × Command)
  hidden : List (List (String × Option Variable))
  scriptName : String
  arguments : List String
  line : Nat
  status : Nat
  options : List Char
  descriptors : List (Nat × Nat)
  loops : Nat
  calls : Nat
  traps : List (String × String)
  builtin : Option String
  cluster : Nat
  mask : Nat
  outputStatus : Nat

structure Session where
  frame : Frame
  streams : Array Stream
  documents : List (Nat × Word)
  nextDocument : Nat

abbrev ShellM (m : Type → Type) := ReaderT (Host m) (ExceptT Jump (StateT Session m))

section

variable {m : Type → Type} [Monad m]

def frame : ShellM m Frame := return (← get).frame

def modifyFrame (f : Frame → Frame) : ShellM m Unit :=
  modify fun s => { s with frame := f s.frame }

def onHost {α : Type} (action : Host m → m α) : ShellM m α := fun host => do
  let result : α ← (action host : m α)
  return result

def restoring {α : Type} (action : ShellM m α) : ShellM m α := do
  let before ← frame
  let restore := modifyFrame fun _ => before
  let result ← tryCatch action fun jump => do
    restore
    throw jump
  restore
  return result

def statusOf (action : ShellM m Nat) : ShellM m Nat :=
  tryCatch action fun
    | .exit status => return status
    | .fault status => return status
    | .leaveCall status => return status
    | _ => return 0

def binding? (name : String) : ShellM m (Option Variable) :=
  return (← frame).bindings.lookup name

def value? (name : String) : ShellM m (Option String) :=
  return (← binding? name).bind (·.value)

def setEntry {α : Type} (name : String) (value : α) (entries : List (String × α)) :
    List (String × α) :=
  if entries.any (·.1 == name) then
    entries.map fun entry => if entry.1 == name then (name, value) else entry
  else (name, value) :: entries

def removeEntry {α : Type} (name : String) (entries : List (String × α)) : List (String × α) :=
  entries.filter (·.1 != name)

def restoreVariable (name : String) (old : Option Variable) : ShellM m Unit :=
  modifyFrame fun f =>
    { f with
      bindings :=
        match old with
        | some v => setEntry name v f.bindings
        | none => removeEntry name f.bindings }

def hasOption (letter : Char) : ShellM m Bool := return (← frame).options.contains letter

def newStream (stream : Stream) : ShellM m Nat := do
  let id := (← get).streams.size
  modify fun s => { s with streams := s.streams.push stream }
  return id

def stream? (descriptor : Nat) : ShellM m (Option Nat) :=
  return (← frame).descriptors.lookup descriptor

def setStream (id : Nat) (stream : Stream) : ShellM m Unit :=
  modify fun s => { s with streams := s.streams.setIfInBounds id stream }

def connect (descriptor : Nat) (id : Option Nat) : ShellM m Unit :=
  modifyFrame fun f =>
    let others := f.descriptors.filter (·.1 != descriptor)
    { f with
      descriptors :=
        match id with
        | some id => (descriptor, id) :: others
        | none => others }

def fullPath (path : String) : ShellM m String := do
  if path == "" then return "" else return Path.join (← frame).directory path

def splice (text : String) (position : Nat) (bytes : String) : String :=
  if position == text.length then text ++ bytes
  else
    let cs := text.toList
    let gap := List.replicate (position - cs.length) '\x00'
    .ofList (cs.take position ++ gap ++ bytes.toList ++ cs.drop (position + bytes.length))

-- Writes bytes to a descriptor; fails if it is closed.
def write (descriptor : Nat) (bytes : String) : ShellM m Bool := do
  match ← stream? descriptor with
  | none => return false
  | some id =>
    match (← get).streams[id]? with
    | some (.sink chunks) =>
      setStream id (.sink (bytes :: chunks))
      return true
    | some (.file path position appends) =>
      if bytes.isEmpty then return true
      match ← onHost (·.readBytes path) with
      | .error _ => return true
      | .ok text =>
        let position := if appends then text.length else position
        let _ ← onHost (·.writeBytes path (splice text position bytes))
        setStream id (.file path (position + bytes.length) appends)
        return true
    | some .nowhere => return true
    | _ => return false

def put (text : String) : ShellM m Unit := do let _ ← write 1 text

def putError (text : String) : ShellM m Unit := do let _ ← write 2 text

def unread (descriptor : Nat) : ShellM m (Option String) := do
  match ← stream? descriptor with
  | none => return none
  | some id =>
    match (← get).streams[id]? with
    | some (.source rest) => return some rest
    | some (.file path position _) =>
      match ← onHost (·.readBytes path) with
      | .ok text => return some (.ofList (text.toList.drop position))
      | .error _ => return some ""
    | some .nowhere => return some ""
    | _ => return none

def skipBytes (descriptor count : Nat) : ShellM m Unit := do
  match ← stream? descriptor with
  | none => return
  | some id =>
    match (← get).streams[id]? with
    | some (.source rest) => setStream id (.source (.ofList (rest.toList.drop count)))
    | some (.file path position appends) => setStream id (.file path (position + count) appends)
    | _ => return

def readAll (descriptor : Nat) : ShellM m String := do
  match ← unread descriptor with
  | none => return ""
  | some text =>
    skipBytes descriptor text.length
    return text

def collected (id : Nat) : ShellM m String := do
  match (← get).streams[id]? with
  | some (.sink chunks) => return String.join chunks.reverse
  | _ => return ""

def complain (text : String) : ShellM m Unit := do
  let f ← frame
  let place := f.scriptName ++ ": " ++ toString f.line ++ ": "
  let builtin := match f.builtin with
    | some name => name ++ ": "
    | none => ""
  putError (place ++ builtin ++ text ++ "\n")

def fail {α : Type} (text : String) : ShellM m α := do
  complain text
  throw (.fault 2)

-- Sets a variable; those that are set while the option for it is set are exported.
def setVariable (name value : String) (exports : Bool) : ShellM m Unit := do
  let old := (← binding? name).getD ⟨none, false, false⟩
  if old.readonly then fail (name ++ ": is read only")
  let exported := old.exported || exports || (← hasOption 'a')
  restoreVariable name (some { old with value := some value, exported := exported })

def unsetVariable (name : String) : ShellM m Unit := do
  match ← binding? name with
  | some v =>
    if v.readonly then fail (name ++ ": is read only")
    restoreVariable name none
  | none => return

def environment : ShellM m (List (String × String)) := do
  return (← frame).bindings.filterMap fun (name, v) =>
    if v.exported then v.value.map (name, ·) else none

end

end Classwright.Shell
