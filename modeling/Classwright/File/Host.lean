import Classwright.File.Tree

namespace Classwright

inductive FileKind where
  | directory
  | file
  deriving Repr, DecidableEq

structure Execution where
  status : Nat
  messages : String
  deriving Repr, DecidableEq

structure Host (m : Type → Type) where
  currentDirectory : m String
  kind? : String → m (Option FileKind)
  linkTarget? : String → m (Option String)
  readBytes : String → m (Except FileFault String)
  writeBytes : String → String → m (Except FileFault Unit)
  isExecutable : String → m Bool
  setExecutable : String → Bool → m (Except FileFault Unit)
  makeDirectory : String → m (Except FileFault Unit)
  makeLink : String → String → m (Except FileFault Unit)
  list : String → m (Except FileFault (List String))
  remove : String → m (Except FileFault Unit)
  rename : String → String → m (Except FileFault Unit)
  say : String → m Unit
  note : String → m Unit

-- What runs a script of the configuration. How it does that is not the generator's concern.
abbrev Runner (m : Type → Type) : Type := String → m Execution

namespace Host

variable {m : Type → Type} [Monad m]

def isDirectory (host : Host m) (path : String) : m Bool :=
  return (← host.kind? path) == some .directory

def read (host : Host m) (path : String) : m (Except FileFault String) := do
  match ← host.readBytes path with
  | .ok bytes =>
    match Text.ofBytes? bytes with
    | some text => return .ok text
    | none => return .error .notText
  | .error fault => return .error fault

def write (host : Host m) (path text : String) : m (Except FileFault Unit) :=
  host.writeBytes path (Text.toBytes text)

-- Makes directories from the nearest one that exists; tells which are still missing.
def missingDirectories (host : Host m) : List String → m (Except FileFault (List String))
  | [] => return .ok []
  | path :: above => do
    match ← host.makeDirectory path with
    | .ok () => return .ok []
    | .error .notFound => return (← host.missingDirectories above).map (· ++ [path])
    | .error fault => return if ← host.isDirectory path then .ok [] else .error fault

-- Makes each of some directories, the outermost first, unless it is there.
def makeEach (host : Host m) : List String → m (Except FileFault Unit)
  | [] => return .ok ()
  | path :: below => do
    match ← host.makeDirectory path with
    | .ok () => host.makeEach below
    | .error fault =>
      if ← host.isDirectory path then host.makeEach below else return .error fault

-- Makes a directory and those that it lies in, unless they are there.
def makeDirectories (host : Host m) (path : String) : m (Except FileFault Unit) := do
  if path == "" then return .ok ()
  match ← host.missingDirectories (Path.ancestors path) with
  | .ok missing => host.makeEach missing
  | .error fault => return .error fault

end Host

structure World where
  tree : FileTree
  printed : List String

namespace World

-- Changes the tree, unless the change fails.
def change (f : FileTree → Except FileFault FileTree) : StateM World (Except FileFault Unit) :=
  fun w =>
    match f w.tree with
    | .ok tree => (.ok (), { w with tree := tree })
    | .error fault => (.error fault, w)

-- The host of a file tree; notes are dropped.
def host : Host (StateM World) where
  currentDirectory := return "/" ++ "/".intercalate (← get).tree.current
  kind? path := return ((← get).tree.find? path true).map fun node =>
    if node.isDirectory then .directory else .file
  linkTarget? path := return match (← get).tree.find? path false with
    | some (.link target) => some target
    | _ => none
  readBytes path := return (← get).tree.read path
  writeBytes path content := change (·.write path content)
  isExecutable path := return match (← get).tree.find? path true with
    | some (.file _ executable) => executable
    | _ => false
  setExecutable path executable := change (·.setExecutable path executable)
  makeDirectory path := change (·.makeDirectory path)
  makeLink path target := change (·.makeLink path target)
  list path := return (← get).tree.list path
  remove path := change (·.remove path)
  rename path target := change (·.rename path target)
  say line := modify fun w => { w with printed := w.printed ++ [line] }
  note _ := pure ()

end World

end Classwright
