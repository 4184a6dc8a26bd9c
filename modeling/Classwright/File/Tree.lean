import Classwright.File.Fault
import Classwright.File.Path
import Classwright.Text.Bytes

namespace Classwright

abbrev Place := List String

inductive FileNode where
  -- A file; its content is held as bytes.
  | file (content : String) (executable : Bool)
  | directory (entries : List (String × FileNode))
  | link (target : String)

namespace FileNode

def isDirectory : FileNode → Bool
  | .directory _ => true
  | _ => false

def entries : FileNode → List (String × FileNode)
  | .directory entries => entries
  | _ => []

def child? (n : FileNode) (name : String) : Option FileNode := n.entries.lookup name

def find? (n : FileNode) : Place → Option FileNode
  | [] => some n
  | name :: rest => (n.child? name).bind (·.find? rest)

def setEntry (name : String) (node : FileNode) : List (String × FileNode) → List (String × FileNode)
  | [] => [(name, node)]
  | (other, old) :: rest =>
    if other == name then (name, node) :: rest else (other, old) :: setEntry name node rest

-- Puts a node at a place; directories that are missing on the way are made.
def put : FileNode → Place → FileNode → FileNode
  | _, [], node => node
  | n, name :: rest, node =>
    .directory (setEntry name (put ((n.child? name).getD (.directory [])) rest node) n.entries)

def erase : FileNode → Place → FileNode
  | n, [] => n
  | n, [name] => .directory (n.entries.filter (·.1 != name))
  | n, name :: rest =>
    match n.child? name with
    | some below => .directory (setEntry name (erase below rest) n.entries)
    | none => n

end FileNode

-- Paths are looked up name by name, so every name but the last has to lead to a directory; links on
-- the way are followed.
structure FileTree where
  current : Place
  root : FileNode

namespace FileTree

def node? (t : FileTree) (place : Place) : Option FileNode := t.root.find? place

def put (t : FileTree) (place : Place) (node : FileNode) : FileTree :=
  { t with root := t.root.put place node }

def erase (t : FileTree) (place : Place) : FileTree := { t with root := t.root.erase place }

def withDirectory (t : FileTree) (place : Place) : FileTree :=
  if (t.node? place).isSome then t else t.put place (.directory [])

def ofFiles (current : Place) (files : List (String × String)) : FileTree :=
  files.foldl
    (fun t (path, content) =>
      t.put (current ++ Path.names path) (.file (Text.toBytes content) false))
    (withDirectory ⟨current, .directory []⟩ current)

def maxNameSize : Nat := 255

def maxPathSize : Nat := 4095

def maxLinks : Nat := 40

-- Follows names from a place that is reached already, through at most `links` links. The last name
-- is followed through a link only if `through` says so.
def follow (t : FileTree) (through : Bool) (links : Nat) (place : Place) (names : List String) :
    Except FileFault Place :=
  match names with
  | [] => .ok place
  | name :: rest =>
    match t.node? place with
    | none => .error .notFound
    | some (.directory entries) =>
      if name == "" || name == "." then t.follow through links place rest
      else if name == ".." then t.follow through links place.dropLast rest
      else if maxNameSize < name.utf8ByteSize then .error .nameTooLong
      else match entries.lookup name with
        | some (.link target) =>
          if !through && rest.isEmpty then .ok (place ++ [name])
          else match links with
            | 0 => .error .tooManyLinks
            | links + 1 =>
              t.follow through links (if Path.isAbsolute target then [] else place)
                (Path.names target ++ rest)
        | _ => t.follow through links (place ++ [name]) rest
    | some _ => .error .notDirectory
termination_by (links, names.length)

-- The place that a path leads to; what is there need not exist.
def locate (t : FileTree) (path : String) (through : Bool) : Except FileFault Place :=
  if path == "" then .error .notFound
  else if path.toList.contains '\x00' then .error .invalidName
  else if maxPathSize < path.utf8ByteSize then .error .nameTooLong
  else t.follow through maxLinks (if Path.isAbsolute path then [] else t.current) (Path.names path)

def find? (t : FileTree) (path : String) (through : Bool) : Option FileNode :=
  match t.locate path through with
  | .ok place => t.node? place
  | .error _ => none

def read (t : FileTree) (path : String) : Except FileFault String := do
  match t.node? (← t.locate path true) with
  | some (.file content _) => .ok content
  | some _ => .error .isDirectory
  | none => .error .notFound

def checkNew (t : FileTree) (place : Place) : Except FileFault Unit :=
  match t.node? place.dropLast with
  | some (.directory _) => .ok ()
  | some _ => .error .notDirectory
  | none => .error .notFound

def write (t : FileTree) (path content : String) : Except FileFault FileTree := do
  let trimmed := Path.trimSlashes path
  let place ← t.locate (if trimmed == "" then path else trimmed) true
  match t.node? place with
  | some (.directory _) => .error .isDirectory
  | some (.file _ executable) =>
    if trimmed == path then .ok (t.put place (.file content executable)) else .error .notDirectory
  | some (.link _) => .error .tooManyLinks
  | none =>
    t.checkNew place
    if trimmed == path then .ok (t.put place (.file content false)) else .error .isDirectory

def makeDirectory (t : FileTree) (path : String) : Except FileFault FileTree := do
  let trimmed := Path.trimSlashes path
  let place ← t.locate (if trimmed == "" then path else trimmed) false
  match t.node? place with
  | some _ => .error .exists
  | none =>
    t.checkNew place
    .ok (t.put place (.directory []))

def makeLink (t : FileTree) (path target : String) : Except FileFault FileTree := do
  let place ← t.locate path false
  match t.node? place with
  | some _ => .error .exists
  | none =>
    t.checkNew place
    .ok (t.put place (.link target))

def list (t : FileTree) (path : String) : Except FileFault (List String) := do
  match t.node? (← t.locate path true) with
  | some (.directory entries) => .ok (entries.map (·.1))
  | some _ => .error .notDirectory
  | none => .error .notFound

def remove (t : FileTree) (path : String) : Except FileFault FileTree := do
  let place ← t.locate path false
  match t.node? place with
  | none => .error .notFound
  | some (.directory (_ :: _)) => .error .notEmpty
  | some _ => .ok (t.erase place)

-- Gives a file or directory another place, where only one of its own kind may be replaced.
def rename (t : FileTree) (path target : String) : Except FileFault FileTree := do
  let source ← t.locate (Path.trimSlashes path) false
  let place ← t.locate (Path.trimSlashes target) false
  match t.node? source with
  | none => .error .notFound
  | some node =>
    t.checkNew place
    if source == place then return t
    if source.isPrefixOf place then .error .invalid
    match t.node? place with
    | some (.directory (_ :: _)) =>
      if node.isDirectory then .error .notEmpty else .error .isDirectory
    | some (.directory []) => if node.isDirectory then pure () else .error .isDirectory
    | some _ => if node.isDirectory then .error .notDirectory else pure ()
    | none => pure ()
    .ok ((t.erase source).put place node)

def setExecutable (t : FileTree) (path : String) (executable : Bool) :
    Except FileFault FileTree := do
  let place ← t.locate path true
  match t.node? place with
  | none => .error .notFound
  | some (.file content _) => .ok (t.put place (.file content executable))
  | some _ => .ok t

-- The places of the nodes below a node that are no directories, by the path that leads there.
def leaves (label : String) : Nat → FileNode → List String
  | 0, _ => []
  | depth + 1, .directory entries =>
    entries.flatMap fun (name, node) =>
      leaves (if label == "" then name else label ++ "/" ++ name) depth node
  | _ + 1, _ => [label]

def maxDepth : Nat := 4096

def files (t : FileTree) : List (String × String) :=
  match t.node? t.current with
  | none => []
  | some node =>
    (leaves "" maxDepth node).filterMap fun path =>
      match t.read path with
      | .ok content => some (path, Text.ofBytes content)
      | .error _ => none

end FileTree

end Classwright
