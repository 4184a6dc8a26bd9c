import Classwright.Shell.Arithmetic
import Classwright.Shell.Wildcard

namespace Classwright.Shell

inductive Glyph where
  -- A byte; a field may end at it if it is part of a value without quotes around it.
  | byte (c : Char) (quoted splits : Bool)
  | gap
  | quotation
  deriving Repr, DecidableEq

namespace Glyph

def ofValue (quoted splits : Bool) (value : String) : List Glyph :=
  value.toList.map (.byte · quoted splits)

def text (gs : List Glyph) : String :=
  .ofList (gs.filterMap fun
    | .byte c _ _ => some c
    | _ => none)

def marks (gs : List Glyph) : List Wildcard.Mark :=
  gs.filterMap fun
    | .byte c quoted _ => some (c, quoted)
    | _ => none

def pattern (gs : List Glyph) : List Wildcard :=
  Wildcard.ofMarks ['!'] (gs.length + 1) (marks gs)

end Glyph

-- Fields that are being put together; `field` is the one at work, in reverse.
structure Fields where
  done : List (List Wildcard.Mark)
  field : Option (List Wildcard.Mark)
  blankEnded : Bool

namespace Fields

def finish (s : Fields) (blankEnded : Bool) : Fields :=
  match s.field with
  | some field => ⟨field.reverse :: s.done, none, blankEnded⟩
  | none => { s with blankEnded := s.blankEnded && blankEnded }

def add (s : Fields) (marks : List Wildcard.Mark) : Fields :=
  ⟨s.done, some (marks ++ s.field.getD []), false⟩

-- Goes on with a glyph; `separators` are the bytes at which fields may end.
def push (separators : List Char) (s : Fields) : Glyph → Fields
  | .gap => s.finish false
  | .quotation => s.add []
  | .byte c quoted splits =>
    if !splits || !separators.contains c then s.add [(c, quoted)]
    else if Text.ByteClass.isSpace c then
      match s.field with
      | some _ => s.finish true
      | none => s
    else
      match s.field with
      | some _ => s.finish false
      | none => if s.blankEnded then { s with blankEnded := false } else (s.add []).finish false

def ofGlyphs (separators : List Char) (gs : List Glyph) : List (List Wildcard.Mark) :=
  ((gs.foldl (push separators) ⟨[], none, false⟩).finish false).done.reverse

end Fields

section

variable {m : Type → Type} [Monad m]

def fieldSeparators : ShellM m String := do
  match ← binding? "IFS" with
  | some v => return v.value.getD ""
  | none => return " \t\n"

def pathParts (field : List Wildcard.Mark) : List (List Wildcard.Mark) :=
  field.foldr (fun mark parts =>
    match mark.1, parts with
    | '/', parts => [] :: parts
    | _, part :: parts => (mark :: part) :: parts
    | _, [] => [[mark]]) [[]]

def hasWildcard (field : List Wildcard.Mark) : Bool :=
  field.any fun mark => !mark.2 && (mark.1 == '*' || mark.1 == '?' || mark.1 == '[')

def plainText (marks : List Wildcard.Mark) : String := .ofList (marks.map (·.1))

def namesLike (directory : String) (part : List Wildcard.Mark) : ShellM m (List String) := do
  let path ← fullPath (if directory == "" then "." else directory)
  match ← onHost (·.list path) with
  | .error _ => return []
  | .ok names =>
    let pattern := Wildcard.ofMarks ['!'] (part.length + 1) part
    let showsHidden :=
      match pattern with
      | .byte '.' :: _ => true
      | _ => false
    return ("." :: ".." :: names).filter fun name =>
      (showsHidden || !name.startsWith ".") && Wildcard.isMatch pattern name.toList

def pathExists (path : String) : ShellM m Bool := do
  let path ← fullPath path
  return (← onHost (·.linkTarget? path)).isSome || (← onHost (·.kind? path)).isSome

def pathsLike : List String → List (List Wildcard.Mark) → ShellM m (List String)
  | starts, [] => starts.filterM pathExists
  | starts, part :: parts => do
    let ending := if parts.isEmpty then "" else "/"
    let next ← starts.mapM fun start => do
      if hasWildcard part then
        return (← namesLike start part).map fun name => start ++ name ++ ending
      else return [start ++ plainText part ++ ending]
    pathsLike next.flatten parts

-- The names of the files that a field stands for; one that stands for none stays a text.
def filesLike (field : List Wildcard.Mark) : ShellM m (List String) := do
  if !hasWildcard field || (← hasOption 'f') then return [plainText field]
  match ← pathsLike [""] (pathParts field) with
  | [] => return [plainText field]
  | paths => return paths.mergeSort (· ≤ ·)

def processNumber : Nat := 4242

def optionOrder : List Char := "uabCEVvxsnmiIfe".toList

def parameter? (name : String) : ShellM m (Option String) := do
  let f ← frame
  match name with
  | "#" => return some (toString f.arguments.length)
  | "?" => return some (toString f.status)
  | "$" => return some (toString processNumber)
  | "!" => return none
  | "-" => return some (.ofList (optionOrder.filter f.options.contains))
  | "0" => return some f.scriptName
  | name =>
    match name.toNat? with
    | some n => return f.arguments[n - 1]?
    | none => value? name

def isArgumentList (name : String) : Bool := name == "@" || name == "*"

def joint : ShellM m String := return .ofList ((← fieldSeparators).toList.take 1)

def argumentGlyphs (name : String) (quoted fields : Bool) : ShellM m (List Glyph) := do
  let arguments := (← frame).arguments
  if fields && (name == "@" || !quoted) then
    let each (argument : String) : List Glyph :=
      (if quoted then [Glyph.quotation] else []) ++ Glyph.ofValue quoted (!quoted) argument
    return ((arguments.map each).intersperse [.gap]).flatten
  else return Glyph.ofValue quoted (!quoted) ((← joint).intercalate arguments)

structure Purpose where
  fields : Bool
  -- The word is part of a value, so that fields may end in it.
  inValue : Bool

inductive Refusal where
  | notFound
  | denied
  deriving DecidableEq

namespace Refusal

def reason : Refusal → String
  | .notFound => "not found"
  | .denied => "Permission denied"

def status : Refusal → Nat
  | .notFound => 127
  | .denied => 126

end Refusal

structure Engine (m : Type → Type) where
  -- Runs a command; its status may be one that something else depends on.
  run : Bool → Command → ShellM m Nat
  script : Bool → String → ShellM m Nat
  program : List String → ShellM m (Except Refusal Nat)
  glyphs : Purpose → Word → ShellM m (List Glyph)

def outputOf (e : Engine m) (body : Option Command) : ShellM m String := do
  let id ← newStream (.sink [])
  let (status, output) ← restoring do
    connect 1 (some id)
    modifyFrame fun f => { f with traps := [] }
    let status ←
      match body with
      | some c => statusOf (e.run false c)
      | none => pure 0
    return (status, ← collected id)
  modifyFrame fun f => { f with outputStatus := status }
  return .ofList (output.toList.reverse.dropWhile (· == '\n')).reverse

def textOf (e : Engine m) (w : Word) : ShellM m String :=
  return Glyph.text (← e.glyphs ⟨false, false⟩ w)

def patternOf (e : Engine m) (w : Word) : ShellM m (List Wildcard) :=
  return Glyph.pattern (← e.glyphs ⟨false, false⟩ w)

def useGlyphs (e : Engine m) (p : Purpose) (name : String) (use : ParameterUse)
    (quoted : Bool) : ShellM m (List Glyph) := do
  let isList := isArgumentList name
  let value? : Option String ←
    if isList then do
      let arguments := (← frame).arguments
      let between ← joint
      pure (if arguments.isEmpty then none else some (between.intercalate arguments))
    else parameter? name
  let shown : ShellM m (List Glyph) := do
    if isList then argumentGlyphs name quoted p.fields
    else return Glyph.ofValue quoted (!quoted) (value?.getD "")
  let checked : ShellM m Unit := do
    if value?.isNone && !isList && (← hasOption 'u') then fail (name ++ ": parameter not set")
  let isMissing (colon : Bool) : Bool := value?.isNone || (colon && value? == some "")
  let inner (w : Word) : ShellM m (List Glyph) := e.glyphs ⟨p.fields, !quoted⟩ w
  match use with
  | .value => do
    checked
    shown
  | .length => do
    checked
    return Glyph.ofValue quoted (!quoted) (toString (value?.getD "").length)
  | .orElse colon w => if isMissing colon then inner w else shown
  | .andThen colon w => if isMissing colon then return [] else inner w
  | .orAssign colon w =>
    if isMissing colon then do
      let text ← textOf e w
      if !isName name.toList then fail (name ++ ": bad variable name")
      setVariable name text false
      return Glyph.ofValue quoted (!quoted) text
    else shown
  | .orFail colon w =>
    if isMissing colon then do
      let text ← textOf e w
      let reason :=
        if w.isEmpty then "parameter not set" ++ if colon then " or null" else "" else text
      fail (name ++ ": " ++ reason)
    else shown
  | .trim front longest w => do
    checked
    let pattern ← patternOf e w
    let rest := Wildcard.trim pattern front longest (value?.getD "").toList
    return Glyph.ofValue quoted (!quoted) (.ofList rest)

def pieceGlyphs (e : Engine m) (p : Purpose) : Piece → ShellM m (List Glyph)
  | .text cs quoted =>
    return (if quoted then [Glyph.quotation] else []) ++
      cs.map (Glyph.byte · quoted (p.inValue && !quoted))
  | .parameter name use quoted => useGlyphs e p name use quoted
  | .command body quoted => do
    let text ← outputOf e body
    return Glyph.ofValue quoted (!quoted) text
  | .arithmetic w quoted => do
    let text ← textOf e w
    let n : Int ← Arithmetic.valueOf text
    return Glyph.ofValue quoted (!quoted) (toString n)
  | .malformed => fail "Bad substitution"

def homeOf (name : List Char) : ShellM m (Option String) := do
  if name.isEmpty then value? "HOME"
  else if name == "root".toList then return some "/root"
  else return none

-- Expands a tilde at the start of a word; behind the name that follows it, `ends` holds.
def expandTilde (ends : Char → Bool) (w : Word) : ShellM m Word := do
  match w with
  | .text ('~' :: cs) false :: rest =>
    let name := cs.takeWhile (!ends ·)
    let behind := cs.dropWhile (!ends ·)
    if behind.isEmpty && !rest.isEmpty then return w
    match ← homeOf name with
    | some home => return .text home.toList true :: .text behind false :: rest
    | none => return w
  | w => return w

def expandTildes (behind : Word) : Nat → List Char → ShellM m Word
  | 0, cs => return .text cs false :: behind
  | limit + 1, cs => do
    let first := cs.takeWhile (· != ':')
    match cs.dropWhile (· != ':') with
    | [] => expandTilde (· == '/') (.text cs false :: behind)
    | colon :: rest =>
      return (← expandTilde (· == '/') [.text first false]) ++
        .text [colon] false :: (← expandTildes behind limit rest)

def wordGlyphs (e : Engine m) (p : Purpose) (w : Word) : ShellM m (List Glyph) :=
  return (← w.mapM (pieceGlyphs e p)).flatten

def markedFields (e : Engine m) (w : Word) : ShellM m (List (List Wildcard.Mark)) := do
  let gs ← e.glyphs ⟨true, false⟩ w
  return Fields.ofGlyphs (← fieldSeparators).toList gs

def fieldsOf (e : Engine m) (w : Word) : ShellM m (List String) := do
  return (← (← markedFields e w).mapM filesLike).flatten

def allFields (e : Engine m) (ws : List Word) : ShellM m (List String) :=
  return (← ws.mapM (fieldsOf e)).flatten

def assignedValue (e : Engine m) (w : Word) : ShellM m String := do
  let w ←
    match w with
    | .text cs false :: rest => expandTildes rest (cs.length + 1) cs
    | w => pure w
  return Glyph.text (← wordGlyphs e ⟨false, false⟩ w)

end

end Classwright.Shell
