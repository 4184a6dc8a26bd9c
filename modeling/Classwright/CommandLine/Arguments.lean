import Classwright.Settings.Config
import Classwright.Text.Lines

namespace Classwright.CommandLine

inductive Switch where
  | spec
  | output
  | config
  | language
  | dumpGraph
  | verbose
  | help
  | version
  deriving Repr, DecidableEq

namespace Switch

def all : List Switch := [.spec, .output, .config, .language, .dumpGraph, .verbose, .help, .version]

def longName : Switch → String
  | .spec => "spec"
  | .output => "output"
  | .config => "config"
  | .language => "language"
  | .dumpGraph => "dump-graph"
  | .verbose => "verbose"
  | .help => "help"
  | .version => "version"

def shortName? : Switch → Option Char
  | .spec => some 's'
  | .output => some 'o'
  | .config => some 'c'
  | .language => some 'l'
  | .dumpGraph => none
  | .verbose => some 'v'
  | .help => some 'h'
  | .version => some 'V'

def takesValue : Switch → Bool
  | .spec => true
  | .output => true
  | .config => true
  | .language => true
  | _ => false

def ofLongName? (name : String) : Option Switch := all.find? (·.longName == name)

def ofShortName? (c : Char) : Option Switch := all.find? (·.shortName? == some c)

end Switch

inductive UsageError where
  | unknown (argument : String)
  | missingValue (switch : Switch)
  | needlessValue (switch : Switch)
  | repeated (switch : Switch)
  | language (name : String)
  deriving Repr, DecidableEq

namespace UsageError

def message : UsageError → String
  | .unknown argument => "unexpected argument '" ++ argument ++ "'"
  | .missingValue switch => "a value is required for '--" ++ switch.longName ++ "'"
  | .needlessValue switch => "no value is expected for '--" ++ switch.longName ++ "'"
  | .repeated switch => "'--" ++ switch.longName ++ "' cannot be used several times"
  | .language name => Language.unsupported name

end UsageError

structure Arguments where
  spec : Option String
  output : Option String
  config : Option String
  languages : List Language
  dumpGraph : Bool
  verbose : Bool
  deriving Repr, DecidableEq

inductive Request where
  | help
  | version
  | run (arguments : Arguments)
  deriving Repr, DecidableEq

namespace Arguments

def none : Arguments := ⟨.none, .none, .none, [], false, false⟩

def overrides (a : Arguments) : Settings.Overrides := ⟨a.spec, a.output, a.languages⟩

def single (switch : Switch) (before : Option String) (value : String) :
    Except UsageError (Option String) :=
  if before.isSome then .error (.repeated switch)
  else if value == "" then .error (.missingValue switch)
  else .ok (some value)

def languagesOf : List String → Except UsageError (List Language)
  | [] => .ok []
  | name :: rest =>
    match Language.ofName? name with
    | some language => (languagesOf rest).map (language :: ·)
    | .none => .error (.language name)

def setValue (a : Arguments) (switch : Switch) (value : String) : Except UsageError Arguments := do
  match switch with
  | .spec => return { a with spec := ← single switch a.spec value }
  | .output => return { a with output := ← single switch a.output value }
  | .config => return { a with config := ← single switch a.config value }
  | .language =>
    return { a with languages := a.languages ++ (← languagesOf (Text.splitOn ',' value)) }
  | _ => throw (.needlessValue switch)

inductive Next where
  | continue (a : Arguments) (taken : Bool)
  | done (r : Request)

def setFlag (a : Arguments) (switch : Switch) : Except UsageError Next :=
  match switch with
  | .dumpGraph =>
    if a.dumpGraph then .error (.repeated switch)
    else .ok (.continue { a with dumpGraph := true } false)
  | .verbose =>
    if a.verbose then .error (.repeated switch)
    else .ok (.continue { a with verbose := true } false)
  | .help => .ok (.done .help)
  | .version => .ok (.done .version)
  | _ => .error (.missingValue switch)

def isValue (argument : String) : Bool := !argument.startsWith "-" || argument == "-"

def takeNext (a : Arguments) (switch : Switch) (rest : List String) : Except UsageError Next :=
  match rest.head?.filter isValue with
  | some value => (a.setValue switch value).map (.continue · true)
  | .none => .error (.missingValue switch)

-- A switch by its long name, with its value behind an equals sign or in the next argument.
def readLong (a : Arguments) (argument : List Char) (rest : List String) :
    Except UsageError Next :=
  let name := argument.takeWhile (· != '=')
  let value := (argument.drop (name.length + 1))
  let hasValue := name.length < argument.length
  match Switch.ofLongName? (.ofList name) with
  | .none => .error (.unknown ("--" ++ .ofList argument))
  | some switch =>
    if hasValue then
      if switch.takesValue then (a.setValue switch (.ofList value)).map (.continue · false)
      else .error (.needlessValue switch)
    else if switch.takesValue then a.takeNext switch rest
    else a.setFlag switch

-- Switches by their letters; behind the letter of one that takes a value comes the value.
def readLetters (a : Arguments) (rest : List String) : List Char → Except UsageError Next
  | [] => .ok (.continue a false)
  | c :: more =>
    match Switch.ofShortName? c with
    | .none => .error (.unknown ("-" ++ c.toString))
    | some switch =>
      if switch.takesValue then
        match more with
        | [] => a.takeNext switch rest
        | '=' :: value => (a.setValue switch (.ofList value)).map (.continue · false)
        | value => (a.setValue switch (.ofList value)).map (.continue · false)
      else
        match a.setFlag switch with
        | .ok (.continue a _) => readLetters a rest more
        | other => other

def readOne (a : Arguments) (argument : String) (rest : List String) : Except UsageError Next :=
  match argument.toList with
  | ['-', '-'] =>
    match rest with
    | [] => .ok (.continue a false)
    | surplus :: _ => .error (.unknown surplus)
  | '-' :: '-' :: name => a.readLong name rest
  | '-' :: letter :: letters => a.readLetters rest (letter :: letters)
  | _ => .error (.unknown argument)

-- Reads on; `taken` tells whether the first argument was a value. The first argument that is at
-- fault decides, and so does the first one that asks for the version or for help.
def readFrom (a : Arguments) (taken : Bool) : List String → Except UsageError Request
  | [] => .ok (.run a)
  | argument :: rest =>
    if taken then readFrom a false rest
    else match a.readOne argument rest with
      | .ok (.continue a taken) => readFrom a taken rest
      | .ok (.done request) => .ok request
      | .error e => .error e

end Arguments

def Request.ofArguments (arguments : List String) : Except UsageError Request :=
  Arguments.none.readFrom false arguments

end Classwright.CommandLine
