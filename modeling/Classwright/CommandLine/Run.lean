import Classwright.CommandLine.Arguments
import Classwright.CommandLine.Failure
import Classwright.Graph.Dump
import Classwright.Swagger.Load

namespace Classwright.CommandLine

open Settings Swagger

inductive Outcome where
  | success
  | usage (error : UsageError)
  | failure (failure : Failure)
  deriving Repr, DecidableEq

namespace Outcome

def exitCode : Outcome → Nat
  | .success => 0
  | .usage _ => 2
  | .failure _ => 1

end Outcome

def programName : String := "swagger-class-generator"

def versionLine : String := programName ++ " 0.1.0"

def helpLine : String :=
  "Usage: " ++ programName ++ " [--spec FILE] [--output DIRECTORY] [--config FILE]" ++
    " [--language LANGUAGES] [--dump-graph] [--verbose]"

section

variable {m : Type → Type} [Monad m] (host : Host m) (runner : Runner m)

def say (line : String) : ExceptT Failure m Unit := ExceptT.lift (host.say line)

def attempt {ε α : Type} (failure : ε → Failure) (action : m (Except ε α)) : ExceptT Failure m α :=
  ExceptT.mk do return (← action).mapError failure

def noteWarning (w : Warning) : m Unit :=
  let details := w.details.map fun (name, value) => " " ++ name ++ "=" ++ value
  host.note ("warning: " ++ w.message ++ String.join details)

def noteWarnings : List Warning → m Unit
  | [] => return
  | w :: rest => do
    noteWarning host w
    noteWarnings rest

-- Runs hooks; `moment` tells whether they come before or after the generation.
def runHooks (moment : String) : List String → ExceptT Failure m Unit
  | [] => return
  | script :: rest => do
    say host ("🎣 Running " ++ moment ++ " hook: " ++ script)
    if script.toList.contains '\x00' then throw .hookText
    let outcome ← ExceptT.lift (runner (Text.toBytes script))
    if outcome.status != 0 then throw (.hook script (Text.ofBytes outcome.messages))
    runHooks moment rest

def announceSkipped : List LanguageSettings → ExceptT Failure m Unit
  | [] => return
  | s :: rest => do
    if !s.enabled then say host ("⏭️  Skipping disabled language: " ++ s.language.name)
    announceSkipped rest

def writeFile (output : String) (f : GeneratedFile) : ExceptT Failure m Unit := do
  let directory := Path.join output f.directory
  attempt (.directory directory) (host.makeDirectories directory)
  let path := Path.join directory f.fileName
  attempt (.file path) (host.write path f.content)
  say host ("✅ Generated: " ++ Path.quote path)

def writeFiles (output : String) : List GeneratedFile → ExceptT Failure m Unit
  | [] => return
  | f :: rest => do
    writeFile host output f
    writeFiles output rest

def conclusion (files : List GeneratedFile) : String :=
  if files.isEmpty then "⚠️  No languages were enabled. Check your configuration."
  else "🎉 Successfully generated " ++ toString files.length ++ " file(s)!"

-- Stops at the first failure; what was written before stays.
def generate (c : Config) (input : String) (d : Document) : ExceptT Failure m Unit := do
  say host ("📖 Read " ++ Path.quote input ++ " (" ++ d.title ++ " " ++ d.version ++ ")")
  let output := c.output.getD Config.defaultOutput
  attempt .outputDirectory (host.makeDirectories output)
  runHooks host runner "before" c.hooks.beforeGenerate
  announceSkipped host c.languages
  let generated := Blueprint.generate Blueprint.passLimit d c.languages
  ExceptT.lift (noteWarnings host generated.warnings)
  let files ← attempt (ε := Error) .generation (pure generated.result)
  writeFiles host output files
  runHooks host runner "after" c.hooks.afterGenerate
  say host (conclusion files)

def dump (d : Document) : ExceptT Failure m Unit := do
  ExceptT.lift (noteWarnings host (Blueprint.warnings Blueprint.passLimit d))
  let text ← attempt (ε := Error) .dump (pure (Blueprint.dump Blueprint.passLimit d))
  say host text

def runArguments (a : Arguments) : ExceptT Failure m Unit := do
  let configured ← attempt .config (Config.load host a.config)
  let c := configured.override a.overrides
  match c.input with
  | none => throw .noInput
  | some input =>
    let d ← attempt (.input input) (Document.load host input)
    if a.verbose then
      let counts := toString d.schemas.length ++ " definitions, " ++
        toString d.operations.length ++ " operations"
      ExceptT.lift (host.note (input ++ ": " ++ counts))
    if a.dumpGraph then dump host d else generate host runner c input d

def run (arguments : List String) : m Outcome := do
  match Request.ofArguments arguments with
  | .error e => return .usage e
  | .ok .help =>
    host.say helpLine
    return .success
  | .ok .version =>
    host.say versionLine
    return .success
  | .ok (.run a) =>
    match ← (runArguments host runner a).run with
    | .ok () => return .success
    | .error f => return .failure f

end

end Classwright.CommandLine
