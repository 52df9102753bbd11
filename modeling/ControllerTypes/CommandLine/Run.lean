import ControllerTypes.CommandLine.Arguments
import ControllerTypes.Emission.Generator
import ControllerTypes.Emission.Templates
import ControllerTypes.Files.Disk
import ControllerTypes.Input
import ControllerTypes.Settings.OfYaml
import ControllerTypes.Text.Quoted

/-!
# `ControllerTypes.CommandLine.Run`: the program

The program reads a description and writes the package made from it: into a directory, or one file
after the other to standard output. What it has to say meanwhile goes to standard error, so that
standard output holds nothing but files.

Everything it needs from its surroundings is a `Surroundings`, so the same program runs on a disk
and on a `Files.Tree`.

`Surroundings.types` is `types_command`, `Surroundings.settingsIn` is `GeneratorConfig::load`, and
`Mishap.text` is what a failure is reported as, with its causes below it.
-/

set_option autoImplicit false

namespace ControllerTypes.CommandLine

open Files Text

/-- What the program runs in. -/
structure Surroundings (m : Type → Type) [Monad m] where
  disk : Disk m
  /-- The contents of standard input. -/
  input : m ByteArray
  /-- A text is written to standard output. -/
  print : String → m Unit
  /-- A text is written to standard error. -/
  report : String → m Unit

/-- A failure, and what was being done. -/
structure Mishap where
  attempt : Option String
  error : Error

/-- A step of the program. -/
abbrev Program (m : Type → Type) (α : Type) := ExceptT Mishap m α

namespace Mishap

/-- What is behind a failure: what happened, and below it what the file system said. -/
def causes (e : Error) : List String :=
  e.message ::
    match e with
    | .files fault => [fault.message]
    | _ => []

/-- A text whose further lines are indented. -/
def indented (margin text : String) : String :=
  String.ofList (text.toList.flatMap fun c => if c == '\n' then '\n' :: margin.toList else [c])

/-- A cause in the list of all of them, numbered unless it is the only one. -/
def causeLine (numbered : Bool) (number : Nat) (cause : String) : String :=
  if numbered then "    " ++ toString number ++ ": " ++ indented "       " cause ++ "\n"
  else "    " ++ indented "    " cause ++ "\n"

/-- The failure as the program reports it. -/
def text (f : Mishap) : String :=
  match f.attempt with
  | none => "Error: " ++ f.error.message ++ "\n"
  | some attempt =>
    let all := causes f.error
    "Error: " ++ attempt ++ "\n\nCaused by:\n"
      ++ String.join (all.zipIdx.map fun (cause, number) => causeLine (1 < all.length) number cause)

end Mishap

variable {m : Type → Type} [Monad m]

/-- A step that was attempted. -/
def attempting {α : Type} (what : String) (step : ExceptT Error m α) : Program m α :=
  step.adapt fun e => ⟨some what, e⟩

namespace Surroundings

/-- The settings in a file. -/
def settingsIn (s : Surroundings m) (path : String) : ExceptT Error m Settings := do
  let shown := Quoting.fileName.quote path
  let refuse (reason : String) : Error :=
    .settings ("Failed to read config file " ++ shown ++ ": " ++ reason)
  let bytes ← (s.disk.read path).adapt fun failure => refuse failure.message
  match Utf8.decode? bytes with
  | none => throw (refuse "stream did not contain valid UTF-8")
  | some text =>
    match Settings.ofYaml text with
    | .ok settings => return settings
    | .error (.settings detail) => throw (.settings (detail ++ " (in " ++ shown ++ ")"))
    | .error e => throw e

/-- The settings the options name. -/
def settings (s : Surroundings m) (options : Options) : Program m Settings :=
  match options.config with
  | none => pure {}
  | some path => attempting ("Failed to load config " ++ path) (s.settingsIn path)

/-- The contents of an input. -/
def contents (s : Surroundings m) : Input → ExceptT Error m ByteArray
  | .standard => s.input
  | .file path => (s.disk.read path).adapt fun failure => .files (.failed failure.message)

/-- The sink the options name. -/
def sink (s : Surroundings m) (options : Options) : Sink m :=
  match options.output with
  | some path => s.disk.directory path
  | none => Sink.printing fun text => s.print text

/-- What was found in a description. -/
def found (api : CompiledApi) : String :=
  "✓ Found " ++ toString api.resources.length ++ " resources and " ++ toString api.types.length
    ++ " types for " ++ api.group ++ "/" ++ api.version ++ "\n"

/-- The resources in a description, one a line. -/
def resourceLines (api : CompiledApi) : String :=
  "\nResources:\n"
    ++ String.join (api.resources.map fun r =>
      "  • " ++ r.kind ++ " (" ++ r.summary ++ ") from " ++ r.schemaName ++ "\n")
    ++ "\n"

/-- The files that were written, one a line. -/
def fileLines (directory : String) (names : List String) : String :=
  "\nGenerated files:\n"
    ++ String.join (names.map fun name => "  " ++ join directory name ++ "\n")

/-- The command `types`. -/
def types (s : Surroundings m) (options : Options) : Program m Unit := do
  let input ← ExceptT.adapt (fun e => Mishap.mk none e)
    (liftExcept (Input.ofArguments options.files))
  let settings ← s.settings options
  s.report ("→ Reading API description from: " ++ input.name ++ "\n")
  let bytes ← attempting ("Failed to read " ++ input.name) (s.contents input)
  let generator := Generator.new settings options.version
  let (compiled, stage) ← (generator.compile input.format bytes).run.run Stage.idle
  let api ← attempting "Failed to analyze API description" (liftExcept compiled)
  s.report (found api)
  if options.verbose then s.report (resourceLines api)
  let (written, _) ←
    (Generator.emit Templates.renderer (s.sink options) api).run.run stage
  let names ← attempting "Failed to generate types" (liftExcept written)
  s.report "✓ Generation complete!\n"
  match options.output with
  | some directory => s.report (fileLines directory names)
  | none => pure ()
where
  /-- An outcome as a step. -/
  liftExcept {α : Type} (outcome : Except Error α) : ExceptT Error m α := ExceptT.mk (pure outcome)

/-- The name and the version of the program. -/
def programVersion : String := "ackgen 0.1.0\n"

/-- How to use the program. -/
def usage : String :=
  "Generate controller API types from OpenAPI descriptions\n\n"
    ++ "Usage: ackgen types [--verbose] [--version <API_VERSION>] [--output <OUTPUT>] "
    ++ "[--config <CONFIG>] [FILES]...\n"

/-- The program with its arguments. The answer is the code it exits with: 0 after success, 1 after a
failure, 2 if the arguments make no sense. -/
def run (s : Surroundings m) (arguments : List String) : m UInt32 := do
  match Request.ofArguments? arguments with
  | none =>
    s.report usage
    return 2
  | some .help =>
    s.print usage
    return 0
  | some .version =>
    s.print programVersion
    return 0
  | some (.types options) =>
    match ← (s.types options).run with
    | .ok () => return 0
    | .error mishap =>
      s.report mishap.text
      return 1

end Surroundings

end ControllerTypes.CommandLine
