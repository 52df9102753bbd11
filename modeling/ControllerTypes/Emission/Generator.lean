import ControllerTypes.Emission.Sink
import ControllerTypes.Emission.Stage

/-!
# `ControllerTypes.Emission.Generator`: whole runs

A generator works a document out and writes the package made from it. What it may do next depends on
the `Stage` it is at, which is the state of every call: files are written only right after a
document was worked out, and any failure leaves the generator at `Stage.failed`.

Nothing reaches the sink before every file was rendered.

`compile`, `emit` and `run` are those of `TypesGenerator`. `settled` is its `track`, and `advance`
goes by the same name there.
-/

set_option autoImplicit false

namespace ControllerTypes

/-- A call of a generator: it may fail, and it leaves a stage behind either way. -/
abbrev Run (m : Type → Type) (α : Type) := ExceptT Error (StateT Stage m) α

/-- What a generator works with. -/
structure Generator where
  settings : Settings
  /-- The version of the generated API. -/
  version : String

namespace Generator

/-- The generator for a version, if one is asked for. -/
def new (settings : Settings) (version : Option String) : Generator :=
  ⟨settings, settings.versionOr version⟩

variable {m : Type → Type} [Monad m] {α : Type}

/-- The next stage is reached. -/
def advance (stage : Stage) : Run m Unit := set stage

/-- A call that leaves the generator failed if it fails. -/
def settled (call : Run m α) : Run m α :=
  tryCatch call fun e => do
    advance .failed
    throw e

/-- The description is worked out. -/
def compile (g : Generator) (format : Document.Format) (bytes : ByteArray) :
    Run m CompiledApi := settled do
  let api ← CompiledApi.read g.settings g.version format bytes
  advance .extracted
  return api

/-- The package is written, and the names of its files are the answer. -/
def emit (renderer : Renderer) (sink : Sink m) (api : CompiledApi) : Run m (List String) :=
  settled do
    let stage ← get
    if stage ≠ .extracted then throw (.misuse (.emitFrom stage))
    -- Everything is rendered before the sink hears of anything.
    let artifacts ← api.renderAll renderer
    ExceptT.mk (StateT.lift sink.prepare.run)
    ExceptT.mk (StateT.lift (sink.writeAll artifacts).run)
    advance .done
    return artifacts.map Artifact.name

/-- The description is worked out and the package written. -/
def run (g : Generator) (renderer : Renderer) (sink : Sink m) (format : Document.Format)
    (bytes : ByteArray) : Run m (List String) := do
  emit renderer sink (← g.compile format bytes)

end Generator

end ControllerTypes
