import ControllerTypes.Emission.Sink
import ControllerTypes.Files.Failure
import ControllerTypes.Files.Path

/-!
# `ControllerTypes.Files.Disk`: directories that packages are written to

A `Disk` is whatever files can be read from and written to, by operations each of which may be
refused. `Disk.ensureDirectory` is the generator's `ensure_output_dir`: a directory that is missing is
made together with all that are missing above it, and one that is there is probed by a file that is
removed again. `Disk.directory` is its `DirectorySink`, which writes a package into a directory.
-/

set_option autoImplicit false

namespace ControllerTypes.Files

/-- A place with files. -/
structure Disk (m : Type → Type) [Monad m] where
  /-- The contents of a file. -/
  read : String → ExceptT Failure m ByteArray
  /-- A file gets new contents. -/
  write : String → ByteArray → ExceptT Failure m Unit
  /-- A directory is made in one that is there. -/
  makeDirectory : String → ExceptT Failure m Unit
  /-- Whether the path is a directory. -/
  isDirectory : String → ExceptT Failure m Bool
  /-- A file is made in a directory and removed again, to see that one can be. Where everything may be
  written there is nothing to see. -/
  probe : String → ExceptT Failure m Unit := fun _ => pure ()

namespace Disk

variable {m : Type → Type} [Monad m]

/-- The path is there and is a directory. -/
def hasDirectory (disk : Disk m) (path : String) : ExceptT Failure m Bool :=
  tryCatch (disk.isDirectory path) fun _ => pure false

/-- A directory is made unless it is there already. -/
def makeUnlessThere (disk : Disk m) (path : String) : ExceptT Failure m Unit :=
  tryCatch (disk.makeDirectory path) fun failure => do
    unless ← disk.hasDirectory path do throw failure

/-- The first directory of the list is made, and for that the others as far as they are missing. -/
def makeAll (disk : Disk m) : List String → ExceptT Failure m Unit
  | [] => throw (.other "failed to create whole tree")
  | path :: parents => do
    unless path == "" do
      tryCatch (disk.makeUnlessThere path) fun failure => do
        if failure == .missing then
          disk.makeAll parents
          disk.makeUnlessThere path
        else throw failure

/-- The first part of the name of a file that is made only to see that one can be. The rest is six
characters of no meaning. -/
def probeName : String := ".ackgen-"

/-- The directory is made if it is missing. The answer is whether it was there, and then it has been
probed: a directory that files cannot be made in is refused before the first of them is written. -/
def ensureDirectory (disk : Disk m) (path : String) : ExceptT Error m Bool := do
  match ← (disk.isDirectory path).run with
  | .ok true =>
    (disk.probe path).adapt fun failure => .files (.notWriteable path failure.message)
    return true
  | .ok false => throw (.files (.notADirectory path))
  | .error .missing =>
    (disk.makeAll (withParents path)).adapt fun failure => .files (.failed failure.message)
    return false
  | .error failure => throw (.files (.failed failure.message))

/-- The sink that writes files into a directory. -/
def directory (disk : Disk m) (path : String) : Sink m where
  prepare := do discard <| disk.ensureDirectory path
  write name contents :=
    (disk.write (join path name) contents).adapt fun failure => .files (.failed failure.message)

end Disk

end ControllerTypes.Files
