import ControllerTypes.Emission.Artifact
import ControllerTypes.Text.Blank
import ControllerTypes.Text.Utf8

/-!
# `ControllerTypes.Emission.Sink`: where artifacts go

A sink is told once that files are coming and then gets them one after the other. What it does with
them is up to the monad it works in: a state for a sink that remembers, `IO` for one that prints.

`listing` is the text by which a printing sink shows one file: a banner, and the contents without
the blanks around them.

`Sink` is `OutputSink`, and `Sink.printing` with `Sink.listing` is `StdoutSink`. The sink that
writes files is `Files.Disk.directory`.
-/

set_option autoImplicit false

namespace ControllerTypes

open Text

/-- A place to write files to. -/
structure Sink (m : Type → Type) where
  /-- Something is going to be written. -/
  prepare : ExceptT Error m Unit
  /-- A file is written under its name. -/
  write : String → ByteArray → ExceptT Error m Unit

namespace Sink

variable {m : Type → Type} [Monad m]

/-- The artifacts are written in order, up to the first one that fails. -/
def writeAll (sink : Sink m) (artifacts : List Artifact) : ExceptT Error m Unit :=
  artifacts.forM fun a => sink.write a.name a.contents

/-- The text that shows a file. -/
def listing (name : String) (contents : ByteArray) : String :=
  "============================= " ++ name ++ " ======================================\n"
    ++ String.ofList (trim (Utf8.decodeLossy contents).toList) ++ "\n"

/-- The sink that shows each file with the given way of printing. -/
def printing (print : String → ExceptT Error m Unit) : Sink m where
  prepare := pure ()
  write name contents := print (listing name contents)

end Sink

end ControllerTypes
