/-!
# `ControllerTypes.Emission.Stage`: how far a generator has come

A generator works a description out and then writes the package made from it. `Stage` is what its
latest call left behind: nothing yet, a description ready to be written, a package that was written,
or a failure.

`Stage` is `EmissionState`, and `Stage.name` the text by which it is shown.
-/

set_option autoImplicit false

namespace ControllerTypes

/-- The progress of a generator. -/
inductive Stage where
  | idle
  /-- A description was worked out. -/
  | extracted
  /-- A package was written. -/
  | done
  | failed
  deriving DecidableEq, Repr, Inhabited

/-- The stage as messages call it. -/
def Stage.name : Stage → String
  | idle => "idle"
  | extracted => "extracted"
  | done => "done"
  | failed => "failed"

end ControllerTypes
