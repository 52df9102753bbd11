import ControllerTypes.Files.Path
import ControllerTypes.Text.CharClass

/-!
# `ControllerTypes.Document.Format`: which format a document is in

The name of a file may say it, by its ending.

`Format` is `ContentType`, and `Format.ofPath` its `from_path`.
-/

set_option autoImplicit false

namespace ControllerTypes

open Text

namespace Document

/-- What is known about the format of a document. -/
inductive Format where
  | unknown
  | json
  | yaml
  deriving DecidableEq, Repr

/-- The format that a path tells. -/
def Format.ofPath (path : String) : Format :=
  let ending := (Files.fileName? path.toList).bind Files.ending?
  match ending.map fun e => asciiLower (String.ofList e) with
  | some "json" => json
  | some "yaml" | some "yml" => yaml
  | _ => unknown

end Document

end ControllerTypes
