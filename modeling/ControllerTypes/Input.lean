import ControllerTypes.Document.Format
import ControllerTypes.Error

/-!
# `ControllerTypes.Input`: where a document comes from

Without an argument a document is read from standard input, and one argument names its file.

`Input` is `InputSource`; `Input.ofArguments` is `from_args`, `Input.format` is `content_type` and
`Input.name` is `display_name`.
-/

set_option autoImplicit false

namespace ControllerTypes

/-- Where a document comes from. -/
inductive Input where
  | standard
  | file (path : String)
  deriving DecidableEq, Repr

namespace Input

/-- The input that the arguments name. -/
def ofArguments : List String → Except Error Input
  | [] => .ok standard
  | [path] => .ok (file path)
  | arguments => .error (.misuse (.inputs arguments.length))

/-- The input as messages call it. -/
def name : Input → String
  | standard => "<stdin>"
  | file path => path

/-- The format of the document, as far as the input tells. -/
def format : Input → Document.Format
  | standard => .unknown
  | file path => .ofPath path

end Input

end ControllerTypes
