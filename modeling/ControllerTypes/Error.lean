import ControllerTypes.Document.Fault
import ControllerTypes.Emission.Stage

/-!
# `ControllerTypes.Error`: why a run fails

Every failure is a cause, and `Error.message` is its wording. Nothing is retried and nothing is
written once a step has failed, so a run has at most one.

Causes that carry a text of their own (`Error.settings`, the two `failed` cases) hold what a reader,
a renderer or a file system had to say; the others name what they are about.

`Error` is `GeneratorError`, and `Error.message` the text that each of its variants is displayed as.
-/

set_option autoImplicit false

namespace ControllerTypes

open Text

/-- A run that was asked for in the wrong way. -/
inductive Misuse where
  /-- More than one input was named. -/
  | inputs (count : Nat)
  /-- Files are written only right after a document was compiled. -/
  | emitFrom (stage : Stage)
  deriving DecidableEq, Repr

/-- A text that is no API description. -/
inductive Malformation where
  /-- The text is neither JSON nor, where that is allowed, YAML. -/
  | notJson
  /-- The document is something other than a map. -/
  | rootNotMap
  /-- A value has the wrong shape. -/
  | fault (f : Document.Fault)
  deriving Repr

/-- Why a schema cannot be a generated type, or the type of a field. -/
inductive TypeFault where
  /-- The schema has no counterpart; the text says what was found. -/
  | unsupported (detail : String)
  /-- A definition that is no type of its own stands for something that contains it. -/
  | recursiveAlias (name : String)
  /-- The same, through an object without a name, which would have to be written without end. -/
  | endlessAlias (name : String)
  /-- A type of its own is an object or an enumeration; this is another variant of schema. -/
  | notNamed (variant : String)
  deriving DecidableEq, Repr

/-- Why an artifact was not rendered. -/
inductive RenderFault where
  /-- Two artifacts have this file name. -/
  | clash (file : String)
  /-- The renderer failed. -/
  | failed (detail : String)
  deriving DecidableEq, Repr

/-- Why an operation on files failed. -/
inductive FileFault where
  /-- The output directory is something else. -/
  | notADirectory (path : String)
  /-- No file can be made in the output directory; the text says why. -/
  | notWriteable (path detail : String)
  /-- The file system, or whatever stands for it, failed. -/
  | failed (detail : String)
  deriving DecidableEq, Repr

/-- Why a run failed. -/
inductive Error where
  | misuse (m : Misuse)
  /-- The input is too short to be a document. -/
  | noDocument (text : String)
  | malformed (m : Malformation)
  /-- A reference to a definition that is not there. -/
  | unresolved (name : String)
  /-- The body of a create or update operation is no object. -/
  | resourceShape (name variant : String)
  /-- A field, or with an empty field name a type, that cannot be written in Go. -/
  | typeShape (type field : String) (fault : TypeFault)
  | settings (detail : String)
  | render (fault : RenderFault)
  | files (fault : FileFault)
  deriving Repr

namespace Misuse

/-- The misuse in words. -/
def message : Misuse → String
  | inputs count =>
    "expected an API description either via STDIN or a single path argument, got "
      ++ toString count ++ " arguments"
  | emitFrom stage => "cannot emit from state " ++ stage.name

end Misuse

namespace Malformation

/-- The malformation in words. -/
def message : Malformation → String
  | notJson => "not a JSON text"
  | rootNotMap => "expected a mapping at the document root"
  | fault f => f.message

end Malformation

namespace TypeFault

/-- The fault in words. -/
def message : TypeFault → String
  | unsupported detail => detail
  | recursiveAlias name => "recursive alias " ++ name
  | endlessAlias name => "recursive alias " ++ name
  | notNamed variant => variant ++ " is neither an object nor an enum"

end TypeFault

namespace RenderFault

/-- The fault in words. -/
def message : RenderFault → String
  | clash file => "two artifacts would be written to " ++ file
  | failed detail => detail

end RenderFault

namespace FileFault

/-- The fault in words. -/
def message : FileFault → String
  | notADirectory path => "expected " ++ path ++ " to be a directory"
  | notWriteable path detail => path ++ " is not a writeable directory: " ++ detail
  | failed detail => detail

end FileFault

namespace Error

/-- The failure in words. -/
def message : Error → String
  | misuse m => "invalid invocation: " ++ m.message
  | noDocument text => "expected an OpenAPI document but got " ++ Quoting.text.quote text
  | malformed m => "malformed document: " ++ m.message
  | unresolved name => "unresolved schema reference: " ++ name
  | resourceShape name variant =>
    "resource schema " ++ name ++ " must be an object, found " ++ variant
  | typeShape type field fault =>
    "unsupported schema shape for " ++ type ++ "." ++ field ++ ": " ++ fault.message
  | settings detail => "configuration error: " ++ detail
  | render fault => "render error: " ++ fault.message
  | files fault => "IO error: " ++ fault.message

end Error

end ControllerTypes
