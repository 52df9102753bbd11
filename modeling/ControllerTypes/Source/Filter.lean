import ControllerTypes.Error
import ControllerTypes.Json.Printer
import ControllerTypes.Source.Comment
import ControllerTypes.Source.TypeExpr
import ControllerTypes.TypeDef.Decode

/-!
# `ControllerTypes.Source.Filter`: writing a value where a template asks for it

A filter turns one value into Go text: a field into its type, a text into a comment or into a string
literal. It is given the value as JSON and fails on one it has no text for.

The filters are `go_type`, `go_comment` and `go_string`.
-/

set_option autoImplicit false

namespace ControllerTypes.Source

/-- What a value is to be written as. -/
inductive Filter where
  /-- The type of a field. -/
  | type
  /-- A comment. -/
  | comment
  /-- A string literal. -/
  | literal
  deriving DecidableEq, Repr

/-- The text of a value. -/
def Filter.apply : Filter → Json → Except Error String
  | type, v =>
    match FieldDefinition.ofJson? v with
    | some field => .ok field.goType
    | none => .error (.render (.failed "a type is written for a field only"))
  | comment, .string text => .ok ("\n".intercalate (Source.comment text))
  | literal, .string text => .ok (Json.quote text)
  | _, _ => .error (.render (.failed "only a text can be written"))

end ControllerTypes.Source
