import ControllerTypes.Json.Basic
import ControllerTypes.Named
import ControllerTypes.TypeDef.Basic

/-!
# `ControllerTypes.TypeDef.Decode`: reading a field from JSON

A type of a field is a word, or an object whose only member is named by the word and holds what
belongs to it: the element of a list or map, the name of a reference, and `null` for a scalar. A
field is an object, or the array of its members in order.

It is what the filter `go_type` does with the value that a template hands to it.
-/

set_option autoImplicit false

namespace ControllerTypes

namespace FieldType

/-- The scalar types under their words. -/
def scalars : List (String × FieldType) :=
  [("String", string), ("Integer", integer), ("Number", number), ("Boolean", boolean),
   ("DateTime", dateTime)]

/-- The type that a value describes. -/
def ofJson? : Json → Option FieldType
  | .string word => scalars.lookup word
  | .object [("List", element)] => (ofJson? element).map list
  | .object [("Map", element)] => (ofJson? element).map map
  | .object [("Reference", .string name)] => some (reference name)
  | .object [(word, .null)] => scalars.lookup word
  | _ => none

end FieldType

namespace FieldDefinition

/-- The field with the given members. -/
def ofMembers? : List Json → Option FieldDefinition
  | [.string name, .string jsonName, type, .bool required, .bool indirect] =>
    (FieldType.ofJson? type).map fun type => ⟨name, jsonName, type, required, indirect⟩
  | _ => none

/-- The field that a value describes. -/
def ofJson? : Json → Option FieldDefinition
  | .array items => ofMembers? items
  | .object members =>
    (["name", "json_name", "field_type", "required", "indirect"].mapM (Named.get? members)).bind
      ofMembers?
  | _ => none

end FieldDefinition

end ControllerTypes
