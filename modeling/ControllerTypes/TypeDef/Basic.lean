/-!
# `ControllerTypes.TypeDef.Basic`: the types that are generated

Schemas are trees; generated types are flat. Every object and enumeration is a type with a name of
its own, and a field refers to it by that name.

The names are those of the generator. `FieldType.referenced?` is `referenced_name`,
`TypeDef.isEnumeration` is `is_enum`, and `TypeDef.fields` keeps its name.
-/

set_option autoImplicit false

namespace ControllerTypes

/-- The type of a field. -/
inductive FieldType where
  | string
  | integer
  | number
  | boolean
  | dateTime
  | list (element : FieldType)
  /-- A map from strings. -/
  | map (element : FieldType)
  /-- A generated type. -/
  | reference (name : String)
  deriving DecidableEq, Repr

/-- The generated type inside any lists and maps. -/
def FieldType.referenced? : FieldType → Option String
  | reference name => some name
  | list element | map element => element.referenced?
  | _ => none

/-- A field of a struct. -/
structure FieldDefinition where
  /-- The Go name. -/
  name : String
  /-- The key in the serialized form. -/
  jsonName : String
  type : FieldType
  required : Bool
  /-- The field closes a cycle of types, so it has to hold its value by pointer. -/
  indirect : Bool
  deriving DecidableEq, Repr

/-- A literal of an enumeration. -/
structure EnumValue where
  value : String
  /-- What follows the name of the type in the name of the constant. -/
  goName : String
  deriving DecidableEq, Repr

/-- The body of a type. -/
inductive TypeShape where
  | struct (fields : List FieldDefinition)
  | enumeration (values : List EnumValue)
  deriving DecidableEq, Repr

/-- A generated type. -/
structure TypeDef where
  name : String
  /-- The definition it comes from, or the path of fields to an object without a name. -/
  source : String
  shape : TypeShape
  deriving DecidableEq, Repr

namespace TypeDef

/-- The fields of a struct; an enumeration has none. -/
def fields (t : TypeDef) : List FieldDefinition :=
  match t.shape with
  | .struct fields => fields
  | .enumeration _ => []

/-- The type is an enumeration: `isEnumeration` is for whoever asks what a type is without taking it
apart. -/
def isEnumeration (t : TypeDef) : Bool :=
  match t.shape with
  | .struct _ => false
  | .enumeration _ => true

end TypeDef

end ControllerTypes
