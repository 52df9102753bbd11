import ControllerTypes.TypeDef.Basic

/-!
# `ControllerTypes.Source.TypeExpr`: the type of a field as Go writes it

A field holds its value directly only if it has to be there and closes no cycle. Slices and maps can
be nil, so they need no pointer of their own, and what they hold they hold by pointer unless it is a
scalar. Timestamps are always held by pointer.

`FieldDefinition.typeExpr` takes these decisions and `TypeExpr.text` writes the result.

`FieldDefinition.goType` is `go_field_type`; `valueExpr` and `elementExpr` are the `go_base_type`
and the `go_element_type` it is made from.
-/

set_option autoImplicit false

namespace ControllerTypes

/-- A Go type, as far as generated fields need any. -/
inductive TypeExpr where
  /-- A type by its name. -/
  | named (name : String)
  | pointer (target : TypeExpr)
  | slice (element : TypeExpr)
  /-- A map from strings. -/
  | map (element : TypeExpr)
  deriving DecidableEq, Repr

/-- The type in Go. -/
def TypeExpr.text : TypeExpr → String
  | named name => name
  | pointer target => "*" ++ target.text
  | slice element => "[]" ++ element.text
  | map element => "map[string]" ++ element.text

namespace FieldType

/-- The type of what a slice or a map holds. -/
def elementExpr : FieldType → TypeExpr
  | string => .named "string"
  | integer => .named "int64"
  | number => .named "float64"
  | boolean => .named "bool"
  | dateTime => .pointer (.named "metav1.Time")
  | list element => .slice element.elementExpr
  | map element => .map element.elementExpr
  | reference name => .pointer (.named name)

/-- The type of a value that is held directly. -/
def valueExpr : FieldType → TypeExpr
  | dateTime => .named "metav1.Time"
  | reference name => .named name
  | type => type.elementExpr

end FieldType

namespace FieldDefinition

/-- The type of the field. -/
def typeExpr (f : FieldDefinition) : TypeExpr :=
  match f.type with
  | .list _ | .map _ | .dateTime => f.type.elementExpr
  | type => if !f.required || f.indirect then .pointer type.valueExpr else type.valueExpr

/-- The type of a field is that of its value, or a pointer to it; lists, maps and timestamps are
written the same everywhere. -/
theorem typeExpr_cases (f : FieldDefinition) :
    f.typeExpr = f.type.elementExpr ∨ f.typeExpr = f.type.valueExpr ∨
      f.typeExpr = .pointer f.type.valueExpr := by
  unfold typeExpr
  split
  · exact .inl rfl
  · exact .inl rfl
  · exact .inl rfl
  · split
    · exact .inr (.inr rfl)
    · exact .inr (.inl rfl)

/-- The type of the field in Go. -/
def goType (f : FieldDefinition) : String := f.typeExpr.text

end FieldDefinition

end ControllerTypes
