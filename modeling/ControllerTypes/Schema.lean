/-!
# `ControllerTypes.Schema`: resolved schemas

A resolved schema is what a definition means once references, compositions and aliases are worked
out. Objects and enumerations with a name are never nested in each other: a use of one is a
`Schema.reference`, which is what keeps descriptions that contain themselves finite.

The fields of an object keep the order in which they were first seen. `Schema.upsert` is how
compositions grow an object: a field that is already there keeps its place and, once required, stays
required (`names_upsert`).

`Schema.isNamed` is `is_named_type`, `Schema.fields?` is `as_object`, `Schema.variantName` is
`variant_name`, and `Schema.upsert` is the `upsert` of an `ObjectSchema`.
-/

set_option autoImplicit false

namespace ControllerTypes

/-- The scalar types. -/
inductive Primitive where
  | string
  | integer
  | number
  | boolean
  /-- A string that holds a point in time. -/
  | dateTime
  deriving DecidableEq, Repr, Inhabited

/-- A named member of an object whose schema is an `α`. -/
structure Field (α : Type) where
  /-- The key in the serialized form. -/
  name : String
  schema : α
  required : Bool
  deriving Repr, BEq

/-- A resolved schema. -/
inductive Schema where
  | object (fields : List (Field Schema))
  | array (items : Schema)
  /-- A map from strings. -/
  | map (values : Schema)
  | enumeration (literals : List String)
  | primitive (p : Primitive)
  /-- The definition of this name. -/
  | reference (name : String)
  /-- Something no type stands for; the text says what. -/
  | unsupported (detail : String)
  deriving Repr, BEq, Inhabited

/-- The schema of a field is a part of it. -/
theorem Field.sizeOf_schema_lt {α : Type} [SizeOf α] (f : Field α) :
    sizeOf f.schema < sizeOf f := by
  obtain ⟨name, schema, required⟩ := f
  show sizeOf schema < _
  rw [Field.mk.sizeOf_spec]
  omega

namespace Schema

/-- The object without fields, which is the state of a resource that reports none. -/
def emptyObject : Schema := object []

/-- The variant as messages call it. -/
def variantName : Schema → String
  | object _ => "object"
  | array _ => "array"
  | map _ => "map"
  | enumeration _ => "enum"
  | primitive _ => "primitive"
  | reference _ => "reference"
  | unsupported _ => "unsupported"

/-- The schema becomes a type of its own. Every other one is written out where it is used. -/
def isNamed : Schema → Bool
  | object _ | enumeration _ => true
  | _ => false

/-- The fields of an object. -/
def fields? : Schema → Option (List (Field Schema))
  | object fields => some fields
  | _ => none

/-- The fields with `f` put in the place of the field of its name, or at the end. A field that was
required stays so. -/
def upsert {α : Type} : List (Field α) → Field α → List (Field α)
  | [], f => [f]
  | g :: rest, f =>
    if g.name = f.name then { f with required := g.required || f.required } :: rest
    else g :: upsert rest f

/-- Only a field with a new name adds to the names, at the end. -/
theorem names_upsert {α : Type} (fields : List (Field α)) (f : Field α) :
    (upsert fields f).map Field.name =
      if f.name ∈ fields.map Field.name then fields.map Field.name
      else fields.map Field.name ++ [f.name] := by
  induction fields with
  | nil => rfl
  | cons g rest ih =>
    unfold upsert
    by_cases h : g.name = f.name
    · simp [h]
    · have hne : ¬ f.name = g.name := fun e => h e.symm
      simp only [h, if_false, List.map_cons, ih, List.mem_cons, hne, false_or]
      split <;> rfl

end Schema

end ControllerTypes
