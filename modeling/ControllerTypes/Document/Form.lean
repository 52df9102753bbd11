import ControllerTypes.Document.Basic

/-!
# `ControllerTypes.Document.Form`: which members of a schema decide what it means

A schema object may have any members side by side, but only some of them count. A reference counts
alone. Otherwise `allOf` comes first, then `oneOf` and `anyOf` together, then the literals of an
enumeration, then the type. A schema without a type is an object if it says anything about
properties. `SchemaObject.form` is this choice, with the parts of the schema that matter for it.

`form_below` says that these parts are smaller than the schema, which is what ends the recursions
that go by forms.

It is the order in which `convert` and `convert_object` of the resolver ask their questions.
-/

set_option autoImplicit false

namespace ControllerTypes.Document

/-- What a schema object is taken for. -/
inductive SchemaForm where
  /-- The reference, as it is written. -/
  | reference (ref : String)
  /-- One schema, to which the object around it adds no properties. -/
  | decorated (only : SchemaObject)
  /-- All of the members, and the object's own properties. -/
  | all (members : List SchemaObject)
  /-- One or any of the members, and the object's own properties. -/
  | variants (members : List SchemaObject)
  | enumeration (literals : List Json)
  /-- An object of which only the schema of all values is known. -/
  | map (values : SchemaObject)
  /-- An object that may hold anything. -/
  | freeMap
  | object (properties : List (String × SchemaObject))
  | array (items : SchemaObject)
  /-- A type without parts, or no type. -/
  | scalar

namespace SchemaObject

/-- The form of an object. -/
def objectForm (s : SchemaObject) : SchemaForm :=
  match s.properties, s.additionalProperties with
  | [], some (.schema values) => .map values
  | [], some (.allowed true) => .freeMap
  | properties, _ => .object properties

/-- The form of a schema that is neither a reference nor put together from others. -/
def plainForm (s : SchemaObject) : SchemaForm :=
  match s.literals, s.typeName? with
  | _ :: _, _ => .enumeration s.literals
  | [], some "object" => s.objectForm
  | [], some "array" =>
    match s.items with
    | some items => .array items
    | none => .scalar
  | [], some _ => .scalar
  | [], none =>
    if s.properties.isEmpty && s.additionalProperties.isNone then .scalar else s.objectForm

/-- What a schema object is taken for. -/
def form (s : SchemaObject) : SchemaForm :=
  match s.ref, s.allOf with
  | some ref, _ => .reference ref
  | none, [] =>
    if !s.oneOf.isEmpty || !s.anyOf.isEmpty then .variants s.variants else s.plainForm
  | none, [only] => if s.properties.isEmpty then .decorated only else .all [only]
  | none, members => .all members

end SchemaObject

/-- The parts of the form are smaller than `n`. -/
def SchemaForm.Below (n : Nat) : SchemaForm → Prop
  | decorated s | map s | array s => sizeOf s < n
  | all members | variants members => sizeOf members < n
  | object properties => sizeOf properties < n
  | reference _ | enumeration _ | freeMap | scalar => True

namespace SchemaObject

/-- What is left of a schema in its `objectForm` is smaller than the schema. -/
theorem objectForm_below (s : SchemaObject) : s.objectForm.Below (sizeOf s) := by
  unfold objectForm
  split
  · next h => exact sizeOf_lt_of_additional h
  · trivial
  · exact s.sizeOf_properties_lt

/-- So is what is left of it in its `plainForm`. -/
theorem plainForm_below (s : SchemaObject) : s.plainForm.Below (sizeOf s) := by
  unfold plainForm
  split
  · trivial
  · exact s.objectForm_below
  · split
    · next h => exact sizeOf_lt_of_items h
    · trivial
  · trivial
  · split
    · trivial
    · exact s.objectForm_below

/-- The parts that `form` leaves of a schema are smaller than the schema. -/
theorem form_below (s : SchemaObject) : s.form.Below (sizeOf s) := by
  have hall := s.sizeOf_allOf_lt
  unfold form
  split
  · trivial
  · split
    · exact s.sizeOf_variants_lt
    · exact s.plainForm_below
  · next only h =>
    rw [h] at hall
    split
    · -- The only member is smaller than the list that it is alone in.
      rw [List.cons.sizeOf_spec] at hall
      exact Nat.lt_of_le_of_lt (by omega) hall
    · exact hall
  · exact hall

end SchemaObject

end ControllerTypes.Document
