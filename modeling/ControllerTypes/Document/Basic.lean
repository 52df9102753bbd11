import ControllerTypes.Json.Basic

/-!
# `ControllerTypes.Document.Basic`: API description documents as they are written

The parts of a Swagger 2.0 or OpenAPI 3 document that the compiler looks at, under the names the two
specifications use. Every member may be missing, in which case it is absent, false or empty, and a
document may mix the two versions. Collections keep the order of the document.

`SchemaObject` contains itself in several places. `sizeOf_lt_of_items` and its neighbours say that
each of these parts is smaller than the whole, which is what ends the recursions over schemas.

The records carry the names they have in the parser: `RawDocument` is `Document`, the others are
called alike. `TypeSpec.primary?` is `primary` and `SchemaObject.typeName?` is `type_name`.
-/

set_option autoImplicit false

namespace ControllerTypes.Document

/-- The `type` of a schema: one name, or several. -/
inductive TypeSpec where
  | single (name : String)
  | multiple (names : List String)
  deriving DecidableEq, Repr

/-- The first named type that is not `null`. A single name counts whatever it is. -/
def TypeSpec.primary? : TypeSpec → Option String
  | .single name => some name
  | .multiple names => names.find? (· != "null")

/-- What a schema says about properties it does not list: a flag, or the schema of their values. -/
inductive AdditionalProperties (α : Type) where
  | allowed (flag : Bool)
  | schema (values : α)
  deriving Repr

/-- A schema, or a reference to a named one. -/
structure SchemaObject where
  /-- The `$ref` of a reference. -/
  ref : Option String := none
  type : Option TypeSpec := none
  format : Option String := none
  description : Option String := none
  /-- The properties of an object, in document order. -/
  properties : List (String × SchemaObject) := []
  /-- The names of the properties that must be present. -/
  required : List String := []
  /-- The schema of the items of an array. -/
  items : Option SchemaObject := none
  additionalProperties : Option (AdditionalProperties SchemaObject) := none
  /-- The literals of an enumeration. -/
  literals : List Json := []
  allOf : List SchemaObject := []
  oneOf : List SchemaObject := []
  anyOf : List SchemaObject := []

namespace SchemaObject

/-- The name of the type, if there is one that is not `null`. -/
def typeName? (s : SchemaObject) : Option String := s.type.bind TypeSpec.primary?

/-- The schema is something else than the type `null`. -/
def isUsable (s : SchemaObject) : Bool := s.typeName? != some "null"

/-- The variants of a schema: what it is one or any of, without `null`. -/
def variants (s : SchemaObject) : List SchemaObject := (s.oneOf ++ s.anyOf).filter isUsable

/-! ### The parts of a schema are smaller -/

/-- The `items` of an array are smaller than the array. -/
theorem sizeOf_lt_of_items {s i : SchemaObject} (h : s.items = some i) : sizeOf i < sizeOf s := by
  cases s
  simp only at h
  subst h
  simp only [mk.sizeOf_spec, Option.some.sizeOf_spec]
  omega

/-- The schema of all values is smaller than the map. -/
theorem sizeOf_lt_of_additional {s v : SchemaObject}
    (h : s.additionalProperties = some (.schema v)) : sizeOf v < sizeOf s := by
  cases s
  simp only at h
  subst h
  simp only [mk.sizeOf_spec, Option.some.sizeOf_spec, AdditionalProperties.schema.sizeOf_spec]
  omega

/-- The `properties` are smaller than the schema they are listed in. -/
theorem sizeOf_properties_lt (s : SchemaObject) : sizeOf s.properties < sizeOf s := by
  cases s
  simp only [mk.sizeOf_spec]
  omega

/-- The members of an `allOf` are smaller than the composition. -/
theorem sizeOf_allOf_lt (s : SchemaObject) : sizeOf s.allOf < sizeOf s := by
  cases s
  simp only [mk.sizeOf_spec]
  omega

/-- What is left of a list is not larger than the list. -/
theorem sizeOf_filter_le {α : Type} [SizeOf α] (p : α → Bool) (xs : List α) :
    sizeOf (xs.filter p) ≤ sizeOf xs := by
  induction xs with
  | nil => exact Nat.le_refl _
  | cons x rest ih =>
    rw [List.filter_cons]
    split <;> simp only [List.cons.sizeOf_spec] <;> omega

/-- Two lists in one are as large as both, but for the end of the first. -/
theorem sizeOf_append {α : Type} [SizeOf α] (xs ys : List α) :
    sizeOf (xs ++ ys) + 1 = sizeOf xs + sizeOf ys := by
  induction xs with
  | nil => simp only [List.nil_append, List.nil.sizeOf_spec]; omega
  | cons x rest ih => simp only [List.cons_append, List.cons.sizeOf_spec]; omega

/-- The `variants` of a schema are smaller than it, although they come from two lists. -/
theorem sizeOf_variants_lt (s : SchemaObject) : sizeOf s.variants < sizeOf s := by
  have hle := sizeOf_filter_le isUsable (s.oneOf ++ s.anyOf)
  have happ := sizeOf_append s.oneOf s.anyOf
  -- The two lists are parts of the schema side by side.
  have hs : sizeOf s.oneOf + sizeOf s.anyOf < sizeOf s := by
    cases s
    simp only [mk.sizeOf_spec]
    omega
  rw [variants]
  omega

/-- A schema has some size, so what it stands in front of is smaller than the two together. -/
theorem sizeOf_pos (s : SchemaObject) : 0 < sizeOf s := by
  cases s
  simp only [mk.sizeOf_spec]
  omega

end SchemaObject

/-- The body of one media type. -/
structure MediaType where
  schema : Option SchemaObject := none

/-- A request body, inline or by reference. -/
structure RequestBody where
  ref : Option String := none
  content : List (String × MediaType) := []

/-- A response, inline or by reference. -/
structure Response where
  ref : Option String := none
  description : Option String := none
  content : List (String × MediaType) := []
  /-- The schema of the body, where it is given without a media type. -/
  schema : Option SchemaObject := none

/-- A parameter of an operation. -/
structure Parameter where
  name : String := ""
  /-- Where the parameter travels: `query`, `header`, `path`, `cookie` or `body`. -/
  location : String := ""
  required : Bool := false
  schema : Option SchemaObject := none

/-- An operation of a path. -/
structure Operation where
  operationId : Option String := none
  summary : Option String := none
  parameters : List Parameter := []
  requestBody : Option RequestBody := none
  /-- The responses under their status codes. -/
  responses : List (String × Response) := []

/-- The operations of a path. -/
structure PathItem where
  get : Option Operation := none
  put : Option Operation := none
  post : Option Operation := none
  delete : Option Operation := none
  patch : Option Operation := none
  head : Option Operation := none
  /-- The parameters that all of them share. -/
  parameters : List Parameter := []

/-- What a document defines once for use in several places. -/
structure Components where
  schemas : List (String × SchemaObject) := []
  requestBodies : List (String × RequestBody) := []
  responses : List (String × Response) := []

/-- What a document says about itself. -/
structure Info where
  title : String := ""
  version : String := ""
  description : Option String := none
  /-- All other members, extensions among them. -/
  extra : List (String × Json) := []

end ControllerTypes.Document

namespace ControllerTypes

open Document in
/-- A whole document. -/
structure Document where
  /-- The version of a Swagger document. -/
  swagger : Option String := none
  /-- The version of an OpenAPI document. -/
  openapi : Option String := none
  info : Info := {}
  paths : List (String × PathItem) := []
  /-- The schemas of a Swagger document. -/
  definitions : List (String × SchemaObject) := []
  components : Option Components := none

end ControllerTypes
