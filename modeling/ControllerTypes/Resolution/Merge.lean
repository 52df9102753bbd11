import ControllerTypes.Schema

/-!
# `ControllerTypes.Resolution.Merge`: one schema from the members of a composition

A composition lists schemas. Those that are objects give their fields to one common object; those
that are not count only when none is an object, and then the first of them is the result. The rules
are the same for both kinds of composition, so a member comes here as a `Part`: its schema, and its
fields if it is an object.

`mergeFields` is the rule. The fields of the parts and the composition's own fields go in one after the
other, so a name has its place from its first occurrence and its schema from its last.

It is what `merge_all_of` and `flatten_variants` have in common; `requireNamed` is how the former
applies the list `required` of a composition.
-/

set_option autoImplicit false

namespace ControllerTypes.Resolution

/-- A member of a composition. -/
structure Part where
  schema : Schema
  /-- The fields, if the member is an object. -/
  fields : Option (List (Field Schema))

/-- The part with every field made optional. -/
def Part.optional (p : Part) : Part :=
  { p with fields := p.fields.map fun fs => fs.map fun f => { f with required := false } }

/-- The fields of all parts, in order. -/
def partFields (parts : List Part) : List (Field Schema) :=
  parts.flatMap fun p => p.fields.getD []

/-- The fields put together, one after the other. -/
def mergeFields (fields : List (Field Schema)) : List (Field Schema) :=
  fields.foldl Schema.upsert []

/-- Some part is an object. -/
def anyObject (parts : List Part) : Bool := parts.any fun p => p.fields.isSome

/-- The schema of the first part that is no object. -/
def firstOther? (parts : List Part) : Option Schema :=
  (parts.find? fun p => p.fields.isNone).map Part.schema

/-- The fields, with those whose names are in the list required. -/
def requireNamed (names : List String) (fields : List (Field Schema)) : List (Field Schema) :=
  fields.map fun f => { f with required := f.required || names.contains f.name }

end ControllerTypes.Resolution
