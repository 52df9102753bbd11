import ControllerTypes.Resource.Crud
import ControllerTypes.Schema

/-!
# `ControllerTypes.Resource.Basic`: things a controller manages

A resource is a named schema that operations create or update. Its spec is the desired state, which
users write; its status is the observed state, which a read reports. Each of the two becomes a
generated type, and the resource itself becomes a kind with a file of its own.

`Resource.summary` is `operations_summary`.
-/

set_option autoImplicit false

namespace ControllerTypes

/-- Something with a desired and an observed state. -/
structure Resource where
  /-- The name of the kind; no two resources of a run share it. -/
  kind : String
  /-- The lower-case plural of the kind. -/
  plural : String
  /-- The definition the spec comes from. -/
  schemaName : String
  /-- The desired state. -/
  spec : Schema
  /-- The observed state. -/
  status : Schema
  /-- The definition the status comes from, if it is another one. -/
  statusSchemaName : Option String
  /-- What can be done with the resource, in the order of `Crud.all`. -/
  operations : List Crud
  /-- The generated type of the spec. -/
  specType : String
  /-- The generated type of the status. -/
  statusType : String

namespace Resource

/-- The kind of lists of the resource. -/
def listKind (r : Resource) : String := r.kind ++ "List"

/-- The resource can be created, read, updated or deleted: `supports` is what a package is asked
about its resources, where `operations` is what its files list. -/
def supports (r : Resource) (c : Crud) : Bool := r.operations.contains c

/-- What a resource `supports` is what its `operations` list. -/
@[simp]
theorem supports_iff {r : Resource} {c : Crud} : r.supports c = true ↔ c ∈ r.operations :=
  List.contains_iff_mem

/-- The initials of what can be done with the resource. -/
def summary (r : Resource) : String := String.ofList (r.operations.map Crud.initial)

end Resource

end ControllerTypes
