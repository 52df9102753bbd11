import ControllerTypes.Name.Barred
import ControllerTypes.Name.Identifier
import ControllerTypes.Resolution.Catalog
import ControllerTypes.Resource.Basic

/-!
# `ControllerTypes.TypeDef.Naming`: which definition is generated under which name

All names that definitions give to types are settled before the first type is written, so no object
without a name can take one of them later. A resource lends its spec name to its definition and its
status name to the definition its status comes from, unless that one has a name already. Every other
object or enumeration gets its own name as an identifier, fresh among all of these.

`Naming.of` is what `TypeDefExtractor` settles when it is made, and a name that a resource has lent
is one that the extractor `claims`.
-/

set_option autoImplicit false

namespace ControllerTypes

open Name

/-- The names of definitions, and all names that are taken. -/
structure Naming where
  /-- The type that each named definition becomes. -/
  types : Named.Table String
  /-- Every name that no further type may have. -/
  taken : List String

namespace Naming

/-- The names of the types that definitions become. -/
def names (n : Naming) : List String := n.types.entries.map Prod.snd

/-- What a definition becomes is among the names. -/
theorem mem_names {n : Naming} {definition name : String}
    (h : n.types.get? definition = some name) : name ∈ n.names := by
  obtain ⟨x, hx, rfl⟩ := Option.map_eq_some_iff.1 h
  exact List.mem_map_of_mem (List.mem_of_find?_eq_some hx)

/-- The names that resources bring with them. -/
def resourceNames (resources : List Resource) : List String :=
  resources.flatMap fun r => [r.kind, r.listKind, r.specType, r.statusType]

/-- The definitions that become a spec. -/
def specs (resources : List Resource) : Named.Table String :=
  resources.foldl (fun types r => types.insert r.schemaName r.specType) .empty

/-- The definitions that become a spec or a status. -/
def statuses (resources : List Resource) : Named.Table String :=
  resources.foldl
    (fun types r =>
      match r.statusSchemaName with
      -- A definition that is a spec already keeps that name.
      | some definition => types.insertNew definition r.statusType
      | none => types)
    (specs resources)

/-- The naming with a name for one more definition, if it needs one. -/
def add (n : Naming) (definition : String) (schema : Schema) : Naming :=
  if schema.isNamed ∧ definition ∉ n.types.names then
    let (name, taken) := takeName (goIdentifier definition "Type") n.taken .types
    { types := n.types.insertNew definition name, taken }
  else n

/-- The naming of a catalog with its resources. -/
def of (catalog : Catalog) (resources : List Resource) : Naming :=
  catalog.entries.foldl (fun n (definition, schema) => n.add definition schema)
    ⟨statuses resources, (resourceNames resources).reverse⟩

end Naming

end ControllerTypes
