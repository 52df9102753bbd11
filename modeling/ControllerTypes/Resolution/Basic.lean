import ControllerTypes.Resolution.AliasCycle
import ControllerTypes.Resolution.Resolver

/-!
# `ControllerTypes.Resolution.Basic`: resolving a description

`resolveAll` works out every definition of a description, in document order and with one memo, and
then makes sure that none of them is a reference that leads nowhere.

It is `resolve_schemas`, which makes a `SchemaResolver` and has it `resolve_all`.
-/

set_option autoImplicit false

namespace ControllerTypes.Resolution

/-- The catalog of all definitions. -/
def resolveAll (defs : Definitions) : Except Error Catalog := do
  let (result, _) := (resolveEach defs defs.names).run {}
  let catalog : Catalog := .ofList (← result)
  checkAliasCycles catalog
  return catalog

end ControllerTypes.Resolution
