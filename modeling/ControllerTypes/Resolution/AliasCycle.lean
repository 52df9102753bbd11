import ControllerTypes.Error
import ControllerTypes.Resolution.Catalog
import ControllerTypes.Resolution.Remaining

/-!
# `ControllerTypes.Resolution.AliasCycle`: definitions that only point at each other

Definitions that are nothing but references to one another never arrive at a schema. `chase` follows
the references from one definition and fails when it comes to a name it has seen before, or to one
that is not there; it stops in peace at an object, an enumeration or anything else that is no
reference. `checkAliasCycles` does so from every definition in turn.

`checkAliasCycles` is `check_alias_cycles`.
-/

set_option autoImplicit false

namespace ControllerTypes.Resolution

/-- Follows the references from the definition `start`, having seen the names `seen`. -/
def chase (catalog : Catalog) (start : String) (seen : List String) (schema : Schema) :
    Except Error Unit :=
  match schema with
  | .reference target =>
    if _hseen : target ∈ seen then .error (.unresolved start)
    else
      match _hnext : catalog.get? target with
      | none => .error (.unresolved target)
      | some next => if next.isNamed then .ok () else chase catalog start (target :: seen) next
  | _ => .ok ()
termination_by remaining catalog.names seen
decreasing_by
  exact remaining_cons_lt (Named.Table.mem_names_of_get? _hnext) _hseen

/-- Every definition arrives at a schema. -/
def checkAliasCycles (catalog : Catalog) : Except Error Unit :=
  catalog.entries.forM fun (name, schema) => chase catalog name [name] schema

end ControllerTypes.Resolution
