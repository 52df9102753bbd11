import ControllerTypes.Decimal.Binary64

/-!
# `ControllerTypes.Json.Basic`: document values

Descriptions arrive as JSON, or as YAML that is turned into JSON, and this is the value both end in.
An object is the list of its members in document order, because the order of definitions and fields
is the order of the generated code. Readers build that list with `Named.insert`, so no two members
of an object that was read have one name.
-/

set_option autoImplicit false

namespace ControllerTypes

open Decimal

/-- A number: an integer of any size, or a double. -/
inductive Number where
  | integer (i : Int)
  | double (x : Binary64)
  deriving DecidableEq, Repr, Inhabited

/-- A JSON value. -/
inductive Json where
  | null
  | bool (b : Bool)
  | number (n : Number)
  | string (s : String)
  | array (items : List Json)
  | object (members : List (String × Json))
  deriving Repr, Inhabited, BEq

end ControllerTypes
