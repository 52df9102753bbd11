import ControllerTypes.Text.CharClass

/-!
# `ControllerTypes.Text.Hexadecimal`: hexadecimal digits

Escapes in JSON, in YAML and in tags give the code of a character in hexadecimal, in either case.
-/

set_option autoImplicit false

namespace ControllerTypes.Text

/-- The value of a hexadecimal digit in either case. -/
def hexValue? (c : Char) : Option Nat :=
  if isAsciiDigit c then some (c.toNat - 48)
  else if 'a' ≤ c && c ≤ 'f' then some (c.toNat - 87)
  else if 'A' ≤ c && c ≤ 'F' then some (c.toNat - 55)
  else none

end ControllerTypes.Text
