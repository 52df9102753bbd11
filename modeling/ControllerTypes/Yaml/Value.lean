import ControllerTypes.Decimal.Spelling
import ControllerTypes.Json.Basic
import ControllerTypes.Named

/-!
# `ControllerTypes.Yaml.Value`: values of YAML, and the JSON they are turned into

YAML has more values than JSON: numbers that are infinite or no number at all, values with a tag of
their own, and keys that are not strings. `Value.toJson?` leaves tags out and writes keys as text;
it fails where JSON has nothing to offer.
-/

set_option autoImplicit false

namespace ControllerTypes.Yaml

open Decimal

/-- A number in double precision. -/
inductive Real where
  | finite (x : Binary64)
  | infinity (negative : Bool)
  | notANumber
  deriving DecidableEq, Repr

/-- The numbers are equal. Zeros are, whatever their signs, and so is what is no number. -/
def Real.same : Real → Real → Bool
  | finite x, finite y => x == y || (x.mantissa == 0 && y.mantissa == 0)
  | x, y => x == y

/-- A value. -/
inductive Value where
  | null
  | bool (b : Bool)
  | integer (i : Int)
  | real (x : Real)
  | string (s : String)
  | sequence (items : List Value)
  | mapping (entries : List (Value × Value))
  /-- A value with a tag that only its users know. -/
  | tagged (tag : String) (v : Value)
  deriving Repr, Inhabited

namespace Value

mutual

/-- The values are equal. -/
def same : Value → Value → Bool
  | null, null => true
  | bool a, bool b => a == b
  | integer i, integer j => i == j
  | real x, real y => x.same y
  | string s, string t => s == t
  | sequence xs, sequence ys => sameItems xs ys
  | mapping xs, mapping ys => sameEntries xs ys
  | tagged a x, tagged b y => a == b && same x y
  | _, _ => false

/-- The items are equal, one by one. -/
def sameItems : List Value → List Value → Bool
  | [], [] => true
  | x :: xs, y :: ys => same x y && sameItems xs ys
  | _, _ => false

/-- The entries are equal, one by one. -/
def sameEntries : List (Value × Value) → List (Value × Value) → Bool
  | [], [] => true
  | (k, x) :: xs, (l, y) :: ys => same k l && same x y && sameEntries xs ys
  | _, _ => false

end

/-- A number as the text of a key. -/
def realText : Real → String
  | .finite x => Spelling.yamlKey.write x
  | .infinity negative => if negative then "-.inf" else ".inf"
  | .notANumber => ".nan"

/-- A value as the text of a key. A collection is no key. -/
def keyText? : Value → Option String
  | null => some "null"
  | bool true => some "true"
  | bool false => some "false"
  | integer i => some (toString i)
  | real x => some (realText x)
  | string s => some s
  | tagged _ v => keyText? v
  | sequence _ | mapping _ => none

mutual

/-- The value in JSON. -/
def toJson? : Value → Option Json
  | null => some .null
  | bool b => some (.bool b)
  | integer i => some (.number (.integer i))
  | real (.finite x) => some (.number (.double x))
  | real _ => none
  | string s => some (.string s)
  | sequence items => (toItems? items).map .array
  | mapping entries => (toMembers? [] entries).map .object
  | tagged _ v => toJson? v

/-- The items of a sequence in JSON. -/
def toItems? : List Value → Option (List Json)
  | [] => some []
  | v :: rest => do
    let item ← toJson? v
    pure (item :: (← toItems? rest))

/-- The entries of a mapping as members, behind those in `members`. -/
def toMembers? (members : List (String × Json)) :
    List (Value × Value) → Option (List (String × Json))
  | [] => some members
  | (key, v) :: rest => do
    let name ← keyText? key
    let member ← toJson? v
    toMembers? (Named.insert members name member) rest

end

end Value

end ControllerTypes.Yaml
