import ControllerTypes.Json.Basic
import ControllerTypes.Decimal.Spelling
import ControllerTypes.Text.Quoted

/-!
# `ControllerTypes.Document.Fault`: values that have not the shape a document needs

A text can be fine JSON and still be no API description: a list where a map belongs, a number for a
title. `Fault` says what was found and what was expected in its place, and `Fault.message` puts it
into words.
-/

set_option autoImplicit false

namespace ControllerTypes.Document

open Decimal Text

/-- What a place of a document has to hold. -/
inductive Expected where
  | string
  | boolean
  | sequence
  | map
  /-- A map of the members of the named object. -/
  | record (name : String)
  deriving DecidableEq, Repr

/-- A value in the wrong place. -/
inductive Fault where
  /-- The value is of another kind than expected. -/
  | wrongKind (found : Json) (expected : Expected)
  /-- The value fits none of the forms that the named part may take. -/
  | noForm (part : String)
  /-- An array that lists the members of an object has `length` items, which are too many. -/
  | tooManyItems (length : Nat)
  deriving Repr

namespace Expected

/-- The expectation in words. -/
def describe : Expected → String
  | string => "a string"
  | boolean => "a boolean"
  | sequence => "a sequence"
  | map => "a map"
  | record name => "struct " ++ name

end Expected

namespace Fault

/-- A found value in words: a scalar is shown, a collection only named. -/
def describe : Json → String
  | .null => "null"
  | .bool true => "boolean `true`"
  | .bool false => "boolean `false`"
  | .number (.integer i) => "integer `" ++ toString i ++ "`"
  | .number (.double x) => "floating point `" ++ Spelling.json.write x ++ "`"
  | .string s => "string " ++ Quoting.text.quote s
  | .array _ => "sequence"
  | .object _ => "map"

/-- The fault in words. -/
def message : Fault → String
  | wrongKind found expected =>
    "invalid type: " ++ describe found ++ ", expected " ++ expected.describe
  | noForm part => "data did not match any variant of untagged enum " ++ part
  | tooManyItems length =>
    "invalid length " ++ toString length ++ ", expected fewer elements in array"

end Fault

end ControllerTypes.Document
