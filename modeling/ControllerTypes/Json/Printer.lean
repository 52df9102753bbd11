import ControllerTypes.Json.Basic
import ControllerTypes.Decimal.Spelling

/-!
# `ControllerTypes.Json.Printer`: the compact text of a value

An enumeration literal or a service alias that is not a string is shown as JSON text without blanks.
Inside strings the quote, the backslash and the characters below U+0020 are escaped and everything
else stands for itself; the same escapes make a Go string literal, so generated constants use
`quote` as well.

`quote` is the filter `go_string` on a text.
-/

set_option autoImplicit false

namespace ControllerTypes

open Decimal

namespace Json

/-- What a character of a string is written as. -/
def escape (c : Char) : List Char :=
  if c = '"' then ['\\', '"']
  else if c = '\\' then ['\\', '\\']
  else if c = '\x08' then ['\\', 'b']
  else if c = '\x0c' then ['\\', 'f']
  else if c = '\n' then ['\\', 'n']
  else if c = '\r' then ['\\', 'r']
  else if c = '\t' then ['\\', 't']
  else if c.toNat < 0x20 then
    ['\\', 'u', '0', '0', Nat.digitChar (c.toNat / 16), Nat.digitChar (c.toNat % 16)]
  else [c]

/-- A string between quotes. -/
def quote (s : String) : String :=
  String.ofList ('"' :: (s.toList.flatMap escape ++ ['"']))

/-- The text of a number. -/
def numberText : Number → String
  | .integer i => toString i
  | .double x => Spelling.json.write x

mutual

/-- The text of a value. -/
def render : Json → String
  | .null => "null"
  | .bool true => "true"
  | .bool false => "false"
  | .number n => numberText n
  | .string s => quote s
  | .array items => "[" ++ ",".intercalate (renderItems items) ++ "]"
  | .object members => "\x7b" ++ ",".intercalate (renderMembers members) ++ "\x7d"

/-- The texts of the items of an array. -/
def renderItems : List Json → List String
  | [] => []
  | v :: rest => render v :: renderItems rest

/-- The texts of the members of an object. -/
def renderMembers : List (String × Json) → List String
  | [] => []
  | (name, v) :: rest => (quote name ++ ":" ++ render v) :: renderMembers rest

end

end Json

end ControllerTypes
