import ControllerTypes.Text.Blank

/-!
# `ControllerTypes.Source.Comment`: text as Go comments

A title may hold any text, line feeds included, and must not end the comment it is put into. Every
line of it becomes a comment line of its own, without the blanks at its end.

`comment` is the filter `go_comment`.
-/

set_option autoImplicit false

namespace ControllerTypes.Source

open Text

/-- A line as a comment. -/
def commentLine (line : List Char) : List Char :=
  match trimEnd line with
  | [] => ['/', '/']
  | text => '/' :: '/' :: ' ' :: text

/-- The lines of a text as comments. -/
def comment (text : String) : List String :=
  (lines text.toList).map fun line => String.ofList (commentLine line)

end ControllerTypes.Source
