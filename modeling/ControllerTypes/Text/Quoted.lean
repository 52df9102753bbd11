import ControllerTypes.Text.Visible

/-!
# `ControllerTypes.Text.Quoted`: text shown between double quotes

Messages quote pieces of a document so that whatever they hold stays on one line and can be seen:
the usual short escapes, and the code in braces for a character that leaves no mark of its own.
Quoted document text leaves an apostrophe alone and quoted file names escape it, so the two uses
are two values of `Quoting`.
-/

set_option autoImplicit false

namespace ControllerTypes.Text

/-- What a way of quoting decides for itself. -/
structure Quoting where
  /-- An apostrophe is written `\'`. -/
  escapesApostrophe : Bool

namespace Quoting

/-- The quoting of text taken from a document. -/
def text : Quoting := ⟨false⟩

/-- The quoting of file names. -/
def fileName : Quoting := ⟨true⟩

/-- The code of a character in lower-case hexadecimal, between braces. -/
def codeEscape (c : Char) : List Char :=
  ['\\', 'u', '\x7b'] ++ Nat.toDigits 16 c.toNat ++ ['\x7d']

/-- One character of the quoted form. -/
def escape (q : Quoting) (c : Char) : List Char :=
  if c == '\x00' then ['\\', '0']
  else if c == '\t' then ['\\', 't']
  else if c == '\r' then ['\\', 'r']
  else if c == '\n' then ['\\', 'n']
  else if c == '\\' then ['\\', '\\']
  else if c == '"' then ['\\', '"']
  else if c == '\'' && q.escapesApostrophe then ['\\', '\'']
  else if isVisible c then [c]
  else codeEscape c

/-- The quoted form of a text. -/
def quote (q : Quoting) (s : String) : String :=
  String.ofList ('"' :: (s.toList.flatMap q.escape ++ ['"']))

end Quoting

end ControllerTypes.Text
