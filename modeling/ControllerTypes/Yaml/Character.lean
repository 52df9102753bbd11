import ControllerTypes.Text.CharClass

/-!
# `ControllerTypes.Yaml.Character`: characters of a YAML text and where they stand

A YAML text consists of printable characters only, and which of them break lines or separate words
is fixed by the format and not by Unicode. The tests here are about a single character; those with
`begins` in their name are about the front of a text, where the end of the text counts as a blank.

How far a line is indented decides what its tokens mean, so every step through a text keeps its
`Position`.
-/

set_option autoImplicit false

namespace ControllerTypes.Yaml

open Text

/-- The character may occur in a YAML text. -/
def isPrintable (c : Char) : Bool :=
  let n := c.toNat
  n == 0x09 || n == 0x0A || n == 0x0D || (0x20 ≤ n && n ≤ 0x7E) || n == 0x85
    || (0xA0 ≤ n && n ≤ 0xFFFD) || 0x10000 ≤ n

/-- The character is a space or a tab. -/
def isSeparator (c : Char) : Bool := c == ' ' || c == '\t'

/-- The character ends a line. -/
def isBreak (c : Char) : Bool :=
  c == '\n' || c == '\r' || c == '\u0085' || c == '\u2028' || c == '\u2029'

/-- The character separates words. -/
def isGap (c : Char) : Bool := isSeparator c || isBreak c

/-- The character may stand in the name of an anchor, a tag handle or a directive. -/
def isWord (c : Char) : Bool := isAsciiAlphanumeric c || c == '_' || c == '-'

/-- The text begins with a character that separates words, or is at its end. -/
def beginsGap (cs : List Char) : Bool := cs.head?.all isGap

/-- The text is at the end of a line, or at its own end. -/
def beginsBreak (cs : List Char) : Bool := cs.head?.all isBreak

/-- The text begins with one character three times and a gap. -/
def beginsTriple (mark : Char) : List Char → Bool
  | a :: b :: c :: rest => a == mark && b == mark && c == mark && beginsGap rest
  | _ => false

/-- The text begins with a mark between documents, provided that it is at the start of a line. -/
def beginsDocumentMark (cs : List Char) : Bool := beginsTriple '-' cs || beginsTriple '.' cs

/-- The line break that a text keeps for one it was written with. -/
def keptBreak (c : Char) : Char :=
  if c == '\u2028' || c == '\u2029' then c else '\n'

/-- A place in a text, counted in characters. -/
structure Position where
  /-- How many characters are in front. -/
  index : Nat := 0
  /-- How many lines are in front. -/
  line : Nat := 0
  /-- How many characters of the line are in front. -/
  column : Nat := 0
  deriving Repr

namespace Position

/-- The place so many characters further in the line. -/
def right (p : Position) (n : Nat) : Position :=
  { p with index := p.index + n, column := p.column + n }

/-- The start of the next line, behind a line break of so many characters. -/
def nextLine (p : Position) (width : Nat) : Position := ⟨p.index + width, p.line + 1, 0⟩

end Position

end ControllerTypes.Yaml
