import ControllerTypes.Yaml.Character

/-!
# `ControllerTypes.Yaml.Token.Folding`: scalars that go over several lines

When a plain or quoted scalar goes on in the next line, the line break stands for one space, and
each further break for itself; spaces around the breaks are not part of the scalar. Since that
depends on what comes next, gaps are held back until the next other character, and a plain scalar
drops the gaps at its end that way.

A `Folding` is the text so far together with the gap that is held back.
-/

set_option autoImplicit false

namespace ControllerTypes.Yaml

/-- The gap that is held back. -/
inductive Gap where
  /-- Spaces and tabs within a line, last first. -/
  | within (blanks : List Char)
  /-- Line breaks: the first, which is missing behind a backslash, and the others, last first. -/
  | across (first : Option Char) (others : List Char)
  deriving Repr

/-- A scalar that is being read. -/
structure Folding where
  /-- The text so far, last first. -/
  written : List Char := []
  /-- The gap after it. -/
  gap : Gap := .within []
  deriving Repr

namespace Folding

/-- The scalar goes over a line break. -/
def isAcross (f : Folding) : Bool :=
  match f.gap with
  | .within _ => false
  | .across _ _ => true

/-- A space or a tab is read; beside a line break it counts for nothing. -/
def blank (f : Folding) (c : Char) : Folding :=
  match f.gap with
  | .within blanks => { f with gap := .within (c :: blanks) }
  | .across _ _ => f

/-- A line break is read. -/
def lineBreak (f : Folding) (c : Char) : Folding :=
  match f.gap with
  | .within _ => { f with gap := .across (some (keptBreak c)) [] }
  | .across first others => { f with gap := .across first (keptBreak c :: others) }

/-- A line break behind a backslash is read, which is none to the scalar. -/
def hiddenBreak (f : Folding) : Folding := { f with gap := .across none [] }

/-- The gap becomes part of the text. -/
def flush (f : Folding) : Folding :=
  match f.gap with
  | .within blanks => ⟨blanks ++ f.written, .within []⟩
  | .across first others =>
    let start :=
      match first with
      | none => []
      | some '\n' => if others.isEmpty then [' '] else []
      -- Any other first break stands for itself.
      | some c => [c]
    ⟨others ++ start ++ f.written, .within []⟩

/-- Any other character is read. -/
def char (f : Folding) (c : Char) : Folding :=
  let f := f.flush
  { f with written := c :: f.written }

/-- The text without the gap at its end. -/
def text (f : Folding) : String := String.ofList f.written.reverse

end Folding

end ControllerTypes.Yaml
