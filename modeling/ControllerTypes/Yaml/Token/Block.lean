import ControllerTypes.Yaml.Token.Plain

/-!
# `ControllerTypes.Yaml.Token.Block`: scalars that are indented blocks of lines

Behind `|` the lines of a block are kept as they are; behind `>` a line break between two lines that
begin with no blank becomes a space. The header may say how deep the block is indented, which its
first line that is not empty does otherwise, and what becomes of the line breaks at its end.
-/

set_option autoImplicit false

namespace ControllerTypes.Yaml.Block

open Text

/-- What becomes of the line breaks at the end of a block. -/
inductive Chomping where
  /-- None is kept. -/
  | strip
  /-- One is kept. -/
  | clip
  /-- All are kept. -/
  | keep
  deriving DecidableEq, Repr

/-- The marks in the header of a block. -/
structure Header where
  chomping : Chomping := .clip
  /-- How much deeper than its surroundings the block is indented, if the header says so. -/
  deeper : Option Nat := none

/-- The chomping that a character stands for. -/
def chomping? : Char → Option Chomping
  | '+' => some .keep
  | '-' => some .strip
  | _ => none

/-- A mark for the chomping, if there is one, and how many characters it takes. -/
def readChomping (cs : List Char) : Option Chomping × List Char :=
  match cs with
  | c :: rest =>
    match chomping? c with
    | some chomping => (some chomping, rest)
    | none => (none, cs)
  | [] => (none, cs)

/-- A digit for the indentation, if there is one; it must not be zero. -/
def readDeeper (cs : List Char) : Option (Option Nat × List Char) :=
  match cs with
  | c :: rest =>
    if c == '0' then none
    else if isAsciiDigit c then some (some (c.toNat - 48), rest)
    else some (none, cs)
  | [] => some (none, cs)

/-- The marks in the header, which may come in either order. -/
def readHeader (cs : List Char) : Option (Header × List Char) :=
  match readChomping cs with
  | (some chomping, rest) =>
    (readDeeper rest).map fun (deeper, rest) => (⟨chomping, deeper⟩, rest)
  | (none, _) =>
    (readDeeper cs).map fun (deeper, rest) =>
      match deeper, readChomping rest with
      | some _, (some chomping, rest) => (⟨chomping, deeper⟩, rest)
      | _, _ => (⟨.clip, deeper⟩, rest)

/-- The end of the header's line without blanks and comment: how many characters these are, and what
follows. Nothing else may stand there. -/
def skipComment (cs : List Char) : Option (Nat × List Char) :=
  let blanks := cs.takeWhile isSeparator
  let rest := cs.dropWhile isSeparator
  if rest.head? == some '#' then
    let comment := rest.takeWhile fun c => !isBreak c
    some (blanks.length + comment.length, rest.dropWhile fun c => !isBreak c)
  else if beginsBreak rest then some (blanks.length, rest)
  else none

/-- A block that is being read. -/
structure Draft where
  /-- Line breaks are folded. -/
  folded : Bool
  chomping : Chomping
  /-- The indentation, once it is known. -/
  indent : Option Nat
  /-- The least indentation there can be. -/
  least : Nat
  /-- The deepest indentation of an empty line so far. -/
  deepest : Nat := 0
  /-- The text so far, last first. -/
  written : List Char := []
  /-- The break behind the last line, if there is one. -/
  ending : List Char := []
  /-- The breaks of the empty lines after it, last first. -/
  emptyLines : List Char := []
  /-- The last line begins with a blank. -/
  startsBlank : Bool := false

namespace Draft

/-- The column is still to the left of the text. -/
def isMargin (b : Draft) (column : Nat) : Bool := b.indent.all (column < ·)

/-- The line is empty. -/
def emptyLine (b : Draft) (column : Nat) (c : Char) : Draft :=
  { b with emptyLines := keptBreak c :: b.emptyLines, deepest := max b.deepest column }

/-- The indentation at the first character behind a margin. -/
def settle (b : Draft) (column : Nat) : Nat :=
  b.indent.getD (max (max b.deepest column) b.least)

/-- A line begins with the character. -/
def beginLine (b : Draft) (indent : Nat) (c : Char) : Draft :=
  let blank := isSeparator c
  let joined :=
    -- A folded break becomes a space, or nothing where empty lines stand in its place.
    if b.folded && b.ending == ['\n'] && !b.startsBlank && !blank then
      if b.emptyLines.isEmpty then ' ' :: b.written else b.written
    else b.ending ++ b.written
  { b with
    indent := some indent, written := c :: (b.emptyLines ++ joined), ending := [],
    emptyLines := [], startsBlank := blank }

/-- A line goes on with the character. -/
def goOn (b : Draft) (c : Char) : Draft := { b with written := c :: b.written }

/-- A line ends with the break. -/
def endLine (b : Draft) (c : Char) : Draft := { b with ending := [keptBreak c] }

/-- The whole text. -/
def text (b : Draft) : String :=
  let tail :=
    match b.chomping with
    | .strip => []
    | .clip => b.ending
    | .keep => b.emptyLines ++ b.ending
  String.ofList (tail ++ b.written).reverse

end Draft

/-- The rest of a block; `inLine` says that a line has begun. -/
def scan (inLine : Bool) (b : Draft) (p : Position) : List Char → Option Scanned
  | [] => some ⟨b.text, true, p, []⟩
  -- The two characters of this break count as one.
  | '\r' :: '\n' :: rest =>
    if inLine then scan false (b.endLine '\n') (p.nextLine 2) rest
    else scan false (b.emptyLine p.column '\n') (p.nextLine 2) rest
  | c :: rest =>
    if inLine then
      if isBreak c then scan false (b.endLine c) (p.nextLine 1) rest
      else scan true (b.goOn c) (p.right 1) rest
    else if c == ' ' && b.isMargin p.column then scan false b (p.right 1) rest
    -- A tab cannot indent.
    else if c == '\t' && b.isMargin p.column then none
    else if isBreak c then scan false (b.emptyLine p.column c) (p.nextLine 1) rest
    else
      let indent := b.settle p.column
      -- A line further left is no part of the block.
      if p.column == indent then scan true (b.beginLine indent c) (p.right 1) rest
      else some ⟨b.text, true, p, c :: rest⟩

end ControllerTypes.Yaml.Block
