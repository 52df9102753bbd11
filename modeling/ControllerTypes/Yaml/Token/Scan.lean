import ControllerTypes.Yaml.Token.Block
import ControllerTypes.Yaml.Token.Quoted
import ControllerTypes.Yaml.Token.Tag

/-!
# `ControllerTypes.Yaml.Token.Scan`: splitting a YAML text into tokens

Two things make this more than cutting a text into pieces.

* *Indentation opens and closes collections.* The columns of the open block collections are
  `Scanner.indents`, innermost first. A token further left closes those that are deeper, and one
  further right may open a new one. Inside brackets indentation means nothing.
* *A key is known only by the colon behind it.* Whenever something is read that may be a key, its
  place among the tokens is remembered as a `KeySpot`, one for each level of brackets, and the colon
  puts `Token.key` there after the fact. A key has to end on its line and within 1024 characters,
  and where nothing but a key can stand, a missing colon is an error.
-/

set_option autoImplicit false

namespace ControllerTypes.Yaml

open Text

/-- A place where a key may have begun. -/
structure KeySpot where
  /-- How many tokens are in front. -/
  number : Nat
  position : Position
  /-- Nothing but a key can stand here. -/
  required : Bool

/-- A text that is being split. -/
structure Scanner where
  /-- What is still to be read. -/
  rest : List Char
  position : Position := {}
  /-- The tokens so far, last first. -/
  tokens : List Token := []
  /-- How many these are. -/
  count : Nat := 0
  /-- The columns of the open block collections, innermost first. -/
  indents : List Nat := []
  /-- A key may begin here. -/
  keyAllowed : Bool := true
  /-- Where the key of the innermost bracket may have begun. -/
  keySpot : Option KeySpot := none
  /-- The same for the brackets around it, innermost first. -/
  outerSpots : List (Option KeySpot) := []

namespace Scanner

/-- The place is inside brackets. -/
def inFlow (s : Scanner) : Bool := !s.outerSpots.isEmpty

/-- The column of the innermost block collection. -/
def indent (s : Scanner) : Int :=
  match s.indents with
  | [] => -1
  | column :: _ => column

/-- The scanner behind so many characters of the line. -/
def skip (s : Scanner) (n : Nat) : Scanner :=
  { s with rest := s.rest.drop n, position := s.position.right n }

/-- The scanner behind characters that were read up to `rest`, all of one line. -/
def skipTo (s : Scanner) (rest : List Char) : Scanner :=
  { s with rest, position := s.position.right (s.rest.length - rest.length) }

/-- One more token. -/
def emit (s : Scanner) (t : Token) : Scanner :=
  { s with tokens := t :: s.tokens, count := s.count + 1 }

/-- One more token, behind the first `number` ones. -/
def emitAt (s : Scanner) (number : Nat) (t : Token) : Scanner :=
  let later := s.count - number
  { s with tokens := s.tokens.take later ++ t :: s.tokens.drop later, count := s.count + 1 }

/-- Whether a key may begin at what follows. -/
def allowKey (s : Scanner) (allowed : Bool) : Scanner := { s with keyAllowed := allowed }

/-! ### Keys -/

/-- The key is given up, unless it has to be there. -/
def dropKey (s : Scanner) : Option Scanner :=
  if s.keySpot.any KeySpot.required then none else some { s with keySpot := none }

/-- What is read next may be a key. -/
def saveKey (s : Scanner) : Option Scanner :=
  if s.keyAllowed then
    -- At the column of the innermost block collection nothing but its next key can stand.
    let required := !s.inFlow && s.indent == s.position.column
    s.dropKey.map fun s =>
      { s with keySpot := some ⟨s.count, s.position, required⟩ }
  else some s

/-- The most characters a key may have. -/
def longestKey : Nat := 1024

/-- A spot that is too far behind is given up, unless it has to be a key. -/
def dropStale (p : Position) : Option KeySpot → Option (Option KeySpot)
  | none => some none
  | some spot =>
    if spot.position.line < p.line || spot.position.index + longestKey < p.index then
      if spot.required then none else some none
    else some (some spot)

/-- All spots that are too far behind are given up. -/
def dropStaleKeys (s : Scanner) : Option Scanner := do
  let keySpot ← dropStale s.position s.keySpot
  let outerSpots ← s.outerSpots.mapM (dropStale s.position)
  pure { s with keySpot, outerSpots }

/-! ### Indentation -/

/-- Block collections that are deeper than the column are closed. -/
def closeTo (s : Scanner) (column : Int) : Scanner :=
  -- Inside brackets only their ends close anything.
  if s.inFlow then s
  else
    let closed := s.indents.takeWhile fun (c : Nat) => column < c
    { s with
      indents := s.indents.drop closed.length,
      tokens := closed.map (fun _ => Token.blockEnd) ++ s.tokens,
      count := s.count + closed.length }

/-- A block collection is opened, in front of token `number`, if the column is deeper than the
innermost one. -/
def openAt (s : Scanner) (column number : Nat) (t : Token) : Scanner :=
  if !s.inFlow && s.indent < column then
    { s.emitAt number t with indents := column :: s.indents }
  else s

/-! ### Tokens -/

/-- A mark between documents, or a directive, which ends whatever is open. -/
def endDocument (s : Scanner) : Option Scanner :=
  (s.closeTo (-1)).dropKey.map (·.allowKey false)

/-- A mark between documents. -/
def documentMark (s : Scanner) (t : Token) : Option Scanner :=
  s.endDocument.map fun s => (s.skip 3).emit t

/-- A directive, with the rest of its line. -/
def directive (s : Scanner) : Option Scanner := do
  let s ← s.endDocument
  let (d, rest) ← Directive.read (s.rest.drop 1)
  let (_, rest) ← Block.skipComment rest
  pure ((s.skipTo rest).emit (.directive d))

/-- An opening bracket. -/
def openBracket (s : Scanner) (t : Token) : Option Scanner :=
  s.saveKey.map fun s =>
    { ((s.skip 1).emit t).allowKey true with
      keySpot := none, outerSpots := s.keySpot :: s.outerSpots }

/-- A closing bracket. -/
def closeBracket (s : Scanner) (t : Token) : Option Scanner :=
  s.dropKey.map fun s =>
    let s := ((s.skip 1).emit t).allowKey false
    match s.outerSpots with
    | [] => s
    | spot :: others => { s with keySpot := spot, outerSpots := others }

/-- A comma in brackets. -/
def comma (s : Scanner) : Option Scanner :=
  s.dropKey.map fun s => ((s.skip 1).emit .flowEntry).allowKey true

/-- The dash in front of an item. -/
def dash (s : Scanner) : Option Scanner :=
  if !s.inFlow && !s.keyAllowed then none
  else
    (s.openAt s.position.column s.count .blockSequenceStart).dropKey.map fun s =>
      ((s.skip 1).emit .blockEntry).allowKey true

/-- The question mark in front of a key. -/
def questionMark (s : Scanner) : Option Scanner :=
  if !s.inFlow && !s.keyAllowed then none
  else
    (s.openAt s.position.column s.count .blockMappingStart).dropKey.map fun s =>
      ((s.skip 1).emit .key).allowKey !s.inFlow

/-- The colon in front of a value. -/
def colon (s : Scanner) : Option Scanner :=
  match s.keySpot with
  | some spot =>
    -- The key is behind us: its mark, and the start of its mapping, go in front of it.
    let s := (s.emitAt spot.number .key).openAt spot.position.column spot.number .blockMappingStart
    some (({ s with keySpot := none }.skip 1).emit .value |>.allowKey false)
  | none =>
    -- An empty key, or the value to a key behind a question mark.
    if !s.inFlow && !s.keyAllowed then none
    else
      let s := s.openAt s.position.column s.count .blockMappingStart
      some ((s.skip 1).emit .value |>.allowKey !s.inFlow)

/-- An anchor or an alias. -/
def anchor (s : Scanner) (t : String → Token) : Option Scanner := do
  let s ← s.saveKey
  let (name, rest) ← readAnchor (s.rest.drop 1)
  pure (((s.skipTo rest).emit (t name)).allowKey false)

/-- A tag. -/
def tag (s : Scanner) : Option Scanner := do
  let s ← s.saveKey
  let (name, rest) ← Tag.read s.inFlow (s.rest.drop 1)
  pure (((s.skipTo rest).emit (.tag name)).allowKey false)

/-- A scalar that was read. -/
def scalar (s : Scanner) (plain : Bool) (read : Scanned) : Scanner :=
  { s.emit (.scalar plain read.text) with
    -- A key may follow only where the scalar took the end of its line along.
    rest := read.rest, position := read.position, keyAllowed := read.atLineStart }

/-- A block of lines. -/
def block (s : Scanner) (folded : Bool) : Option Scanner := do
  -- A block is never a key.
  let s ← s.dropKey
  let (header, rest) ← Block.readHeader (s.rest.drop 1)
  let (_, rest) ← Block.skipComment rest
  let s := s.skipTo rest
  let s :=
    match s.rest with
    | [] => s
    | '\r' :: '\n' :: rest => { s with rest, position := s.position.nextLine 2 }
    | _ :: rest => { s with rest, position := s.position.nextLine 1 }
  let base := s.indent.toNat
  let opened : Block.Draft :=
    { folded, chomping := header.chomping, indent := header.deeper.map (base + ·),
      least := max (s.indent + 1).toNat 1 }
  let read ← Block.scan false opened s.position s.rest
  pure (s.scalar false read)

/-- A scalar between quotation marks. -/
def quoted (s : Scanner) (mark : Char) : Option Scanner := do
  let s ← s.saveKey
  let read ← Quoted.scan mark .text {} (s.position.right 1) (s.rest.drop 1)
  pure (s.scalar false read)

/-- A scalar without quotation marks. -/
def plain (s : Scanner) : Option Scanner := do
  let s ← s.saveKey
  let read ← Plain.scan ⟨s.inFlow, s.indent + 1⟩ .nothing {} s.position s.rest
  pure (s.scalar true read)

/-- Characters that never begin a plain scalar. -/
def indicators : List Char := ",[]\x7b\x7d#&*!|>'\"%@\x60".toList

/-- A plain scalar may begin with `c`, behind which `rest` follows. -/
def beginsPlain (s : Scanner) (c : Char) (rest : List Char) : Bool :=
  if c == '-' then !(rest.head?.any isSeparator)
  else if c == '?' || c == ':' then !s.inFlow && !beginsGap rest
  else !isGap c && !indicators.contains c

/-- The next token begins with `c`. -/
def token (s : Scanner) (c : Char) (rest : List Char) : Option Scanner :=
  -- Marks of documents and directives count at the start of a line only.
  let first := s.position.column == 0
  -- In brackets a question mark or a colon needs no gap behind it.
  let alone := s.inFlow || beginsGap rest
  if first && c == '%' then s.directive
  else if first && beginsTriple '-' (c :: rest) then s.documentMark .documentStart
  else if first && beginsTriple '.' (c :: rest) then s.documentMark .documentEnd
  else if c == '[' then s.openBracket .flowSequenceStart
  else if c == '\x7b' then s.openBracket .flowMappingStart
  else if c == ']' then s.closeBracket .flowSequenceEnd
  else if c == '\x7d' then s.closeBracket .flowMappingEnd
  else if c == ',' then s.comma
  else if c == '-' && beginsGap rest then s.dash
  else if c == '?' && alone then s.questionMark
  else if c == ':' && alone then s.colon
  else if c == '*' then s.anchor .aliasOf
  else if c == '&' then s.anchor .anchor
  else if c == '!' then s.tag
  else if c == '|' && !s.inFlow then s.block false
  else if c == '>' && !s.inFlow then s.block true
  else if c == '\'' || c == '"' then s.quoted c
  else if s.beginsPlain c rest then s.plain
  else none

/-! ### The whole text -/

/-- The gaps and comments in front of the next token are skipped: whether a key may begin behind
them, and where that is. A line break allows a key outside of brackets, and while a key is allowed
there, no tab may stand in front of it. -/
def skipGaps (inFlow keyAllowed comment : Bool) (p : Position) :
    List Char → Bool × Position × List Char
  | [] => (keyAllowed, p, [])
  | '\r' :: '\n' :: rest => skipGaps inFlow (keyAllowed || !inFlow) false (p.nextLine 2) rest
  | c :: rest =>
    if isBreak c then skipGaps inFlow (keyAllowed || !inFlow) false (p.nextLine 1) rest
    else if comment then skipGaps inFlow keyAllowed true (p.right 1) rest
    -- The mark of the encoding counts as a gap at the very front.
    else if c == ' ' || (c == '\t' && (inFlow || !keyAllowed)) || (c == '\uFEFF' && p.index == 0)
    then skipGaps inFlow keyAllowed false (p.right 1) rest
    else if c == '#' then skipGaps inFlow keyAllowed true (p.right 1) rest
    else (keyAllowed, p, c :: rest)

/-- The scanner in front of the next token, with everything closed that ends there. -/
def settle (s : Scanner) : Option Scanner :=
  let (keyAllowed, position, rest) := skipGaps s.inFlow s.keyAllowed false s.position s.rest
  ({ s with keyAllowed, position, rest } : Scanner).dropStaleKeys.map fun s =>
    s.closeTo s.position.column

/-- The tokens of a text. Each step reads at least one character, which bounds the steps. -/
def run : Nat → Scanner → Option (List Token)
  | 0, _ => none
  | steps + 1, s =>
    match s.settle with
    | none => none
    | some s =>
      match s.rest with
      -- The end of the text closes every block collection that is still open.
      | [] => (s.closeTo (-1)).dropKey.map fun s => s.tokens.reverse
      | c :: rest => (s.token c rest).bind (run steps)

end Scanner

/-- The tokens of a text. -/
def Token.scan? (text : List Char) : Option (List Token) :=
  if text.all isPrintable then Scanner.run (text.length + 1) { rest := text } else none

end ControllerTypes.Yaml
