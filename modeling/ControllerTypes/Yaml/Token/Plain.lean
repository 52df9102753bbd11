import ControllerTypes.Yaml.Token.Folding

/-!
# `ControllerTypes.Yaml.Token.Plain`: scalars without quotation marks

A plain scalar goes on until something that cannot be part of it: a colon in front of a gap, a
comment, a mark between documents, punctuation inside a flow collection, or a line that is not
indented deeper than what the scalar belongs to.
-/

set_option autoImplicit false

namespace ControllerTypes.Yaml

/-- What a scanned scalar leaves behind. -/
structure Scanned where
  /-- The text of the scalar. -/
  text : String
  /-- The scalar took line breaks with it, so the next token stands first in its line. -/
  atLineStart : Bool
  position : Position
  /-- What follows. -/
  rest : List Char

namespace Plain

/-- Where a plain scalar is found. -/
structure Setting where
  /-- The scalar is inside a flow collection. -/
  inFlow : Bool
  /-- The least column of its further lines. -/
  margin : Int

/-- What was read before the current character. -/
inductive Behind where
  /-- Nothing yet. -/
  | nothing
  /-- A character of the scalar. -/
  | word
  /-- A gap. -/
  | gap
  deriving DecidableEq

/-- Punctuation that ends a plain scalar in a flow collection. -/
def isFlowPunctuation (c : Char) : Bool :=
  c == ',' || c == '[' || c == ']' || c == '\x7b' || c == '\x7d'

/-- A colon in a flow collection must not have punctuation right behind it. -/
def isStrayColon (s : Setting) (c : Char) (rest : List Char) : Bool :=
  s.inFlow && c == ':' && rest.head?.any fun d => isFlowPunctuation d || d == '?'

/-- The character ends the scalar. -/
def ends (s : Setting) (c : Char) (rest : List Char) : Bool :=
  (c == ':' && beginsGap rest) || (s.inFlow && isFlowPunctuation c)

/-- A word cannot begin here after a gap, or at the start. -/
def stops (s : Setting) (behind : Behind) (p : Position) (cs : List Char) : Bool :=
  (behind == .gap && !s.inFlow && (p.column : Int) < s.margin)
    || (p.column == 0 && beginsDocumentMark cs) || cs.head? == some '#'

/-- The rest of the scalar. -/
def scan (s : Setting) (behind : Behind) (f : Folding) (p : Position) :
    List Char → Option Scanned
  | [] => some ⟨f.text, f.isAcross, p, []⟩
  | '\r' :: '\n' :: rest => scan s .gap (f.lineBreak '\n') (p.nextLine 2) rest
  | c :: rest =>
    if isBreak c then scan s .gap (f.lineBreak c) (p.nextLine 1) rest
    else if isSeparator c then
      -- A tab must not do the work of indentation.
      if c == '\t' && f.isAcross && (p.column : Int) < s.margin then none
      else scan s .gap (f.blank c) (p.right 1) rest
    -- Within a word neither a mark nor the sign of a comment ends anything.
    else if behind != .word && stops s behind p (c :: rest) then
      some ⟨f.text, f.isAcross, p, c :: rest⟩
    else if isStrayColon s c rest then none
    else if ends s c rest then some ⟨f.text, f.isAcross, p, c :: rest⟩
    else scan s .word (f.char c) (p.right 1) rest

end Plain

end ControllerTypes.Yaml
