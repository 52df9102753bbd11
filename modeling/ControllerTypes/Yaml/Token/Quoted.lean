import ControllerTypes.Text.Hexadecimal
import ControllerTypes.Yaml.Token.Plain

/-!
# `ControllerTypes.Yaml.Token.Quoted`: scalars between quotation marks

Between single quotation marks everything stands for itself, and the mark is written twice. Between
double ones a backslash begins an escape: a letter for a control character, a code in hexadecimal,
or a line break, which is then left out together with the spaces around it.
-/

set_option autoImplicit false

namespace ControllerTypes.Yaml.Quoted

open Text

/-- What an escape of one letter stands for. -/
def escapes : List (Char × Char) :=
  [('0', '\x00'), ('a', '\x07'), ('b', '\x08'), ('t', '\t'), ('\t', '\t'), ('n', '\n'),
   ('v', '\x0b'), ('f', '\x0c'), ('r', '\r'), ('e', '\x1b'), (' ', ' '), ('"', '"'), ('/', '/'),
   ('\\', '\\'), ('N', '\u0085'), ('_', '\u00a0'), ('L', '\u2028'), ('P', '\u2029')]

/-- How many hexadecimal digits follow the letter. -/
def codeLength? : Char → Option Nat
  | 'x' => some 2
  | 'u' => some 4
  | 'U' => some 8
  | _ => none

/-- The character of a code. -/
def charOfCode? (code : Nat) : Option Char :=
  if h : code.isValidChar then some (Char.ofNatAux code h) else none

/-- The place behind an opening quotation mark and what is read there. -/
inductive Mode where
  /-- Characters of the scalar. -/
  | text
  /-- What follows a backslash. -/
  | escape
  /-- The code of an escape, of which so many digits are owed. -/
  | code (owed value : Nat)

/-- The rest of the scalar; `quote` is the mark that ends it. -/
def scan (quote : Char) (mode : Mode) (f : Folding) (p : Position) : List Char → Option Scanned
  | [] => none
  | '\r' :: '\n' :: rest =>
    match mode with
    | .text => scan quote .text (f.lineBreak '\n') (p.nextLine 2) rest
    | .escape => scan quote .text f.flush.hiddenBreak (p.nextLine 2) rest
    | .code _ _ => none
  | '\'' :: '\'' :: rest =>
    match mode with
    | .text =>
      -- Between double quotation marks the two stand for themselves.
      if quote == '\'' then scan quote .text (f.char '\'') (p.right 2) rest
      else scan quote .text ((f.char '\'').char '\'') (p.right 2) rest
    | _ => none
  | c :: rest =>
    match mode with
    | .text =>
      if isBreak c then scan quote .text (f.lineBreak c) (p.nextLine 1) rest
      else if isSeparator c then scan quote .text (f.blank c) (p.right 1) rest
      -- A mark between documents is not allowed inside of one.
      else if p.column == 0 && beginsDocumentMark (c :: rest) then none
      else if c == quote then some ⟨f.flush.text, false, p.right 1, rest⟩
      else if quote == '"' && c == '\\' then scan quote .escape f (p.right 1) rest
      else scan quote .text (f.char c) (p.right 1) rest
    | .escape =>
      if isBreak c then scan quote .text f.flush.hiddenBreak (p.nextLine 1) rest
      else
        match escapes.lookup c, codeLength? c with
        | some meant, _ => scan quote .text (f.char meant) (p.right 1) rest
        | none, some owed => scan quote (.code owed 0) f (p.right 1) rest
        | none, none => none
    | .code owed value =>
      match hexValue? c with
      | none => none
      | some digit =>
        let value := value * 16 + digit
        -- The last digit decides whether the code is that of a character.
        if owed ≤ 1 then
          match charOfCode? value with
          | some meant => scan quote .text (f.char meant) (p.right 1) rest
          | none => none
        else scan quote (.code (owed - 1) value) f (p.right 1) rest

end ControllerTypes.Yaml.Quoted
