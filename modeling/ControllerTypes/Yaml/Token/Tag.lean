import ControllerTypes.Text.Hexadecimal
import ControllerTypes.Yaml.Character
import ControllerTypes.Yaml.Token

/-!
# `ControllerTypes.Yaml.Token.Tag`: anchors, tags and directives

These are the tokens that are names. Each of them lies within one line, so the readers here take the
rest of the text and answer with what they read and what follows; where that is, its distance tells.
-/

set_option autoImplicit false

namespace ControllerTypes.Yaml

open Text

/-- The word at the front of a text. -/
def word (cs : List Char) : String := String.ofList (cs.takeWhile isWord)

/-- The text behind that word. -/
def afterWord (cs : List Char) : List Char := cs.dropWhile isWord

/-- The name of an anchor, behind its mark. -/
def readAnchor (cs : List Char) : Option (String × List Char) :=
  let rest := afterWord cs
  let ended := beginsGap rest || rest.head?.any "?:,]\x7d%@\x60".toList.contains
  if (word cs).isEmpty || !ended then none else some (word cs, rest)

namespace Tag

/-- The character may stand in a tag. -/
def isTagChar (c : Char) : Bool := isWord c || ";/?:@&=+$.%!~*'()".toList.contains c

/-- The character may stand in a tag written in full. -/
def isFullTagChar (c : Char) : Bool := isTagChar c || c == ',' || c == '[' || c == ']'

/-- The octet of an escape. -/
def readOctet : List Char → Option (Nat × List Char)
  | '%' :: a :: b :: rest => do
    let a ← hexValue? a
    let b ← hexValue? b
    pure (a * 16 + b, rest)
  | _ => none

/-- The bits of the first octet of a character, and how many octets are owed after it. -/
def leadOctet? (octet : Nat) : Option (Nat × Nat) :=
  if octet < 0x80 then some (octet, 0)
  else if octet < 0xC0 then none
  else if octet < 0xE0 then some (octet - 0xC0, 1)
  else if octet < 0xF0 then some (octet - 0xE0, 2)
  else if octet < 0xF8 then some (octet - 0xF0, 3)
  else none

/-- The other octets of a character. -/
def readOctets (bits : Nat) : Nat → List Char → Option (Nat × List Char)
  | 0, cs => some (bits, cs)
  | owed + 1, cs =>
    match readOctet cs with
    | none => none
    | some (octet, rest) =>
      if 0x80 ≤ octet ∧ octet < 0xC0 then readOctets (bits * 64 + (octet - 0x80)) owed rest
      else none

/-- A character written as escaped octets. -/
def readEscaped (cs : List Char) : Option (Char × List Char) := do
  let (octet, rest) ← readOctet cs
  let (bits, owed) ← leadOctet? octet
  let (code, rest) ← readOctets bits owed rest
  pure (Char.ofNat code, rest)

/-- The characters of a tag with its escapes undone, as long as `allowed` goes; `steps` bounds how
many these are. -/
def readChars (allowed : Char → Bool) : Nat → List Char → Option (List Char × List Char)
  | 0, cs => some ([], cs)
  | steps + 1, cs =>
    match cs with
    | [] => some ([], [])
    | c :: rest =>
      if !allowed c then some ([], cs)
      else if c == '%' then do
        let (meant, rest) ← readEscaped cs
        let (others, rest) ← readChars allowed steps rest
        pure (meant :: others, rest)
      else do
        let (others, rest) ← readChars allowed steps rest
        pure (c :: others, rest)

/-- The part of a tag that is no abbreviation. It must not be empty. -/
def readSuffix (allowed : Char → Bool) (cs : List Char) : Option (String × List Char) := do
  let (text, rest) ← readChars allowed cs.length cs
  if text.isEmpty then none else pure (String.ofList text, rest)

/-- A tag written in full, behind its opening bracket. -/
def readFull (cs : List Char) : Option (TagName × List Char) := do
  let (text, rest) ← readSuffix isFullTagChar cs
  match rest with
  | '>' :: rest => pure (⟨"", text⟩, rest)
  | _ => none

/-- A tag that begins with an abbreviation, behind the first `!`. -/
def readShort (cs : List Char) : Option (TagName × List Char) :=
  match afterWord cs with
  | '!' :: rest => do
    let (suffix, rest) ← readSuffix isTagChar rest
    pure (⟨"!" ++ word cs ++ "!", suffix⟩, rest)
  | _ => do
    let (suffix, rest) ← readChars isTagChar cs.length cs
    -- A lone mark is a tag of its own.
    pure (if suffix.isEmpty then ⟨"", "!"⟩ else ⟨"!", String.ofList suffix⟩, rest)

/-- A tag, behind its first `!`. -/
def read (inFlow : Bool) (cs : List Char) : Option (TagName × List Char) := do
  let (name, rest) ←
    match cs with
    | '<' :: full => readFull full
    | _ => readShort cs
  if beginsGap rest || (inFlow && rest.head? == some ',') then pure (name, rest) else none

end Tag

namespace Directive

/-- A number of at most nine digits. -/
def readNumber (cs : List Char) : Option (Nat × List Char) :=
  let digits := cs.takeWhile isAsciiDigit
  if digits.isEmpty || 9 < digits.length then none
  else some (Nat.ofDigitChars 10 digits 0, cs.dropWhile isAsciiDigit)

/-- The two numbers of a version. -/
def readVersion (cs : List Char) : Option (Directive × List Char) := do
  let (major, rest) ← readNumber cs
  match rest with
  | '.' :: rest => do
    let (minor, rest) ← readNumber rest
    pure (.version major minor, rest)
  | _ => none

/-- The abbreviation that a directive declares: a word between marks, or one mark alone. -/
def readHandle : List Char → Option (String × List Char)
  | '!' :: rest =>
    match afterWord rest with
    | '!' :: behind => some ("!" ++ word rest ++ "!", behind)
    | behind => if (word rest).isEmpty then some ("!", behind) else none
  | _ => none

/-- An abbreviation for tags and what it stands for. -/
def readAbbreviation (cs : List Char) : Option (Directive × List Char) := do
  let (handle, rest) ← readHandle cs
  if rest.head?.any isSeparator then
    let (expansion, rest) ← Tag.readSuffix Tag.isFullTagChar (rest.dropWhile isSeparator)
    if beginsGap rest then pure (.abbreviation handle expansion, rest) else none
  else none

/-- A directive, behind its mark. -/
def read (cs : List Char) : Option (Directive × List Char) :=
  let rest := afterWord cs
  if (word cs).isEmpty || !beginsGap rest then none
  else
    match word cs with
    | "YAML" => readVersion (rest.dropWhile isSeparator)
    | "TAG" => readAbbreviation (rest.dropWhile isSeparator)
    | _ => none

end Directive

end ControllerTypes.Yaml
