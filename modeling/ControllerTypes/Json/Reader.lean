import ControllerTypes.Decimal.Spelling
import ControllerTypes.Json.Basic
import ControllerTypes.Named
import ControllerTypes.Text.CharClass
import ControllerTypes.Text.Hexadecimal

/-!
# `ControllerTypes.Json.Reader`: reading JSON text

`Json.parse?` reads a whole text as one value. Beyond the grammar it fixes what the grammar leaves
open:

* values are nested at most 127 deep, which is also what makes the reader end;
* an integer keeps its exact value up to 64 bits, signed below zero and unsigned above; a larger one
  and `-0` are doubles, and a double too large for the format is an error;
* an escape for half of a surrogate pair is an error unless the other half follows;
* of two members with one name the second gives the value and the first the place.

Each step works on the characters that are left and hands back what it leaves. Loops go on only when
something was consumed, which every step does.
-/

set_option autoImplicit false

namespace ControllerTypes.Json

open Decimal Text

/-- The character may stand between tokens. -/
def isSpace (c : Char) : Bool := c == ' ' || c == '\n' || c == '\t' || c == '\r'

/-- The value of a digit. -/
def digitValue (c : Char) : Nat := c.toNat - 48

/-! ### Numbers -/

/-- The largest integer above zero that is kept exactly. -/
def largestInteger : Nat := Nat.pow 2 64 - 1

/-- Digits taken into a significand that stays within 64 bits: the significand, how many digits were
taken, and what is left. The rest begins with a digit when the next one would not fit. -/
def takeDigits (significand taken : Nat) : List Char → Nat × Nat × List Char
  | [] => (significand, taken, [])
  | c :: rest =>
    if isAsciiDigit c && significand * 10 + digitValue c ≤ largestInteger then
      takeDigits (significand * 10 + digitValue c) (taken + 1) rest
    else (significand, taken, c :: rest)

/-- A double with its sign, if it is small enough. -/
def signed (negative : Bool) (x : Option Binary64) : Option Number :=
  x.map fun x => .double (if negative then x.neg else x)

/-- The exponent part after its mark, then the number. -/
def readExponent (negative : Bool) (significand : Nat) (exponent : Int) (cs : List Char) :
    Option (Number × List Char) :=
  let (minus, cs) :=
    match cs with
    | '+' :: rest => (false, rest)
    | '-' :: rest => (true, rest)
    | _ => (false, cs)
  let digits := cs.takeWhile isAsciiDigit
  let rest := cs.dropWhile isAsciiDigit
  if digits.isEmpty then none
  else
    let e := Nat.ofDigitChars 10 digits 0
    -- An exponent this size decides alone: the number is zero or too large.
    let value :=
      if e < Nat.pow 2 31 then
        Binary64.scaled significand (if minus then exponent - e else exponent + e)
      else if significand = 0 ∨ minus then some Binary64.zero
      else none
    (signed negative value).map fun n => (n, rest)

/-- The number whose significand and exponent are known, unless an exponent part follows. -/
def finishDouble (negative : Bool) (significand : Nat) (exponent : Int) (cs : List Char) :
    Option (Number × List Char) :=
  match cs with
  | 'e' :: rest | 'E' :: rest => readExponent negative significand exponent rest
  | _ => (signed negative (Binary64.scaled significand exponent)).map fun n => (n, cs)

/-- The digits after the point. Those that do not fit the significand any more count for nothing. -/
def readFraction (negative : Bool) (significand : Nat) (exponent : Int) (cs : List Char) :
    Option (Number × List Char) :=
  match cs with
  | [] => none
  | c :: _ =>
    if isAsciiDigit c then
      let (significand, taken, rest) := takeDigits significand 0 cs
      finishDouble negative significand (exponent - taken) (rest.dropWhile isAsciiDigit)
    else none

/-- An integer whose digits all fit. -/
def integer (negative : Bool) (n : Nat) : Number :=
  -- A minus sign in front of zero, or of more than 63 bits, needs a double.
  if !negative then .integer n
  else if n = 0 ∨ Nat.pow 2 63 < n then
    .double (((Binary64.ofNat n).getD Binary64.zero).neg)
  else .integer (-(n : Int))

/-- What follows the digits of the whole part. -/
def finishNumber (negative : Bool) (significand : Nat) (cs : List Char) :
    Option (Number × List Char) :=
  match cs with
  | '.' :: rest => readFraction negative significand 0 rest
  | 'e' :: rest | 'E' :: rest => readExponent negative significand 0 rest
  | _ => some (integer negative significand, cs)

/-- The whole part has more digits than fit: the others only scale the number. -/
def finishLong (negative : Bool) (significand : Nat) (cs : List Char) :
    Option (Number × List Char) :=
  let dropped := (cs.takeWhile isAsciiDigit).length
  match cs.dropWhile isAsciiDigit with
  | '.' :: rest => readFraction negative significand dropped rest
  | rest => finishDouble negative significand dropped rest

/-- A number after its sign. -/
def readMagnitude (negative : Bool) (cs : List Char) : Option (Number × List Char) :=
  match cs with
  | [] => none
  | c :: rest =>
    if !isAsciiDigit c then none
    else if c == '0' then
      -- A zero at the front stands alone.
      if rest.head?.any isAsciiDigit then none else finishNumber negative 0 rest
    else
      let (significand, _, rest) := takeDigits 0 0 cs
      if rest.head?.any isAsciiDigit then finishLong negative significand rest
      else finishNumber negative significand rest

/-! ### Strings -/

/-- Four hexadecimal digits. -/
def readHex4 : List Char → Option (Nat × List Char)
  | a :: b :: c :: d :: rest => do
    let a ← hexValue? a
    let b ← hexValue? b
    let c ← hexValue? c
    let d ← hexValue? d
    pure (((a * 16 + b) * 16 + c) * 16 + d, rest)
  | _ => none

/-- The character of a `\u` escape, with the second half of its pair where it needs one. -/
def readUnicode (cs : List Char) : Option (Char × List Char) := do
  let (high, rest) ← readHex4 cs
  -- The second half of a pair cannot come first, nor the first half alone.
  if 0xDC00 ≤ high ∧ high ≤ 0xDFFF then none
  else if 0xD800 ≤ high ∧ high ≤ 0xDBFF then
    match rest with
    | '\\' :: 'u' :: more => do
      let (low, rest) ← readHex4 more
      if 0xDC00 ≤ low ∧ low ≤ 0xDFFF then
        pure (Char.ofNat (0x10000 + (high - 0xD800) * 0x400 + (low - 0xDC00)), rest)
      else none
    | _ => none
  else pure (Char.ofNat high, rest)

/-- The character an escape stands for, after the backslash. -/
def readEscape : List Char → Option (Char × List Char)
  | '"' :: rest => some ('"', rest)
  | '\\' :: rest => some ('\\', rest)
  | '/' :: rest => some ('/', rest)
  | 'b' :: rest => some ('\x08', rest)
  | 'f' :: rest => some ('\x0c', rest)
  | 'n' :: rest => some ('\n', rest)
  | 'r' :: rest => some ('\r', rest)
  | 't' :: rest => some ('\t', rest)
  | 'u' :: rest => readUnicode rest
  | _ => none

/-- The rest of a string up to its closing quote; `taken` is what was read, last first. -/
def readString (taken : List Char) (cs : List Char) : Option (String × List Char) :=
  match cs with
  | [] => none
  | '"' :: rest => some (String.ofList taken.reverse, rest)
  | '\\' :: rest =>
    match readEscape rest with
    | none => none
    | some (c, left) =>
      -- An escape consumes something, so the condition always holds; it ends the recursion.
      if left.length < rest.length then readString (c :: taken) left else none
  | c :: rest => if c.toNat < 0x20 then none else readString (c :: taken) rest
termination_by cs.length

/-! ### Values -/

/-- The text without the given word at its front. -/
def dropWord : List Char → List Char → Option (List Char)
  | [], cs => some cs
  | _, [] => none
  | w :: word, c :: cs => if w == c then dropWord word cs else none

/-- The members read so far, last first, with one more. -/
def addMember (taken : List (String × Json)) (name : String) (v : Json) :
    List (String × Json) :=
  if name ∈ Named.names taken then (Named.insert taken.reverse name v).reverse
  else (name, v) :: taken

mutual

/-- A value, with room for `depth` levels of arrays and objects. -/
def readValue (depth : Nat) (cs : List Char) : Option (Json × List Char) :=
  match cs with
  | 'n' :: rest => (dropWord ['u', 'l', 'l'] rest).map fun left => (.null, left)
  | 't' :: rest => (dropWord ['r', 'u', 'e'] rest).map fun left => (.bool true, left)
  | 'f' :: rest => (dropWord ['a', 'l', 's', 'e'] rest).map fun left => (.bool false, left)
  | '"' :: rest => (readString [] rest).map fun (s, left) => (.string s, left)
  | '-' :: rest => (readMagnitude true rest).map fun (n, left) => (.number n, left)
  | '[' :: rest =>
    match depth with
    | 0 => none
    | inner + 1 =>
      match rest.dropWhile isSpace with
      | ']' :: left => some (.array [], left)
      | left => readItems inner [] left
  | '\x7b' :: rest =>
    match depth with
    | 0 => none
    | inner + 1 =>
      match rest.dropWhile isSpace with
      | '\x7d' :: left => some (.object [], left)
      | left => readMembers inner [] left
  | _ => (readMagnitude false cs).map fun (n, left) => (.number n, left)
termination_by (depth, 0, 0)

/-- The items of an array from the next one on, with those before it last first. -/
def readItems (depth : Nat) (taken : List Json) (cs : List Char) : Option (Json × List Char) :=
  match readValue depth cs with
  | none => none
  | some (v, rest) =>
    match rest.dropWhile isSpace with
    | ']' :: left => some (.array (v :: taken).reverse, left)
    | ',' :: left =>
      -- So does every item, and every member below.
      if (left.dropWhile isSpace).length < cs.length then
        readItems depth (v :: taken) (left.dropWhile isSpace)
      else none
    | _ => none
termination_by (depth, 1, cs.length)

/-- The members of an object from the next one on, with those before it last first. -/
def readMembers (depth : Nat) (taken : List (String × Json)) (cs : List Char) :
    Option (Json × List Char) :=
  match cs with
  | '"' :: body =>
    match readString [] body with
    | none => none
    | some (name, rest) =>
      match rest.dropWhile isSpace with
      | ':' :: rest =>
        match readValue depth (rest.dropWhile isSpace) with
        | none => none
        | some (v, rest) =>
          let taken := addMember taken name v
          match rest.dropWhile isSpace with
          | '\x7d' :: left => some (.object taken.reverse, left)
          | ',' :: left =>
            if (left.dropWhile isSpace).length ≤ body.length then
              readMembers depth taken (left.dropWhile isSpace)
            else none
          | _ => none
      | _ => none
  | _ => none
termination_by (depth, 1, cs.length)

end

/-- How deep arrays and objects may be nested. -/
def deepest : Nat := 127

/-- The value a text consists of. -/
def parse? (s : String) : Option Json :=
  match readValue deepest (s.toList.dropWhile isSpace) with
  | some (v, rest) => if (rest.dropWhile isSpace).isEmpty then some v else none
  | none => none

end ControllerTypes.Json
