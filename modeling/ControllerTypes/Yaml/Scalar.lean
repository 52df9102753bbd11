import ControllerTypes.Text.CharClass
import ControllerTypes.Text.Hexadecimal
import ControllerTypes.Yaml.Value

/-!
# `ControllerTypes.Yaml.Scalar`: what the text of a scalar means

A scalar without quotation marks may be a word for nothing or for a truth value, or a number; every
other one is a string. Decimal digits behind a zero are a string, so that `007` stays what it is.

A tag of the format names the type that a scalar has to be of. Any other tag makes it a string, or
with a leading `!` leaves the matter to its text.
-/

set_option autoImplicit false

namespace ControllerTypes.Yaml

open Decimal Text

namespace Scalar

/-- The text means nothing. -/
def isNull (text : String) : Bool := ["null", "Null", "NULL", "~"].contains text

/-- The truth value that a text means. -/
def bool? (text : String) : Option Bool :=
  if ["true", "True", "TRUE"].contains text then some true
  else if ["false", "False", "FALSE"].contains text then some false
  else none

/-! ### Integers -/

/-- The number that the digits of a base mean; there has to be one. -/
def digits? (base : Nat) (cs : List Char) : Option Nat :=
  if cs.isEmpty then none
  else
    cs.foldlM
      (fun n c => (hexValue? c).bind fun d => if d < base then some (n * base + d) else none) 0

/-- The text begins with a sign. -/
def isSigned (cs : List Char) : Bool := cs.head? == some '+' || cs.head? == some '-'

/-- The text without a sign at its front. -/
def unsigned (cs : List Char) : List Char := if isSigned cs then cs.drop 1 else cs

/-- Several decimal digits of which the first is a zero. -/
def isZeroLed (cs : List Char) : Bool :=
  match unsigned cs with
  | '0' :: c :: rest => (c :: rest).all isAsciiDigit
  | _ => false

/-- The number that digits in some base mean. -/
def magnitude? : List Char → Option Nat
  | '0' :: 'x' :: cs => digits? 16 cs
  | '0' :: 'o' :: cs => digits? 8 cs
  | '0' :: 'b' :: cs => digits? 2 cs
  -- `007` is no number, and its text is kept.
  | cs => if isZeroLed cs then none else digits? 10 cs

/-- An integer that a text means. -/
inductive Whole where
  | integer (i : Int)
  /-- The text is an integer that does not fit into 64 bits, but would into 128. -/
  | tooLong

/-- The integer that a text means. One that does not even fit into 128 bits is none. -/
def whole? (cs : List Char) : Option Whole :=
  match cs with
  | '-' :: rest =>
    (magnitude? rest).bind fun n =>
      if n ≤ Nat.pow 2 63 then some (.integer (-(n : Int)))
      else if n ≤ Nat.pow 2 127 then some .tooLong
      else none
  | _ =>
    (magnitude? (if cs.head? == some '+' then cs.drop 1 else cs)).bind fun n =>
      if n < Nat.pow 2 64 then some (.integer n)
      else if n < Nat.pow 2 128 then some .tooLong
      else none

/-! ### Numbers in double precision -/

/-- The exponent behind its mark; no mark means zero. -/
def exponent? : List Char → Option Int
  | [] => some 0
  | mark :: cs =>
    if mark == 'e' || mark == 'E' then
      let digits := unsigned cs
      if digits.isEmpty || !digits.all isAsciiDigit then none
      else
        let e : Int := Nat.ofDigitChars 10 digits 0
        some (if cs.head? == some '-' then -e else e)
    else none

/-- The double closest to a decimal number without a sign. -/
def decimal? (cs : List Char) : Option Binary64 :=
  let whole := cs.takeWhile isAsciiDigit
  let (fraction, rest) :=
    match cs.dropWhile isAsciiDigit with
    | '.' :: rest => (rest.takeWhile isAsciiDigit, rest.dropWhile isAsciiDigit)
    | rest => ([], rest)
  if whole.isEmpty && fraction.isEmpty then none
  else
    (exponent? rest).bind fun e =>
      Binary64.read (Nat.ofDigitChars 10 (whole ++ fraction) 0) (e - fraction.length)

/-- The number in double precision that a text means. -/
def real? (text : String) : Option Real :=
  let cs := text.toList
  let bare := unsigned cs
  if [".nan", ".NaN", ".NAN"].contains text then some .notANumber
  else if [".inf", ".Inf", ".INF"].contains (String.ofList bare) then
    some (.infinity (cs.head? == some '-'))
  else
    (decimal? bare).map fun x => .finite (if cs.head? == some '-' then x.neg else x)

/-! ### Scalars -/

/-- The value of a scalar without quotation marks. -/
def plain? (text : String) : Option Value :=
  if text == "" || isNull text then some .null
  else
    match bool? text, whole? text.toList with
    | some b, _ => some (.bool b)
    | none, some (.integer i) => some (.integer i)
    -- An integer of this size has no counterpart, and is no string either.
    | none, some .tooLong => none
    | none, none =>
      if isZeroLed text.toList then some (.string text)
      else some (((real? text).map .real).getD (.string text))

/-- The value of a scalar of which nothing but its tag says what it is. -/
def ofType? (tag : String) (text : String) : Option (Option Value) :=
  match tag with
  | "tag:yaml.org,2002:null" => some (if isNull text then some .null else none)
  | "tag:yaml.org,2002:bool" => some ((bool? text).map .bool)
  | "tag:yaml.org,2002:int" =>
    some (match whole? text.toList with
      | some (.integer i) => some (.integer i)
      | _ => none)
  | "tag:yaml.org,2002:float" => some ((real? text).map .real)
  | _ => none

/-- The value of a scalar whose tag is not left to its users. -/
def value? (tag : Option String) (plain : Bool) (text : String) : Option Value :=
  match tag with
  | none => if plain then plain? text else some (.string text)
  | some tag => (ofType? tag text).getD (some (.string text))

end Scalar

end ControllerTypes.Yaml
