import ControllerTypes.Decimal.Shortest

/-!
# `ControllerTypes.Decimal.Spelling`: how doubles are written and read

A double is written from its shortest digits: in full from 0.00001 up to but not including ten to
the sixteenth, with a point and at least one digit on either side, and with an exponent outside that
range. Two uses differ only in whether a positive exponent carries a plus sign, which is what
`Spelling` records.

Reading goes two ways. `read` is correct rounding of any decimal. `scaled` is the cheaper rule by
which number tokens of a JSON text are read: the significand is rounded to a double first and then
multiplied or divided by a rounded power of ten, so a long significand may end up beside the nearest
double.
-/

set_option autoImplicit false

namespace ControllerTypes.Decimal

/-- What a way of writing doubles decides for itself. -/
structure Spelling where
  /-- A positive exponent is written with a plus sign. -/
  plusSign : Bool

namespace Spelling

/-- Doubles in JSON texts and in messages. -/
def json : Spelling := ⟨true⟩

/-- Doubles that are keys of a YAML mapping. -/
def yamlKey : Spelling := ⟨false⟩

/-- An exponent with its mark. -/
def exponentText (f : Spelling) (e : Int) : String :=
  if e < 0 then "e-" ++ (-e).toNat.repr
  else if f.plusSign then "e+" ++ e.toNat.repr
  else "e" ++ e.toNat.repr

/-- The digits of a number whose leading digit has the exponent `lead`, in full. -/
def positional (digits : List Char) (lead : Int) : List Char :=
  if lead < 0 then
    ['0', '.'] ++ List.replicate ((-lead).toNat - 1) '0' ++ digits
  else
    let whole := lead.toNat + 1
    if digits.length ≤ whole then
      digits ++ List.replicate (whole - digits.length) '0' ++ ['.', '0']
    else digits.take whole ++ ['.'] ++ digits.drop whole

/-- The text of a double. -/
def write (f : Spelling) (x : Binary64) : String :=
  let short := x.shortest
  let digits := Nat.toDigits 10 short.significand
  let lead := short.exponent + digits.length - 1
  let text :=
    if short.significand = 0 then "0.0"
    else if -5 ≤ lead ∧ lead < 16 then String.ofList (positional digits lead)
    else
      let mantissa :=
        -- A single digit gets no point.
        match digits with
        | d :: r :: rest => d :: '.' :: r :: rest
        | _ => digits
      String.ofList mantissa ++ f.exponentText lead
  if x.negative then "-" ++ text else text

end Spelling

namespace Binary64

/-- The double closest to `significand * 10 ^ exponent`, or nothing when that is too large. -/
def read (significand : Nat) (exponent : Int) : Option Binary64 :=
  let lead : Int := (Nat.toDigits 10 significand).length + exponent
  -- Far outside the range of doubles the digits no longer matter.
  if significand = 0 ∨ lead < -400 then some zero
  else if 400 < lead then none
  else nearest (significand * Nat.pow 10 exponent.toNat) (Nat.pow 10 (-exponent).toNat)

/-- The double divided `n` times by the largest power of ten there is. -/
def shrink (x : Binary64) : Nat → Option Binary64
  | 0 => some x
  | n + 1 =>
    if x.mantissa = 0 then some x
    else ((powerOfTen mostTens).bind x.div).bind fun y => y.shrink n

/-- The double divided by `10 ^ n`, a largest power of ten at a time. -/
def divPowerOfTen (x : Binary64) (n : Nat) : Option Binary64 :=
  let steps := (n - 1) / mostTens
  (x.shrink steps).bind fun y => (powerOfTen (n - steps * mostTens)).bind y.div

/-- The rounded significand times or over a rounded power of ten; nothing when that is too large. -/
def scaled (significand : Nat) (exponent : Int) : Option Binary64 :=
  match ofNat significand with
  | none => none
  | some x =>
    if exponent < 0 then x.divPowerOfTen (-exponent).toNat
    else if (mostTens : Int) < exponent then if x.mantissa = 0 then some x else none
    else (powerOfTen exponent.toNat).bind x.mul

end Binary64

end ControllerTypes.Decimal
