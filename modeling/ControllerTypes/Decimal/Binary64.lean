/-!
# `ControllerTypes.Decimal.Binary64`: finite double-precision numbers

A number of a document that is no integer is held in double precision. `Binary64` is such a number
as sign, mantissa and exponent, with the value `mantissa * 2 ^ exponent`; infinities and NaN are
left out because no document value is one. Nothing here touches machine floats: rounding is exact
arithmetic on naturals, so what a text is read as can be computed inside a proof. Powers are written
with `Nat.pow`, which is the same function whichever instances of `^` are around.

* `nearest num den` is the double closest to `num / den`, a tie going to the even mantissa, or
  nothing if the quotient is too large.
* `roundQuotient` is the same for integers.
-/

set_option autoImplicit false

namespace ControllerTypes.Decimal

/-- The integer closest to `num / den`; a tie goes to the even one. -/
def roundQuotient (num den : Nat) : Nat :=
  let q := num / den
  let r := num % den
  if 2 * r < den then q
  else if den < 2 * r then q + 1
  else if q % 2 = 0 then q
  else q + 1

/-- A finite double: `mantissa * 2 ^ exponent` with a sign. -/
structure Binary64 where
  /-- The number is written with a minus sign; zero may be. -/
  negative : Bool
  /-- Below `2 ^ 53`, and from `2 ^ 52` on unless the exponent is the least one. -/
  mantissa : Nat
  /-- From -1074 to 971. -/
  exponent : Int
  deriving DecidableEq, Repr, Inhabited

namespace Binary64

/-- The least exponent. -/
def leastExponent : Int := -1074

/-- The greatest exponent. -/
def greatestExponent : Int := 971

/-- Zero. -/
def zero : Binary64 := ⟨false, 0, leastExponent⟩

/-- The numerator of `mantissa * 2 ^ exponent` over the denominator `denominator`. -/
def numerator (x : Binary64) : Nat := x.mantissa * Nat.pow 2 x.exponent.toNat

/-- The power of two under the numerator. -/
def denominator (x : Binary64) : Nat := Nat.pow 2 (-x.exponent).toNat

/-- The number with the other sign. -/
def neg (x : Binary64) : Binary64 := { x with negative := !x.negative }

/-- The quotient `num / den` in units of `2 ^ e`, rounded. -/
def roundAt (num den : Nat) (e : Int) : Nat :=
  roundQuotient (num * Nat.pow 2 (-e).toNat) (den * Nat.pow 2 e.toNat)

/-- The double closest to `num / den`, or nothing when that is beyond the largest. -/
def nearest (num den : Nat) : Option Binary64 :=
  if num = 0 then some zero
  else
    -- The quotient lies strictly between 2 ^ (scale - 1) and 2 ^ (scale + 1).
    let scale : Int := (Nat.log2 num : Int) - (Nat.log2 den : Int)
    let fits (e : Int) : Bool :=
      num * Nat.pow 2 (-e).toNat < den * Nat.pow 2 e.toNat * Nat.pow 2 53
    let e := if fits (scale - 53) then scale - 53 else scale - 52
    let e := max e leastExponent
    let m := roundAt num den e
    -- Rounding up may carry into one more bit.
    let (m, e) := if m = Nat.pow 2 53 then (Nat.pow 2 52, e + 1) else (m, e)
    if greatestExponent < e then none else some ⟨false, m, e⟩

/-- The double closest to a natural number. -/
def ofNat (n : Nat) : Option Binary64 := nearest n 1

/-- The product in double precision, without the sign. -/
def mul (x y : Binary64) : Option Binary64 :=
  nearest (x.numerator * y.numerator) (x.denominator * y.denominator)

/-- The quotient in double precision, without the sign. -/
def div (x y : Binary64) : Option Binary64 :=
  nearest (x.numerator * y.denominator) (x.denominator * y.numerator)

/-- The greatest power of ten that is a double. -/
def mostTens : Nat := 308

/-- The double closest to `10 ^ n`, if there is one. -/
def powerOfTen (n : Nat) : Option Binary64 :=
  if n ≤ mostTens then nearest (Nat.pow 10 n) 1 else none

end Binary64

end ControllerTypes.Decimal
