import ControllerTypes.Decimal.Binary64

/-!
# `ControllerTypes.Decimal.Shortest`: the fewest digits that read back

A double is written with as few decimal digits as still read back as the same double, and among the
candidates of that length with the closest one.

A decimal reads back as `x` when it lies in the interval that rounds to `x`: halfway to the doubles
on either side, ends included exactly when the mantissa of `x` is even. `shortest` goes through the
grids of 1, 2, … 17 digits and looks at the two neighbours of `x` on each, in exact arithmetic. If
any point of a grid lies in the interval then so does one of these two, since the interval contains
`x`, so the first grid with a hit is the coarsest one there is.
-/

set_option autoImplicit false

namespace ControllerTypes.Decimal

/-- The number `significand * 10 ^ exponent`. -/
structure Scientific where
  significand : Nat
  exponent : Int
  deriving DecidableEq, Repr

namespace Scientific

/-- The same number with no zero at the end of its significand; `fuel` bounds the zeros. -/
def trimZeros : Nat → Scientific → Scientific
  | 0, s => s
  | fuel + 1, s =>
    if s.significand ≠ 0 ∧ s.significand % 10 = 0 then
      trimZeros fuel ⟨s.significand / 10, s.exponent + 1⟩
    else s

end Scientific

namespace Binary64

/-- The rounding interval of a positive double in quarter units of its last place: its lower end,
the double itself and its upper end. -/
def quarters (x : Binary64) : Nat × Nat × Nat :=
  -- Below a power of two the doubles lie twice as close.
  let lower := if x.mantissa = Nat.pow 2 52 ∧ leastExponent < x.exponent then 1 else 2
  (4 * x.mantissa - lower, 4 * x.mantissa, 4 * x.mantissa + 2)

/-- The decimal exponent of the leading digit of a positive double. -/
def leadingExponent (x : Binary64) : Int :=
  -- Shifting by 10 ^ 340 makes every positive double a number of at least 16 digits.
  let shifted := x.numerator * Nat.pow 10 340 / x.denominator
  ((Nat.toDigits 10 shifted).length : Int) - 1 - 340

/-- The neighbour of `x` on the grid `10 ^ e` that reads back as `x` and is closest, if one does. -/
def neighbour? (x : Binary64) (e : Int) : Option Nat :=
  let (low, mid, high) := x.quarters
  let up := Nat.pow 2 (x.exponent - 2).toNat * Nat.pow 10 (-e).toNat
  let unit := Nat.pow 2 (2 - x.exponent).toNat * Nat.pow 10 e.toNat
  let readsBack (n : Nat) : Bool :=
    if x.mantissa % 2 = 0 then low * up ≤ n * unit && n * unit ≤ high * up
    else low * up < n * unit && n * unit < high * up
  let below := mid * up / unit
  let above := below + 1
  match readsBack below, readsBack above with
  | false, false => none
  | true, false => some below
  | false, true => some above
  | true, true =>
    -- Both read back: the closer one, and of two equally close the even one.
    let down := mid * up - below * unit
    let rise := above * unit - mid * up
    if down < rise then some below
    else if rise < down then some above
    else if below % 2 = 0 then some below else some above

/-- The shortest decimal of a positive double with `n` or more digits, looking at `fuel` lengths. -/
def shortestFrom (x : Binary64) (lead : Int) : Nat → Nat → Scientific
  | 0, n => ⟨(x.neighbour? (lead + 1 - n)).getD 0, lead + 1 - n⟩
  | fuel + 1, n =>
    match x.neighbour? (lead + 1 - n) with
    | some digits => ⟨digits, lead + 1 - n⟩
    | none => shortestFrom x lead fuel (n + 1)

/-- The shortest decimal that reads back as the double, without its sign. -/
def shortest (x : Binary64) : Scientific :=
  if x.mantissa = 0 then ⟨0, 0⟩
  else Scientific.trimZeros 20 (shortestFrom x x.leadingExponent 17 1)

end Binary64

end ControllerTypes.Decimal
