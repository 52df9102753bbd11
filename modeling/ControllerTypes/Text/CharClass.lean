/-!
# `ControllerTypes.Text.CharClass`: sets of characters given as code ranges

The properties of characters that the Unicode standard publishes (upper case, lower case,
visible) come as tables of code points. In the alphabets where capitals and small letters take
turns every second code belongs to the class, so a range here carries a step: `(first, last, 2)`
is every other code from `first` to `last`, and `(first, last, 1)` all of them.

`CharClass.contains` is membership. It scans the table from the front, which costs nothing where it
matters: every caller asks about ASCII before it looks anything up.
-/

set_option autoImplicit false

namespace ControllerTypes.Text

/-- A set of code points: the ranges `(first, last, step)` it is the union of. -/
abbrev CharClass := List (Nat × Nat × Nat)

namespace CharClass

/-- The class contains the code `n`. -/
def containsCode (ranges : CharClass) (n : Nat) : Bool :=
  ranges.any fun (first, last, step) => first ≤ n && n ≤ last && (n - first) % step == 0

/-- The class contains the character `c`. -/
def contains (ranges : CharClass) (c : Char) : Bool :=
  ranges.containsCode c.toNat

end CharClass

/-- The character is one of the digits `0` to `9`. -/
def isAsciiDigit (c : Char) : Bool := '0' ≤ c && c ≤ '9'

/-- The character is an ASCII capital. -/
def isAsciiUpper (c : Char) : Bool := 'A' ≤ c && c ≤ 'Z'

/-- The character is an ASCII small letter. -/
def isAsciiLower (c : Char) : Bool := 'a' ≤ c && c ≤ 'z'

/-- The character is an ASCII letter. -/
def isAsciiLetter (c : Char) : Bool := isAsciiUpper c || isAsciiLower c

/-- The character is an ASCII letter or digit. -/
def isAsciiAlphanumeric (c : Char) : Bool := isAsciiLetter c || isAsciiDigit c

/-- The small letter of an ASCII capital; every other character stays. -/
def toAsciiLower : Char → Char
  | 'A' => 'a' | 'B' => 'b' | 'C' => 'c' | 'D' => 'd' | 'E' => 'e' | 'F' => 'f'
  | 'G' => 'g' | 'H' => 'h' | 'I' => 'i' | 'J' => 'j' | 'K' => 'k' | 'L' => 'l'
  | 'M' => 'm' | 'N' => 'n' | 'O' => 'o' | 'P' => 'p' | 'Q' => 'q' | 'R' => 'r'
  | 'S' => 's' | 'T' => 't' | 'U' => 'u' | 'V' => 'v' | 'W' => 'w' | 'X' => 'x'
  | 'Y' => 'y' | 'Z' => 'z'
  | c => c

/-- The capital of an ASCII small letter; every other character stays. -/
def toAsciiUpper : Char → Char
  | 'a' => 'A' | 'b' => 'B' | 'c' => 'C' | 'd' => 'D' | 'e' => 'E' | 'f' => 'F'
  | 'g' => 'G' | 'h' => 'H' | 'i' => 'I' | 'j' => 'J' | 'k' => 'K' | 'l' => 'L'
  | 'm' => 'M' | 'n' => 'N' | 'o' => 'O' | 'p' => 'P' | 'q' => 'Q' | 'r' => 'R'
  | 's' => 'S' | 't' => 'T' | 'u' => 'U' | 'v' => 'V' | 'w' => 'W' | 'x' => 'X'
  | 'y' => 'Y' | 'z' => 'Z'
  | c => c

/-- An ASCII capital lies between `A` and `Z`. -/
theorem toNat_of_isAsciiUpper {c : Char} (h : isAsciiUpper c = true) :
    65 ≤ c.toNat ∧ c.toNat ≤ 90 :=
  ⟨Char.le_def.1 (of_decide_eq_true (Bool.and_eq_true_iff.1 h).1),
    Char.le_def.1 (of_decide_eq_true (Bool.and_eq_true_iff.1 h).2)⟩

/-- An ASCII digit lies between `0` and `9`. -/
theorem toNat_of_isAsciiDigit {c : Char} (h : isAsciiDigit c = true) :
    48 ≤ c.toNat ∧ c.toNat ≤ 57 :=
  ⟨Char.le_def.1 (of_decide_eq_true (Bool.and_eq_true_iff.1 h).1),
    Char.le_def.1 (of_decide_eq_true (Bool.and_eq_true_iff.1 h).2)⟩

/-- The small letter of an ASCII capital stands 32 codes after it. -/
theorem toNat_toAsciiLower {c : Char} (h : isAsciiUpper c = true) :
    (toAsciiLower c).toNat = c.toNat + 32 := by
  have hbounds := toNat_of_isAsciiUpper h
  have hcodes : ∀ n < 91, 65 ≤ n → (toAsciiLower (Char.ofNat n)).toNat = n + 32 := by decide
  have hc := hcodes c.toNat (by omega) hbounds.1
  rwa [Char.ofNat_toNat] at hc

/-- A character that is no ASCII capital stays. -/
theorem toAsciiLower_of_not_isAsciiUpper {c : Char} (h : isAsciiUpper c = false) :
    toAsciiLower c = c := by
  unfold toAsciiLower
  split
  case h_27 => rfl
  all_goals exact absurd h (by decide)

/-- The text with its ASCII capitals made small. -/
def asciiLower (s : String) : String := String.ofList (s.toList.map toAsciiLower)

end ControllerTypes.Text
