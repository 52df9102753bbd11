import ControllerTypes.Text.Letter

/-!
# `ControllerTypes.Name.Snake`: names in lower case with underscores

`snakeCase` spells a name the way files and operation nouns are spelled: `DBInstance` becomes
`db_instance`, `HTTPServer` becomes `http_server`, `some-resource` becomes `some_resource`.

It is three passes over the characters. `Snake.mark` writes an underscore for every separator and
in front of every capital that begins a word, and makes ASCII capitals small; `Snake.squeeze` leaves
one underscore of each run; `Snake.strip` takes them off both ends. A capital begins a word when the
character before it is a small letter or an ASCII digit, or the one after it is a small letter, so
the last capital of a run belongs to the word that follows.

No pass loses a digit: `digitCount_snakeCase` says that a name has as many digits after as before.
That is what makes numbered names turn into different files.

The function is `to_snake_case`, and `snakeChars` the same on characters.
-/

set_option autoImplicit false

namespace ControllerTypes.Name

open Text

namespace Snake

/-- The capital that stands after `before` and ahead of `rest` begins a word. -/
def beginsWord (before : Option Char) (rest : List Char) : Bool :=
  match before with
  -- The first character begins the name anyway.
  | none => false
  | some p => isLower p || isAsciiDigit p || rest.head?.any isLower

/-- The character is written as an underscore. -/
def isSeparator (c : Char) : Bool := c == '-' || c == ' ' || c == '.'

/-- What is written for the character `c`. -/
def markChar (before : Option Char) (c : Char) (rest : List Char) : List Char :=
  if isUpper c then
    if beginsWord before rest then ['_', toAsciiLower c] else [toAsciiLower c]
  else if isSeparator c then ['_']
  else [c]

/-- The characters with word ends marked; `before` is the character in front of them. -/
def mark (before : Option Char) : List Char → List Char
  | [] => []
  | c :: rest => markChar before c rest ++ mark (some c) rest

/-- The characters with each run of underscores made one. -/
def squeeze : List Char → List Char
  | [] => []
  | [c] => [c]
  | c :: d :: rest =>
    if c == '_' && d == '_' then squeeze (d :: rest) else c :: squeeze (d :: rest)

/-- The characters without underscores at either end. -/
def strip (cs : List Char) : List Char :=
  (((cs.dropWhile (· == '_')).reverse).dropWhile (· == '_')).reverse

end Snake

/-- The name in snake case, as characters. -/
def snakeChars (cs : List Char) : List Char :=
  Snake.strip (Snake.squeeze (Snake.mark none cs))

/-- The name in snake case. -/
def snakeCase (s : String) : String := String.ofList (snakeChars s.toList)

/-! ### Digits survive -/

/-- How many ASCII digits the characters hold. -/
def digits (cs : List Char) : Nat := cs.countP isAsciiDigit

/-- How many ASCII digits the name holds. -/
def digitCount (s : String) : Nat := digits s.toList

/-- The digits of two texts, one behind the other, are those of both. -/
theorem digits_append (xs ys : List Char) : digits (xs ++ ys) = digits xs + digits ys :=
  List.countP_append

/-- The digits of a text are those of its first character and those behind it, in the form in which
the passes over a name take it apart. -/
theorem digits_cons (c : Char) (cs : List Char) : digits (c :: cs) = digits [c] + digits cs :=
  digits_append [c] cs

/-- A text has its digits in either direction, which is what `strip` needs to look at the end. -/
theorem digits_reverse (cs : List Char) : digits cs.reverse = digits cs :=
  List.countP_reverse

namespace Snake

/-- The underscores that the passes put in and take out are no digits. -/
theorem digits_underscore : digits ['_'] = 0 := by decide

/-- A character above the digits is none; `57` is the code of the digit nine. -/
theorem digits_of_lt {c : Char} (h : 57 < c.toNat) : digits [c] = 0 := by
  have hd : isAsciiDigit c = false := by
    cases hc : isAsciiDigit c with
    | false => rfl
    | true => have := toNat_of_isAsciiDigit hc; omega
  simp [digits, hd]

/-- A capital is no digit, in whatever script: below `0x80` it is one from `A` to `Z`, and all
others are far above the digits. -/
theorem digits_of_isUpper {c : Char} (h : isUpper c = true) : digits [c] = 0 := by
  apply digits_of_lt
  -- Only ASCII has capitals near the digits, and there `isUpper` is a comparison of codes.
  by_cases hlt : c.toNat < 0x80
  · have := toNat_of_isAsciiUpper (c := c) (by simpa [isUpper, hlt] using h)
    omega
  · omega

/-- Making a capital small does not make it a digit. One that is not ASCII stays as it is. -/
theorem digits_toAsciiLower {c : Char} (h : isUpper c = true) : digits [toAsciiLower c] = 0 := by
  by_cases hup : isAsciiUpper c = true
  · have := toNat_toAsciiLower hup
    have := toNat_of_isAsciiUpper hup
    exact digits_of_lt (by omega)
  · rw [toAsciiLower_of_not_isAsciiUpper (by simpa using hup)]
    exact digits_of_isUpper h

/-- Every character keeps its digit, whatever stands before it and behind it. -/
theorem digits_markChar (before : Option Char) (c : Char) (rest : List Char) :
    digits (markChar before c rest) = digits [c] := by
  unfold markChar
  split
  · next h =>
    rw [digits_of_isUpper h]
    split
    · rw [digits_cons, digits_underscore, digits_toAsciiLower h]
    · exact digits_toAsciiLower h
  · split
    · next h =>
      -- The separators are three characters, so they are looked at one by one.
      have : c = '-' ∨ c = ' ' ∨ c = '.' := by
        simpa [isSeparator, or_assoc] using h
      rcases this with rfl | rfl | rfl <;> decide
    · rfl

/-- Marking keeps all digits, since it does so for each character. -/
theorem digits_mark (before : Option Char) (cs : List Char) :
    digits (mark before cs) = digits cs := by
  induction cs generalizing before with
  | nil => rfl
  | cons c rest ih =>
    rw [mark, digits_append, digits_markChar, ih, ← digits_cons]

/-- Squeezing keeps all digits, since only underscores are left out. -/
theorem digits_squeeze (cs : List Char) : digits (squeeze cs) = digits cs := by
  fun_induction squeeze cs with
  | case1 => rfl
  | case2 => rfl
  | case3 c d rest h ih =>
    -- An underscore is left out because another one follows.
    have hc : c = '_' := by simp_all
    rw [ih, digits_cons c, hc, digits_underscore, Nat.zero_add]
  | case4 c d rest h ih => rw [digits_cons, ih, ← digits_cons]

/-- Underscores at the front hold no digit. -/
theorem digits_dropWhile (cs : List Char) : digits (cs.dropWhile (· == '_')) = digits cs := by
  induction cs with
  | nil => rfl
  | cons c rest ih =>
    rw [List.dropWhile_cons]
    split
    · next h =>
      have hc : c = '_' := by simpa using h
      rw [ih, digits_cons c, hc, digits_underscore, Nat.zero_add]
    · rfl

/-- Stripping keeps all digits, for the same reason at both ends. -/
theorem digits_strip (cs : List Char) : digits (strip cs) = digits cs := by
  rw [strip, digits_reverse, digits_dropWhile, digits_reverse, digits_dropWhile]

end Snake

/-- A name keeps all its digits in snake case. -/
theorem digitCount_snakeCase (s : String) : digitCount (snakeCase s) = digitCount s := by
  rw [digitCount, snakeCase, String.toList_ofList, snakeChars, Snake.digits_strip,
    Snake.digits_squeeze, Snake.digits_mark, digitCount]

end ControllerTypes.Name
