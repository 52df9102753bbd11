import ControllerTypes.Text.CharClass

/-!
# `ControllerTypes.Text.Blank`: white space, trimming and lines

`isBlank` is the Unicode property *White_Space*. Trimming takes blanks off an end of a text and
`lines` splits it at line feeds, each taken together with one carriage return in front of it. A
last line needs no line feed, and a text that ends with one has no empty line after it.

`dropWhileEnd` is what every trimming from the right comes down to.
-/

set_option autoImplicit false

namespace ControllerTypes.Text

/-- The character has the Unicode property *White_Space*. -/
def isBlank (c : Char) : Bool :=
  let n := c.toNat
  (0x09 ≤ n && n ≤ 0x0D) || n == 0x20 || n == 0x85 || n == 0xA0 || n == 0x1680
    || (0x2000 ≤ n && n ≤ 0x200A) || n == 0x2028 || n == 0x2029 || n == 0x202F || n == 0x205F
    || n == 0x3000

/-- The list without the longest run of elements at its end that satisfy `p`. -/
def dropWhileEnd {α : Type} (p : α → Bool) (xs : List α) : List α :=
  (xs.reverse.dropWhile p).reverse

/-- The text without the blanks at its end. -/
def trimEnd (cs : List Char) : List Char := dropWhileEnd isBlank cs

/-- The text without the blanks at both ends. -/
def trim (cs : List Char) : List Char := trimEnd (cs.dropWhile isBlank)

/-- The lines of a text, without the line feeds that end them and the carriage returns that
belong to these. -/
def lines : List Char → List (List Char)
  | [] => []
  | '\r' :: '\n' :: rest => [] :: lines rest
  | '\n' :: rest => [] :: lines rest
  | c :: rest =>
    match lines rest with
    | [] => [[c]]
    | line :: others => (c :: line) :: others

end ControllerTypes.Text
