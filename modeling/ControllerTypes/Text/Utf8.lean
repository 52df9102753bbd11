/-!
# `ControllerTypes.Text.Utf8`: reading octets as text

A document arrives as octets. `decode?` reads them as UTF-8 and refuses anything else; `decodeLossy`
always answers, and writes U+FFFD once for each stretch of octets that is not UTF-8, where a stretch
is as long as some character could still have begun with it.

`decodeLossy` is a machine that is fed one octet at a time. Between characters it holds nothing;
within one it holds a `Partial`: the bits read so far, the number of octets still owed, and the
bounds of the next one. The bounds are what keeps overlong forms, surrogates and codes above
U+10FFFF out, since each of these shows in the second octet.
-/

set_option autoImplicit false

namespace ControllerTypes.Text.Utf8

/-- The replacement character. -/
def replacement : Char := '\uFFFD'

/-- A character whose first octets have been read. -/
structure Partial where
  /-- The bits read so far. -/
  bits : Nat
  /-- How many octets are still owed, at least one. -/
  owed : Nat
  /-- The least value the next octet may have. -/
  low : Nat
  /-- The greatest value the next octet may have. -/
  high : Nat

/-- What an octet is when it stands between characters. -/
inductive Lead where
  /-- A whole character. -/
  | whole (c : Char)
  /-- The first octet of a longer one. -/
  | start (p : Partial)
  /-- Neither. -/
  | invalid

/-- The reading of an octet between characters. -/
def lead (b : Nat) : Lead :=
  if b < 0x80 then .whole (Char.ofNat b)
  else if b < 0xC2 then .invalid
  else if b < 0xE0 then .start ⟨b - 0xC0, 1, 0x80, 0xBF⟩
  else if b = 0xE0 then .start ⟨0, 2, 0xA0, 0xBF⟩
  else if b = 0xED then .start ⟨0xD, 2, 0x80, 0x9F⟩
  else if b < 0xF0 then .start ⟨b - 0xE0, 2, 0x80, 0xBF⟩
  else if b = 0xF0 then .start ⟨0, 3, 0x90, 0xBF⟩
  else if b < 0xF4 then .start ⟨b - 0xF0, 3, 0x80, 0xBF⟩
  else if b = 0xF4 then .start ⟨4, 3, 0x80, 0x8F⟩
  else .invalid

/-- The machine: the unfinished character, and the text so far, last character first. -/
structure Reader where
  pending : Option Partial := none
  written : List Char := []

namespace Reader

/-- Reads an octet that starts a character. -/
def begin (written : List Char) (b : Nat) : Reader :=
  match lead b with
  | .whole c => ⟨none, c :: written⟩
  | .start p => ⟨some p, written⟩
  | .invalid => ⟨none, replacement :: written⟩

/-- Reads one octet. An octet that cannot go on with the unfinished character ends that one as a
replacement and starts over. -/
def step (r : Reader) (octet : UInt8) : Reader :=
  let b := octet.toNat
  match r.pending with
  | none => begin r.written b
  | some p =>
    if p.low ≤ b && b ≤ p.high then
      let bits := p.bits * 64 + (b - 0x80)
      if p.owed ≤ 1 then ⟨none, Char.ofNat bits :: r.written⟩
      else ⟨some ⟨bits, p.owed - 1, 0x80, 0xBF⟩, r.written⟩
    else begin (replacement :: r.written) b

/-- The text after the last octet. -/
def finish (r : Reader) : List Char :=
  match r.pending with
  | none => r.written.reverse
  | some _ => (replacement :: r.written).reverse

end Reader

/-- The text of the octets, with U+FFFD for what is not UTF-8. -/
def decodeLossy (bytes : ByteArray) : String :=
  String.ofList (bytes.toList.foldl Reader.step {}).finish

/-- The text of the octets, if they are UTF-8 throughout. -/
def decode? (bytes : ByteArray) : Option String := String.fromUTF8? bytes

/-- The octets of a text are read as that text. -/
theorem decode?_toUTF8 (s : String) : decode? s.toUTF8 = some s := by
  simp only [decode?, String.fromUTF8?]
  exact dif_pos s.isValidUTF8

end ControllerTypes.Text.Utf8
