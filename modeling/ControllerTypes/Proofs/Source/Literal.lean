import ControllerTypes.Json.Reader
import ControllerTypes.Source.Filter
import Mathlib

/-!
# `ControllerTypes.Proofs.Source.Literal`: literals that Go reads back

The literal of an enumeration is quoted by the rules of JSON and read by those of Go. `value?` reads
an interpreted string literal of Go: the bytes of its characters, and the escapes for a character by
its code, for a byte, and for the signs that have a letter. The rules are not the same on both
sides. Only JSON has `\/` and gives a character in two halves; only Go has `\a` and octal digits.
What a compiler of Go asks of a file as a whole, such as where a byte order mark may stand, is no
rule for literals and left out.

`Shared` is an escape that means the same character to both, and `Spells` says that a text consists
of such escapes and of characters that stand for themselves. Such a text is read by Go as the bytes
of what it spells (`read_of_spells`) and by JSON as that itself (`readString_of_spells`). That the
writer makes nothing else is a case analysis on the character (`escape_cases`).
-/

set_option autoImplicit false

namespace ControllerTypes.Source.Literal

open Text

/-! ### String literals of Go -/

/-- The number that so many digits in front come to, and what is left. -/
def number? (base : Nat) : Nat → Nat → List Char → Option (Nat × List Char)
  | 0, n, cs => some (n, cs)
  | _ + 1, _, [] => none
  | count + 1, n, c :: cs =>
    match hexValue? c with
    | some d => if d < base then number? base count (n * base + d) cs else none
    | none => none

/-- The bytes of the character with the code, which may not be half of a surrogate pair. -/
def encoded? (n : Nat) : Option (List UInt8) :=
  if n.isValidChar then some (String.utf8EncodeChar (Char.ofNat n)) else none

/-- The byte that a letter or sign alone stands for behind a backslash. -/
def signByte? : Char → Option UInt8
  | 'a' => some 0x07
  | 'b' => some 0x08
  | 't' => some 0x09
  | 'n' => some 0x0A
  | 'v' => some 0x0B
  | 'f' => some 0x0C
  | 'r' => some 0x0D
  | '\\' => some 0x5C
  | '"' => some 0x22
  | _ => none

/-- The bytes an escape stands for, after the backslash, and what is left. -/
def escape? : List Char → Option (List UInt8 × List Char)
  | [] => none
  | 'x' :: cs => (number? 16 2 0 cs).map fun (n, rest) => ([n.toUInt8], rest)
  | 'u' :: cs =>
    (number? 16 4 0 cs).bind fun (n, rest) => (encoded? n).map fun bytes => (bytes, rest)
  | 'U' :: cs =>
    (number? 16 8 0 cs).bind fun (n, rest) => (encoded? n).map fun bytes => (bytes, rest)
  | c :: cs =>
    match signByte? c with
    | some b => some ([b], cs)
    | none =>
      -- Three octal digits are a byte, if they are not too large for one.
      (number? 8 3 0 (c :: cs)).bind fun (n, rest) =>
        if n < 256 then some ([n.toUInt8], rest) else none

/-- The bytes of a literal behind its first quote. The next quote ends it, and a line feed may not
stand in it. -/
def read (cs : List Char) : Option (List UInt8) :=
  match cs with
  | [] => none
  | '"' :: rest => if rest.isEmpty then some [] else none
  | '\\' :: rest =>
    match escape? rest with
    | none => none
    | some (bytes, left) =>
      -- An escape consumes something, as in JSON.
      if left.length < rest.length then (read left).map (bytes ++ ·) else none
  | c :: rest => if c = '\n' then none else (read rest).map (String.utf8EncodeChar c ++ ·)
termination_by cs.length

/-- The string a literal stands for. In Go this is a row of bytes. -/
def value? : List Char → Option ByteArray
  | '"' :: cs => (read cs).map List.toByteArray
  | _ => none

/-! ### What Go and JSON share -/

/-- Behind a backslash, the text stands for the character in Go and in JSON. -/
def Shared (e : List Char) (c : Char) : Prop :=
  ∀ rest, escape? (e ++ rest) = some (String.utf8EncodeChar c, rest) ∧
    Json.readEscape (e ++ rest) = some (c, rest)

/-- The text between two quotes spells the characters, each by itself or by an escape that Go and
JSON share. -/
inductive Spells : List Char → List Char → Prop
  | nil : Spells [] []
  | plain {c : Char} {body cs : List Char} (quote : c ≠ '"') (backslash : c ≠ '\\')
      (control : 0x20 ≤ c.toNat) (rest : Spells body cs) : Spells (c :: body) (c :: cs)
  | escaped {e : List Char} {c : Char} {body cs : List Char} (shared : Shared e c)
      (rest : Spells body cs) : Spells ('\\' :: (e ++ body)) (c :: cs)

/-- There is no escape without a text, since no reader finds a character behind nothing. -/
theorem Shared.ne_nil {e : List Char} {c : Char} (h : Shared e c) : e ≠ [] := by
  rintro rfl
  cases (h []).1

/-- An escape consumes something, which is what `read` and `Json.readString` ask for before they go
on. -/
theorem Shared.length_lt {e : List Char} {c : Char} (h : Shared e c) (rest : List Char) :
    rest.length < (e ++ rest).length := by
  rw [List.length_append]
  have := List.length_pos_iff.2 h.ne_nil
  omega

/-- Go reads what is spelled as the bytes of its characters, up to the quote behind it. -/
theorem read_of_spells {body cs : List Char} (h : Spells body cs) :
    read (body ++ ['"']) = some (cs.flatMap String.utf8EncodeChar) := by
  induction h with
  | nil => rw [List.nil_append, read]; rfl
  | @plain c body cs quote backslash control rest ih =>
    -- Go forbids the line feed only, and no character below U+0020 is spelled by itself.
    have hfeed : c ≠ '\n' := by
      rintro rfl
      exact absurd control (by decide)
    rw [List.cons_append, read, if_neg hfeed, ih]
    · rfl
    · exact quote
    · exact backslash
  | @escaped e c body cs shared rest ih =>
    rw [List.cons_append, List.append_assoc, read, (shared _).1]
    dsimp only
    rw [if_pos (shared.length_lt _), ih]
    rfl

/-- JSON reads what is spelled as it is, behind what it has `taken` before. -/
theorem readString_of_spells {body cs : List Char} (h : Spells body cs) (taken : List Char) :
    Json.readString taken (body ++ ['"']) =
      some (String.ofList (taken.reverse ++ cs), []) := by
  -- The reader collects characters last first, so the induction is about any that it may have.
  induction h generalizing taken with
  | nil => rw [List.nil_append, Json.readString, List.append_nil]
  | @plain c body cs quote backslash control rest ih =>
    rw [List.cons_append, Json.readString, if_neg (by omega), ih, List.reverse_cons,
      List.append_assoc]
    · rfl
    · exact quote
    · exact backslash
  | @escaped e c body cs shared rest ih =>
    rw [List.cons_append, List.append_assoc, Json.readString, (shared _).2]
    dsimp only
    rw [if_pos (shared.length_lt _), ih, List.reverse_cons, List.append_assoc]
    rfl

/-! ### What is written -/

/-- A digit in hexadecimal is read as what it was written for. -/
theorem hexValue?_digitChar : ∀ n < 16, hexValue? (Nat.digitChar n) = some n := by decide

/-- A digit in hexadecimal is no control character. -/
theorem le_toNat_digitChar : ∀ n < 16, 0x20 ≤ (Nat.digitChar n).toNat := by decide

/-- A small code in hexadecimal is shared: both languages read four digits behind `u` as the code of
a character. -/
theorem shared_code {c : Char} (h : c.toNat < 0x20) :
    Shared ['u', '0', '0', Nat.digitChar (c.toNat / 16), Nat.digitChar (c.toNat % 16)] c := by
  intro rest
  have hzero : hexValue? '0' = some 0 := by decide
  have hhigh := hexValue?_digitChar (c.toNat / 16) (by omega)
  have hlow := hexValue?_digitChar (c.toNat % 16) (by omega)
  -- The first two digits are zero, and the other two are the quotient and the remainder.
  have hvalue : c.toNat / 16 * 16 + c.toNat % 16 = c.toNat := Nat.div_add_mod' _ _
  have hnumber : number? 16 4 0 ('0' :: '0' :: Nat.digitChar (c.toNat / 16) ::
      Nat.digitChar (c.toNat % 16) :: rest) = some (c.toNat, rest) := by
    simp only [number?, hzero, hhigh, hlow, Nat.zero_mul, Nat.zero_add, hvalue]
    rw [if_pos (by decide), if_pos (by decide), if_pos (by omega), if_pos (by omega)]
  have hencoded : encoded? c.toNat = some (String.utf8EncodeChar c) := by
    have hvalid : c.toNat.isValidChar := c.valid
    rw [encoded?, if_pos hvalid, Char.ofNat_toNat]
  -- The two readers go through the same digits in their own ways.
  have hhex : Json.readHex4 ('0' :: '0' :: Nat.digitChar (c.toNat / 16) ::
      Nat.digitChar (c.toNat % 16) :: rest) = some (c.toNat, rest) := by
    simp [Json.readHex4, hzero, hhigh, hlow, hvalue]
  constructor
  · simp only [List.cons_append, List.nil_append, escape?, hnumber, Option.bind_some, hencoded,
      Option.map_some]
  · simp only [List.cons_append, List.nil_append, Json.readEscape, Json.readUnicode, hhex]
    -- The code is far below those of the halves of a surrogate pair.
    have hlow : ¬ (0xDC00 ≤ c.toNat ∧ c.toNat ≤ 0xDFFF) := by omega
    have hhigh : ¬ (0xD800 ≤ c.toNat ∧ c.toNat ≤ 0xDBFF) := by omega
    simp [hlow, hhigh]

/-- A character is written as it is, or by an escape that is shared and has no control character. -/
theorem escape_cases (c : Char) :
    (Json.escape c = [c] ∧ c ≠ '"' ∧ c ≠ '\\' ∧ 0x20 ≤ c.toNat) ∨
      ∃ e, Json.escape c = '\\' :: e ∧ Shared e c ∧ ∀ d ∈ e, 0x20 ≤ d.toNat := by
  -- One sign behind the backslash, which both readers take for the character by definition.
  have hsign {d : Char} (hd : Shared [d] c) (hcontrol : 0x20 ≤ d.toNat) :
      ∃ e, ['\\', d] = '\\' :: e ∧ Shared e c ∧ ∀ d ∈ e, 0x20 ≤ d.toNat :=
    ⟨[d], rfl, hd, List.forall_mem_singleton.2 hcontrol⟩
  unfold Json.escape
  -- The quote, the backslash and the five control characters with a sign of their own.
  iterate 7
    split
    · next h => exact .inr (hsign (by subst h; exact fun _ => ⟨rfl, rfl⟩) (by decide))
  split
  · next h =>
    -- The other control characters have no sign of their own.
    refine .inr ⟨_, rfl, shared_code h, ?_⟩
    simp only [List.forall_mem_cons]
    exact ⟨by decide, by decide, by decide, le_toNat_digitChar _ (by omega),
      le_toNat_digitChar _ (by omega), List.forall_mem_nil _⟩
  · next hquote hbackslash _ _ _ _ _ hcontrol =>
    exact .inl ⟨rfl, hquote, hbackslash, by omega⟩

/-- No control character is written. -/
theorem le_toNat_of_mem_escape {c d : Char} (h : d ∈ Json.escape c) : 0x20 ≤ d.toNat := by
  obtain ⟨heq, _, _, hcontrol⟩ | ⟨e, heq, _, he⟩ := escape_cases c
  · rw [heq, List.mem_singleton] at h
    rwa [h]
  · rw [heq] at h
    rcases List.mem_cons.1 h with rfl | h
    · decide
    · exact he d h

/-- What is written spells what it was written for, character by character. -/
theorem spells_escape (cs : List Char) : Spells (cs.flatMap Json.escape) cs := by
  induction cs with
  | nil => exact .nil
  | cons c cs ih =>
    rw [List.flatMap_cons]
    obtain ⟨heq, hquote, hbackslash, hcontrol⟩ | ⟨e, heq, hshared, _⟩ := escape_cases c
    · rw [heq]
      exact .plain hquote hbackslash hcontrol ih
    · rw [heq]
      exact .escaped hshared ih

/-- Any string is written as a literal between double quotes. There is no line feed or other control
character in it, and a quote or a backslash is part of an escape that Go shares with JSON. By the
rules of either the literal stands for the string it was written for. -/
theorem literal_survives (s : String) :
    ∃ body : List Char,
      Filter.literal.apply (.string s) = .ok (String.ofList ('"' :: (body ++ ['"']))) ∧
      (∀ c ∈ body, 0x20 ≤ c.toNat) ∧
      Spells body s.toList ∧
      value? ('"' :: (body ++ ['"'])) = some s.toUTF8 ∧
      Json.parse? (String.ofList ('"' :: (body ++ ['"']))) = some (.string s) := by
  have hspells := spells_escape s.toList
  refine ⟨s.toList.flatMap Json.escape, rfl, ?_, hspells, ?_, ?_⟩
  · intro d hd
    obtain ⟨c, _, hd⟩ := List.mem_flatMap.1 hd
    exact le_toNat_of_mem_escape hd
  · rw [value?, read_of_spells hspells, Option.map_some]
    exact congrArg some String.utf8Encode_toList
  · -- The whole text is a string to JSON, with nothing left behind it.
    have hvalue : Json.readValue Json.deepest
        ('"' :: (s.toList.flatMap Json.escape ++ ['"'])) = some (.string s, []) := by
      rw [Json.readValue, readString_of_spells hspells]
      simp
    rw [Json.parse?, String.toList_ofList, List.dropWhile_cons_of_neg (by decide), hvalue]
    rfl

/-- A quote, a backslash, a control character and two characters beyond ASCII. -/
example : (Filter.literal.apply (.string "\"\\\x01é😀")).toOption =
    some "\"\\\"\\\\\\u0001é😀\"" := by decide

end ControllerTypes.Source.Literal
