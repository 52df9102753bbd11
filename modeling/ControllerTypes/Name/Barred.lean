import ControllerTypes.Name.Fresh
import ControllerTypes.Name.Reserved

/-!
# `ControllerTypes.Name.Barred`: names that are not to be given

A new name must not be one of those given before, and depending on what it is for it must keep clear
of other names too: a type of the reserved words, a kind also of the files of other kinds.

What is excluded in this way is always a finite list, looked at through a function that keeps digits:
the name itself, its small letters, its file. A name with more digits than any entry is therefore
free (`rejects_eq_false`), so numbering ends (`someFree`), and `freshName` needs no other condition.

`takeName` is `unique_name` with the condition that its callers pass on: `Barred.rejects` says what
a name must not be.
-/

set_option autoImplicit false

namespace ControllerTypes.Name

open Text

/-- What a new name has to keep clear of, beside the names given before. -/
inductive Barred where
  | nothing
  /-- The names no type may have. -/
  | types
  /-- The names no kind may have, and those whose file is in the list. -/
  | kinds (files : List String)

namespace Barred

/-- The name is barred. -/
def bars : Barred → String → Bool
  | nothing, _ => false
  | types, s => isReserved s
  | kinds files, s => isReservedKind s || files.contains (kindFile s)

/-- The name is barred or was given before. -/
def rejects (b : Barred) (taken : List String) (s : String) : Bool := taken.contains s || b.bars s

/-! ### Numbering ends -/

/-- The most digits that a name of the list has. -/
def mostDigits (names : List String) : Nat :=
  names.foldr (fun s m => max (digitCount s) m) 0

/-- No name of the list has more digits than `mostDigits`. -/
theorem digitCount_le_mostDigits {names : List String} {s : String} (h : s ∈ names) :
    digitCount s ≤ mostDigits names := by
  induction names with
  | nil => simp at h
  | cons a rest ih =>
    rw [mostDigits, List.foldr_cons]
    rcases List.mem_cons.1 h with rfl | h
    · exact Nat.le_max_left _ _
    · exact Nat.le_trans (ih h) (Nat.le_max_right _ _)

/-- All names that a name is compared with. -/
def compared (taken : List String) : Barred → List String
  | nothing => taken
  | types => taken ++ (goWords ++ importedTypes)
  | kinds files => taken ++ (goWords ++ importedTypes ++ (sharedFiles ++ files))

/-- A name with more digits than all of the list is not in it, nor is what `f` makes of it, as long
as `f` keeps its digits. -/
theorem contains_eq_false {names all : List String} {s : String} (f : String → String)
    (keeps : digitCount (f s) = digitCount s) (hsub : ∀ t ∈ names, t ∈ all)
    (h : mostDigits all < digitCount s) : names.contains (f s) = false := by
  cases hc : names.contains (f s) with
  | false => rfl
  | true =>
    -- If it were in the list, its digits would be counted there.
    have := digitCount_le_mostDigits (hsub _ (List.contains_iff_mem.1 hc))
    omega

/-- A name with more digits than all reserved words is not reserved, in any mixture of capitals and
small letters. -/
theorem isReserved_eq_false {all : List String} {s : String}
    (hsub : ∀ t ∈ goWords ++ importedTypes, t ∈ all) (h : mostDigits all < digitCount s) :
    isReserved s = false := by
  have hword : goWords.contains (asciiLower s) = false :=
    contains_eq_false asciiLower (digitCount_asciiLower s)
      (fun t ht => hsub t (List.mem_append_left _ ht)) h
  have htype : importedTypes.contains s = false :=
    contains_eq_false id rfl (fun t ht => hsub t (List.mem_append_right _ ht)) h
  rw [isReserved, hword, htype]
  rfl

/-- A name with more digits than all that it is `compared` with is free: neither taken nor barred.
-/
theorem rejects_eq_false (b : Barred) (taken : List String) {s : String}
    (h : mostDigits (b.compared taken) < digitCount s) : b.rejects taken s = false := by
  have htaken : taken.contains s = false :=
    contains_eq_false id rfl (fun t ht => by cases b <;> simp [compared, ht]) h
  rw [rejects, htaken, Bool.false_or]
  -- What a name is compared with depends on what it is for: only a kind has a file that may clash.
  cases b with
  | nothing => rfl
  | types => exact isReserved_eq_false (fun t ht => List.mem_append_right _ ht) h
  | kinds files =>
    have hfile := digitCount_kindFile s
    rw [bars, isReservedKind,
      isReserved_eq_false (fun t ht => List.mem_append_right _ (List.mem_append_left _ ht)) h,
      contains_eq_false kindFile hfile
        (fun t ht => List.mem_append_right _ (List.mem_append_right _ (List.mem_append_left _ ht)))
        h,
      contains_eq_false kindFile hfile
        (fun t ht => List.mem_append_right _
          (List.mem_append_right _ (List.mem_append_right _ ht))) h]
    rfl

/-- A number has as many digits as its text in base ten. -/
theorem digitCount_repr (n : Nat) : digitCount n.repr = (Nat.toDigits 10 n).length := by
  rw [digitCount, Nat.toList_repr, digits, List.countP_eq_length]
  intro c hc
  -- Both notions of a digit are ranges of codes.
  have := Nat.isDigit_of_mem_toDigits (by decide) (by decide) hc
  simpa [Char.isDigit, isAsciiDigit, Char.le_def, UInt32.le_iff_toNat_le] using this

/-- A name with the number `10 ^ m` behind it has more than `m` digits, whatever the base is. -/
theorem lt_digitCount_numbered (base : String) (m : Nat) :
    m < digitCount (numbered base (Nat.pow 10 m)) := by
  rw [numbered, digitCount, String.toList_append, digits_append]
  have hlen : m < (Nat.toDigits 10 (Nat.pow 10 m)).length := by
    -- The library's bound on the digits of a number asks for a length above zero.
    rcases Nat.eq_zero_or_pos m with rfl | hpos
    · exact Nat.length_toDigits_pos
    · apply Nat.lt_of_not_le
      rw [Nat.length_toDigits_le_iff (by decide) hpos]
      exact Nat.lt_irrefl _
  have := digitCount_repr (Nat.pow 10 m)
  rw [digitCount] at this
  omega

/-- With a long enough number behind it every name is free. So a search for one ends, and needs no
limit. -/
theorem someFree (b : Barred) (taken : List String) (base : String) :
    SomeFree (b.rejects taken) base :=
  ⟨Nat.pow 10 (mostDigits (b.compared taken)), Nat.pow_pos (by decide),
    b.rejects_eq_false taken (lt_digitCount_numbered base _)⟩

end Barred

/-- A name that is neither taken nor barred, found from `base`. -/
def freshName (base : String) (taken : List String) (barred : Barred) : String :=
  freeName (barred.rejects taken) base (barred.someFree taken base)

/-- A fresh name is neither taken nor barred. -/
theorem rejects_freshName (base : String) (taken : List String) (barred : Barred) :
    barred.rejects taken (freshName base taken barred) = false :=
  free_freeName _ _ _

/-- The fresh name found from `base`, and the taken names with it. -/
def takeName (base : String) (taken : List String) (barred : Barred) : String × List String :=
  let name := freshName base taken barred
  (name, name :: taken)

end ControllerTypes.Name
