import ControllerTypes.Name.Barred
import ControllerTypes.Name.Identifier

/-!
# `ControllerTypes.Proofs.Name.Exported`: names that Go exports

`Exported` is the form that the names of kinds and types have: an ASCII capital, and then ASCII
letters and digits. `exported_goIdentifier` makes such a name of any text at all, even of none, as
long as the lead has that form; `exported_takeName` says that a fresh name is as good as the one it
was found from.

`pascalCase` has a capital in front only if it has a letter there, and a text such as `1st` leaves a
digit. This is the one case in which `goIdentifier` needs its lead.
-/

set_option autoImplicit false

namespace ControllerTypes.Name

open Text

/-- The name is an ASCII capital with ASCII letters and digits behind it. -/
def Exported (s : String) : Prop :=
  ∃ c rest, s.toList = c :: rest ∧ isAsciiUpper c = true ∧
    ∀ d ∈ rest, isAsciiAlphanumeric d = true

instance (s : String) : Decidable (Exported s) :=
  match h : s.toList with
  | [] => isFalse fun ⟨_, _, heq, _⟩ => List.cons_ne_nil _ _ (heq.symm.trans h)
  | c :: rest =>
    decidable_of_iff ((isAsciiUpper c && rest.all isAsciiAlphanumeric) = true) <| by
      rw [Bool.and_eq_true, List.all_eq_true, Exported, h]
      constructor
      · rintro ⟨hc, hrest⟩
        exact ⟨c, rest, rfl, hc, hrest⟩
      · rintro ⟨_, _, heq, hc, hrest⟩
        cases heq
        exact ⟨hc, hrest⟩

/-! ### Letters and digits -/

/-- Letters and digits are ASCII, so what is to be shown of all of them can be checked code by code
(`forall_ascii`). -/
theorem toNat_of_isAsciiAlphanumeric {c : Char} (h : isAsciiAlphanumeric c = true) :
    c.toNat < 0x80 := by
  simp only [isAsciiAlphanumeric, isAsciiLetter, isAsciiUpper, isAsciiLower, isAsciiDigit,
    Bool.or_eq_true, Bool.and_eq_true, decide_eq_true_eq] at h
  -- The small letters are the last of the three ranges.
  have hz : c ≤ 'z' := by
    rcases h with (⟨_, h⟩ | ⟨_, h⟩) | ⟨_, h⟩
    · exact Char.le_trans h (by decide)
    · exact h
    · exact Char.le_trans h (by decide)
  exact Nat.lt_of_le_of_lt (Char.le_def.1 hz) (by decide)

/-- A capital is a letter. -/
theorem isAsciiAlphanumeric_of_isAsciiUpper {c : Char} (h : isAsciiUpper c = true) :
    isAsciiAlphanumeric c = true := by
  rw [isAsciiAlphanumeric, isAsciiLetter, h, Bool.true_or, Bool.true_or]

/-- What holds of all ASCII codes holds of the characters: `h` is a statement that can be decided.
-/
theorem forall_ascii {P : Char → Prop} (h : ∀ n < 0x80, P (Char.ofNat n)) {c : Char}
    (hc : c.toNat < 0x80) : P c := by
  have hcode := h c.toNat hc
  rwa [Char.ofNat_toNat] at hcode

/-- The capital of a letter or digit is one as well. -/
theorem isAsciiAlphanumeric_toAsciiUpper {c : Char} (h : isAsciiAlphanumeric c = true) :
    isAsciiAlphanumeric (toAsciiUpper c) = true :=
  forall_ascii (P := fun c => isAsciiAlphanumeric c = true →
    isAsciiAlphanumeric (toAsciiUpper c) = true) (by decide) (toNat_of_isAsciiAlphanumeric h) h

/-- A letter that was made a capital is one. -/
theorem isAsciiUpper_toAsciiUpper {c : Char} (h : isAsciiAlphanumeric c = true)
    (hletter : isAsciiLetter (toAsciiUpper c) = true) : isAsciiUpper (toAsciiUpper c) = true :=
  forall_ascii (P := fun c => isAsciiLetter (toAsciiUpper c) = true →
    isAsciiUpper (toAsciiUpper c) = true) (by decide) (toNat_of_isAsciiAlphanumeric h) hletter

/-- Only letters and digits are left of a name, whether or not a word begins at its front. -/
theorem isAsciiAlphanumeric_of_mem_pascalFrom {cs : List Char} {atStart : Bool} {d : Char}
    (h : d ∈ pascalFrom atStart cs) : isAsciiAlphanumeric d = true := by
  -- Whether a word begins changes from one character to the next.
  induction cs generalizing atStart with
  | nil => exact absurd h List.not_mem_nil
  | cons c rest ih =>
    unfold pascalFrom at h
    split at h
    · next hc =>
      rcases List.mem_cons.1 h with rfl | h
      · split
        · exact isAsciiAlphanumeric_toAsciiUpper hc
        · exact hc
      · exact ih h
    · exact ih h

/-- The same for the name as a text: `pascalCase` consists of ASCII letters and digits. -/
theorem isAsciiAlphanumeric_of_mem_pascalCase {s : String} {d : Char}
    (h : d ∈ (pascalCase s).toList) : isAsciiAlphanumeric d = true := by
  rw [pascalCase, String.toList_ofList] at h
  exact isAsciiAlphanumeric_of_mem_pascalFrom h

/-- If a letter stands in front of what is left, it is a capital: the first character that is kept
begins a word. -/
theorem isAsciiUpper_of_head?_pascalFrom {cs : List Char} {c : Char}
    (h : (pascalFrom true cs).head? = some c) (hletter : isAsciiLetter c = true) :
    isAsciiUpper c = true := by
  induction cs with
  | nil => cases h
  | cons first rest ih =>
    unfold pascalFrom at h
    split at h
    · next hfirst =>
      cases h
      exact isAsciiUpper_toAsciiUpper hfirst hletter
    · -- A character that is dropped leaves the next one at the beginning of a word.
      exact ih h

/-! ### Exported names -/

/-- An exported name has letters and digits only. -/
theorem Exported.alphanumeric {s : String} (h : Exported s) :
    ∀ c ∈ s.toList, isAsciiAlphanumeric c = true := by
  obtain ⟨c, rest, heq, hc, hrest⟩ := h
  exact heq ▸ List.forall_mem_cons.2 ⟨isAsciiAlphanumeric_of_isAsciiUpper hc, hrest⟩

/-- Letters and digits may be put behind an exported name, such as a number or the name of a field.
-/
theorem Exported.append {s t : String} (hs : Exported s)
    (ht : ∀ d ∈ t.toList, isAsciiAlphanumeric d = true) : Exported (s ++ t) := by
  obtain ⟨c, rest, heq, hc, hrest⟩ := hs
  refine ⟨c, rest ++ t.toList, by rw [String.toList_append, heq, List.cons_append], hc, ?_⟩
  intro d hd
  rcases List.mem_append.1 hd with hd | hd
  · exact hrest d hd
  · exact ht d hd

/-- An identifier is exported if the `lead` in front of it is. It stands in front only where the
name itself does not begin with a letter. -/
theorem exported_goIdentifier (s : String) {lead : String} (h : Exported lead) :
    Exported (goIdentifier s lead) := by
  unfold goIdentifier
  dsimp only
  -- The lead stands in front unless the name begins with a letter.
  split
  · next hletter =>
    obtain ⟨c, hhead, hc⟩ := (Option.any_eq_true _ _).1 hletter
    obtain ⟨rest, hlist⟩ := List.head?_eq_some_iff.1 hhead
    refine ⟨c, rest, hlist, ?_, fun d hd =>
      isAsciiAlphanumeric_of_mem_pascalCase (hlist ▸ List.mem_cons_of_mem c hd)⟩
    rw [pascalCase, String.toList_ofList] at hhead
    exact isAsciiUpper_of_head?_pascalFrom hhead hc
  · exact h.append fun _ => isAsciiAlphanumeric_of_mem_pascalCase

/-- A number consists of digits. -/
theorem isAsciiDigit_of_mem_repr {n : Nat} {d : Char} (h : d ∈ n.repr.toList) :
    isAsciiDigit d = true := by
  have hdigits := Barred.digitCount_repr n
  rw [digitCount, ← Nat.toList_repr, digits, List.countP_eq_length] at hdigits
  exact hdigits d h

/-- The digits of a number are letters or digits, in the form in which `Exported.append` asks for
them. -/
theorem isAsciiAlphanumeric_of_mem_repr {n : Nat} {d : Char} (h : d ∈ n.repr.toList) :
    isAsciiAlphanumeric d = true := by
  rw [isAsciiAlphanumeric, isAsciiDigit_of_mem_repr h, Bool.or_true]

/-- A fresh name is exported if it was found from an exported one, because nothing but a number is
put behind that. -/
theorem exported_takeName {base : String} (h : Exported base) (taken : List String)
    (barred : Barred) : Exported (takeName base taken barred).1 := by
  show Exported (freeName _ base _)
  unfold freeName
  -- The base is free, or it gets a number.
  split
  · exact h
  · exact h.append fun d hd => isAsciiAlphanumeric_of_mem_repr hd

end ControllerTypes.Name
