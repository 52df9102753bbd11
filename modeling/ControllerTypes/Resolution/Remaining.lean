import ControllerTypes.Named

/-!
# `ControllerTypes.Resolution.Remaining`: names a walk has not entered yet

Walks over definitions that refer to each other never enter a name they are already inside of. What
ends them is the number of names left: `remaining names entered` counts the entries of `names` that
are not in `entered`, and entering one more makes it smaller (`remaining_cons_lt`), while entering
anything at all never makes it larger (`remaining_cons_le`).
-/

set_option autoImplicit false

namespace ControllerTypes

/-- How many of the names have not been entered. -/
def remaining (names entered : List String) : Nat :=
  names.countP fun n => !entered.contains n

/-- Entering a name leaves no more names than before, whether it was one of `names` or not. -/
theorem remaining_cons_le (names entered : List String) (name : String) :
    remaining names (name :: entered) ≤ remaining names entered := by
  apply List.countP_mono_left
  intro n _ h
  simp only [List.contains_cons, Bool.not_or, Bool.and_eq_true] at h
  exact h.2

/-- Entering a name that was left leaves fewer names, and that is `hmem` and `hnew` together. -/
theorem remaining_cons_lt {names entered : List String} {name : String} (hmem : name ∈ names)
    (hnew : name ∉ entered) : remaining names (name :: entered) < remaining names entered := by
  induction names with
  | nil => simp at hmem
  | cons n rest ih =>
    have hle := remaining_cons_le rest entered name
    simp only [remaining, List.countP_cons] at hle ih ⊢
    -- The first name is the one that is entered, and then it no longer counts, or it counts as
    -- before.
    by_cases hn : n = name
    · subst hn
      have h1 : (!(n :: entered).contains n) = false := by simp
      have h2 : (!entered.contains n) = true := by simpa using hnew
      simp only [h1, h2]
      simpa using Nat.lt_succ_of_le hle
    · have hrest : name ∈ rest := by
        rcases List.mem_cons.1 hmem with h | h
        · exact absurd h.symm hn
        · exact h
      have hsame : (!(name :: entered).contains n) = (!entered.contains n) := by
        simp [hn]
      rw [hsame]
      exact Nat.add_lt_add_right (ih hrest) _

end ControllerTypes
