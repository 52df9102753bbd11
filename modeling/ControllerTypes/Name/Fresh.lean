/-!
# `ControllerTypes.Name.Fresh`: the first name that is free

When a name is not free, the first free one of `name1`, `name2`, … stands in for it. The search has
no limit of its own. All it asks for is that some number makes the name free; which one does is never
looked at.

* `free_firstFree`, `le_firstFree`, `barred_of_lt_firstFree`: the search answers the least number
  that makes the name free.
* `free_freeName`: the answer is free.

`freeName` is the loop of `unique_name`.
-/

set_option autoImplicit false

namespace ControllerTypes.Name

/-- The name with a number behind it. -/
def numbered (base : String) (n : Nat) : String := base ++ n.repr

/-- Some number from 1 on makes the name free. -/
def SomeFree (bars : String → Bool) (base : String) : Prop :=
  ∃ k, 1 ≤ k ∧ bars (numbered base k) = false

/-- The first number at or after `n` that makes the name free. -/
def firstFree (bars : String → Bool) (base : String) (h : SomeFree bars base) (n : Nat)
    (hn : n ≤ h.choose) : Nat :=
  if hb : bars (numbered base n) = false then n
  else
    -- The number that is known to do is still ahead, since this one does not.
    have hne : n ≠ h.choose := fun e => hb (e ▸ h.choose_spec.2)
    firstFree bars base h (n + 1) (Nat.lt_of_le_of_ne hn hne)
termination_by h.choose - n

section
variable {bars : String → Bool} {base : String} {h : SomeFree bars base} {n : Nat}
  {hn : n ≤ h.choose}

/-- The number that the search answers makes the name free. -/
theorem free_firstFree : bars (numbered base (firstFree bars base h n hn)) = false := by
  -- The search stops where the name is free, and everything else is the search from the next
  -- number.
  fun_induction firstFree bars base h n hn with
  | case1 n hn hb => exact hb
  | case2 n hn hb _ ih => exact ih

/-- The number that the search answers is none of those before `n`, where it began. -/
theorem le_firstFree : n ≤ firstFree bars base h n hn := by
  fun_induction firstFree bars base h n hn with
  | case1 n hn hb => exact Nat.le_refl n
  | case2 n hn hb _ ih => omega

/-- Every number from `n` on that the search has passed leaves the name barred, so it answers the
least one that does not. -/
theorem barred_of_lt_firstFree {j : Nat} (hj : n ≤ j)
    (hlt : j < firstFree bars base h n hn) : bars (numbered base j) = true := by
  fun_induction firstFree bars base h n hn with
  | case1 n hn hb => omega
  | case2 n hn hb _ ih =>
    -- The number in question is the one the search is at, or one it still comes to.
    rcases Nat.eq_or_lt_of_le hj with rfl | hlt'
    · simpa using hb
    · exact ih hlt' hlt

end

/-- The name if it is free, and else the name with the least number from 1 on that makes it
free. -/
def freeName (bars : String → Bool) (base : String) (h : SomeFree bars base) : String :=
  match bars base with
  | false => base
  | true => numbered base (firstFree bars base h 1 h.choose_spec.1)

/-- The name that is answered is free, whether it has a number behind it or not. -/
theorem free_freeName (bars : String → Bool) (base : String) (h : SomeFree bars base) :
    bars (freeName bars base h) = false := by
  unfold freeName
  split
  · next hb => exact hb
  · exact free_firstFree

end ControllerTypes.Name
