import ControllerTypes.Name.Barred

/-!
# `ControllerTypes.Proofs.Name.Taken`: what a fresh name is good for

`takeName` answers a name together with the names that are taken from then on. Callers need three
things of it: the name was not taken (`takeName_fst_not_mem`), it is not barred
(`bars_takeName_fst`), and taking it adds this one name (`takeName_snd`).

Which name it is depends on the taken names as far as they are among the `attempt`s, which are the
base itself and the base with a number behind it. The first attempt that is not rejected is the
answer (`takeName_fst_eq`), so other names may be taken or not (`takeName_congr`).
-/

set_option autoImplicit false

namespace ControllerTypes.Name

/-- The name that is found goes in front of the `taken` ones. -/
@[simp] theorem takeName_snd (base : String) (taken : List String) (barred : Barred) :
    (takeName base taken barred).2 = (takeName base taken barred).1 :: taken :=
  rfl

/-- The name that is found was not taken before. -/
theorem takeName_fst_not_mem (base : String) (taken : List String) (barred : Barred) :
    (takeName base taken barred).1 ∉ taken := by
  have h : barred.rejects taken (takeName base taken barred).1 = false :=
    rejects_freshName base taken barred
  rw [Barred.rejects, Bool.or_eq_false_iff] at h
  intro hmem
  exact absurd (List.contains_iff_mem.2 hmem) (by rw [h.1]; exact Bool.false_ne_true)

/-- The name that is found is not barred, in the sense of `Barred.bars`. -/
theorem bars_takeName_fst (base : String) (taken : List String) (barred : Barred) :
    barred.bars (takeName base taken barred).1 = false := by
  have h : barred.rejects taken (takeName base taken barred).1 = false :=
    rejects_freshName base taken barred
  rw [Barred.rejects, Bool.or_eq_false_iff] at h
  exact h.2

/-! ### Attempts -/

/-- The names that are tried one after the other. -/
def attempt (base : String) : Nat → String
  | 0 => base
  | k + 1 => numbered base (k + 1)

/-- The name is one of those that are tried. -/
def Tried (base name : String) : Prop := ∃ k, name = attempt base k

/-- Every name that is tried starts with the base. -/
theorem Tried.starts {base name : String} (h : Tried base name) :
    base.toList <+: name.toList := by
  obtain ⟨k, rfl⟩ := h
  cases k with
  | zero => exact List.prefix_rfl
  | succ k =>
    rw [attempt, numbered, String.toList_append]
    exact List.prefix_append _ _

/-- The free name is the first attempt that is not barred. `h` is what `freeName` needs to end;
nothing here depends on which number it speaks of. -/
theorem freeName_spec (bars : String → Bool) (base : String) (h : SomeFree bars base) :
    ∃ k, freeName bars base h = attempt base k ∧ bars (attempt base k) = false ∧
      ∀ j < k, bars (attempt base j) = true := by
  have hfree := free_freeName bars base h
  unfold freeName at hfree ⊢
  split at hfree
  · next hbase => exact ⟨0, rfl, hfree, by simp⟩
  · next hbase =>
    have hone : 1 ≤ firstFree bars base h 1 h.choose_spec.1 := le_firstFree
    -- All that is used of the search is its number.
    generalize hk : firstFree bars base h 1 h.choose_spec.1 = k at hfree hone ⊢
    obtain ⟨k, rfl⟩ : ∃ j, k = j + 1 := ⟨k - 1, by omega⟩
    refine ⟨k + 1, rfl, hfree, fun j hj => ?_⟩
    cases j with
    | zero => exact hbase
    | succ j => exact barred_of_lt_firstFree (by omega) (hk ▸ hj)

variable {base : String} {taken taken' : List String} {barred : Barred}

/-- The fresh name is the first attempt that is not rejected. -/
theorem takeName_spec (base : String) (taken : List String) (barred : Barred) :
    ∃ k, (takeName base taken barred).1 = attempt base k ∧
      barred.rejects taken (attempt base k) = false ∧
      ∀ j < k, barred.rejects taken (attempt base j) = true :=
  freeName_spec _ _ _

/-- The fresh name is one that was tried. -/
theorem tried_takeName (base : String) (taken : List String) (barred : Barred) :
    Tried base (takeName base taken barred).1 := by
  obtain ⟨k, hk, _⟩ := takeName_spec base taken barred
  exact ⟨k, hk⟩

/-- An attempt that is not rejected, while all before it are, is the fresh name. -/
theorem takeName_fst_eq {k : Nat} (hfree : barred.rejects taken (attempt base k) = false)
    (hbefore : ∀ j < k, barred.rejects taken (attempt base j) = true) :
    (takeName base taken barred).1 = attempt base k := by
  obtain ⟨i, hi, hfree', hbefore'⟩ := takeName_spec base taken barred
  -- Two first attempts that are not rejected cannot be at different places.
  rcases Nat.lt_trichotomy i k with hlt | rfl | hlt
  · rw [hbefore i hlt] at hfree'
    cases hfree'
  · exact hi
  · rw [hbefore' k hlt] at hfree
    cases hfree

/-- Names that are not `Tried` may be taken or not: only those that the search looks at can change
what it finds. -/
theorem takeName_congr (h : ∀ s, Tried base s → (s ∈ taken ↔ s ∈ taken')) :
    (takeName base taken barred).1 = (takeName base taken' barred).1 := by
  have hrejects (k : Nat) :
      barred.rejects taken (attempt base k) = barred.rejects taken' (attempt base k) := by
    have hmem := h _ ⟨k, rfl⟩
    rw [← List.contains_iff_mem, ← List.contains_iff_mem] at hmem
    rw [Barred.rejects, Barred.rejects, Bool.eq_iff_iff.2 hmem]
  -- What is rejected is the same on both sides, so the first attempt that is not is the same as
  -- well.
  obtain ⟨k, hk, hfree, hbefore⟩ := takeName_spec base taken' barred
  rw [hk]
  exact takeName_fst_eq (hrejects k ▸ hfree) fun j hj => hrejects j ▸ hbefore j hj

/-- The name that is fresh when nothing is taken is fresh as long as it is not taken itself: the
attempts before it are barred, and stay so. -/
theorem takeName_eq_of_not_mem (h : (takeName base [] barred).1 ∉ taken) :
    (takeName base taken barred).1 = (takeName base [] barred).1 := by
  obtain ⟨k, hk, hfree, hbefore⟩ := takeName_spec base [] barred
  rw [hk] at h ⊢
  -- With nothing taken a name can only be rejected because it is barred.
  have hbars (j : Nat) (hj : barred.rejects [] (attempt base j) = true) :
      barred.rejects taken (attempt base j) = true := by
    rw [Barred.rejects, List.contains_nil, Bool.false_or] at hj
    rw [Barred.rejects, hj, Bool.or_true]
  refine takeName_fst_eq ?_ fun j hj => hbars j (hbefore j hj)
  rw [Barred.rejects, List.contains_nil, Bool.false_or] at hfree
  rw [Barred.rejects, hfree, Bool.or_false, ← Bool.not_eq_true, List.contains_iff_mem]
  exact h

end ControllerTypes.Name
