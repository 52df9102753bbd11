import ControllerTypes.Proofs.Name.Snake
import ControllerTypes.Proofs.Name.Taken
import Mathlib

/-!
# `ControllerTypes.Proofs.Name.Search`: the search for a free name

`takeName` is only asked for names that are known to exist, so the question when its search ends does
not come up. Here it does. `Refusal.search` tries one number after the other with nothing that stops
it, and an answer of `none` stands for a search that goes on for ever. It answers the first number
that does (`search_eq_some_iff`), so it ends as soon as there is one. `takeName?` is `takeName` with
this search, for any reserved names at all (`takeName?_eq_some_iff`).

For the kinds of resources the search always ends, and the two are the same (`takeName?_barred`). What
speaks for it is that a number behind a kind is found again in the name of its file, so that no two
numbers lead to one file (`kindFile_numbered_injective`).
-/

set_option autoImplicit false

namespace ControllerTypes.Name

open Text

/-! ### A search without a limit -/

/-- Which names a search passes over. -/
abbrev Refusal := String → Bool

/-- The first number from `n` on that makes the name free. -/
def Refusal.search (bars : Refusal) (base : String) (n : Nat) : Option Nat :=
  if bars (numbered base n) then bars |>.search base (n + 1) else some n
partial_fixpoint

/-- The name was not given before and is not reserved. -/
def Free (taken : List String) (reserved : String → Bool) (name : String) : Prop :=
  name ∉ taken ∧ reserved name = false

/-- The name was given before or is reserved. -/
def refuses (taken : List String) (reserved : String → Bool) : Refusal := fun name =>
  taken.contains name || reserved name

/-- The base if it is free, and else the base with the first number that makes it free. The name is
put to the taken ones. -/
def takeName? (base : String) (taken : List String) (reserved : String → Bool) :
    Option (String × List String) :=
  match refuses taken reserved base with
  | false => some (base, base :: taken)
  | true =>
    ((refuses taken reserved).search base 1).map fun n =>
      (numbered base n, numbered base n :: taken)

/-- The search from `n` on ends with `k` if that is the first number which makes the name free. -/
theorem search_eq_some_iff {bars : Refusal} {base : String} {n k : Nat} :
    bars.search base n = some k ↔
      n ≤ k ∧ bars (numbered base k) = false ∧
        ∀ j, n ≤ j → j < k → bars (numbered base j) = true := by
  constructor
  · -- A search that ends went through finitely many steps, so what each step keeps is true of the
    -- answer.
    refine Refusal.search.partial_correctness bars base (motive := fun n k => n ≤ k ∧
      bars (numbered base k) = false ∧ ∀ j, n ≤ j → j < k → bars (numbered base j) = true) ?_ n k
    intro search ih n k h
    split at h
    · next hbars =>
      obtain ⟨hle, hfree, hbefore⟩ := ih _ _ h
      refine ⟨by omega, hfree, fun j hj hlt => ?_⟩
      rcases Nat.eq_or_lt_of_le hj with rfl | hj
      · exact hbars
      · exact hbefore j hj hlt
    · next hbars =>
      cases h
      exact ⟨Nat.le_refl n, by simpa using hbars, fun j hj hlt => by omega⟩
  · rintro ⟨hle, hfree, hbefore⟩
    -- The other way round the number of steps is known, and the induction is on it.
    obtain ⟨steps, rfl⟩ := Nat.exists_eq_add_of_le hle
    induction steps generalizing n with
    | zero => rw [Refusal.search, if_neg (by simpa using hfree), Nat.add_zero]
    | succ steps ih =>
      rw [Refusal.search, if_pos (hbefore n (Nat.le_refl n) (by omega))]
      rw [← Nat.add_assoc, Nat.add_right_comm] at hfree hbefore ⊢
      exact ih (by omega) hfree fun j hj hlt => hbefore j (by omega) hlt

section
variable {base : String} {taken : List String} {reserved : String → Bool}

/-- What the search asks is whether the name is `Free`. -/
theorem refuses_eq_false_iff {name : String} :
    refuses taken reserved name = false ↔ Free taken reserved name := by
  rw [refuses, Bool.or_eq_false_iff, Free, ← Bool.not_eq_true, List.contains_iff_mem]

/-- The name that is taken is the first attempt that is free, and it is all that is put to the
`taken` names. -/
theorem takeName?_eq_some_iff {name : String} {taken' : List String} :
    takeName? base taken reserved = some (name, taken') ↔
      taken' = name :: taken ∧ ∃ k, name = attempt base k ∧
        refuses taken reserved (attempt base k) = false ∧
        ∀ j < k, refuses taken reserved (attempt base j) = true := by
  unfold takeName?
  constructor
  · intro h
    split at h
    · next hbase =>
      cases h
      exact ⟨rfl, 0, rfl, hbase, by simp⟩
    · next hbase =>
      obtain ⟨n, hn, heq⟩ := Option.map_eq_some_iff.1 h
      cases heq
      obtain ⟨hle, hfree, hbefore⟩ := search_eq_some_iff.1 hn
      obtain ⟨k, rfl⟩ := Nat.exists_eq_add_of_le' hle
      -- The attempts are numbered from zero, which is the base, and the search begins at one.
      refine ⟨rfl, k + 1, rfl, hfree, fun j hj => ?_⟩
      cases j with
      | zero => exact hbase
      | succ j => exact hbefore (j + 1) (by omega) hj
  · rintro ⟨rfl, k, rfl, hfree, hbefore⟩
    cases k with
    | zero =>
      rw [attempt] at hfree ⊢
      rw [hfree]
    | succ k =>
      -- The search passes all numbers below `k + 1`, since all of these attempts are refused.
      have hsearch : (refuses taken reserved).search base 1 = some (k + 1) := by
        refine search_eq_some_iff.2 ⟨by omega, hfree, fun j hj hlt => ?_⟩
        obtain ⟨i, rfl⟩ := Nat.exists_eq_add_of_le' hj
        exact hbefore (i + 1) hlt
      have hbase : refuses taken reserved base = true := hbefore 0 (by omega)
      rw [hbase, hsearch]
      rfl

/-- The search ends if and only if some attempt is free. Without one it goes on for ever, which is
an answer of `none` here. -/
theorem isSome_takeName?_iff :
    (takeName? base taken reserved).isSome = true ↔
      ∃ k, refuses taken reserved (attempt base k) = false := by
  rw [Option.isSome_iff_exists]
  constructor
  · rintro ⟨⟨name, taken'⟩, h⟩
    obtain ⟨-, k, -, hfree, -⟩ := takeName?_eq_some_iff.1 h
    exact ⟨k, hfree⟩
  · intro h
    -- If some attempt is free then there is a first one.
    refine ⟨_, takeName?_eq_some_iff.2 ⟨rfl, Nat.find h, rfl, Nat.find_spec h, fun j hj => ?_⟩⟩
    simpa using Nat.find_min h hj

end

/-! ### Kinds and their files -/

/-- The name that is found for a type, a field or a kind is the one that the search ends with:
`takeName` has no limit that the search does not have. -/
theorem takeName?_barred (base : String) (taken : List String) (barred : Barred) :
    takeName? base taken barred.bars = some (takeName base taken barred) := by
  obtain ⟨k, hname, hfree, hbefore⟩ := takeName_spec base taken barred
  exact takeName?_eq_some_iff.2 ⟨takeName_snd base taken barred, k, hname, hfree, hbefore⟩

/-- The number behind a kind stands in front of the ending of its file, digit by digit. -/
theorem toList_kindFile_numbered (base : String) (n : Nat) :
    (kindFile (numbered base n)).toList =
      (Snake.squeeze (Snake.mark none base.toList)).dropWhile (· == '_') ++ n.repr.toList ++
        ".go".toList := by
  have hne : n.repr.toList ≠ [] := by
    rw [Nat.toList_repr]
    exact Nat.toDigits_ne_nil
  rw [kindFile, snakeCase, numbered, String.toList_append, String.toList_ofList,
    String.toList_append, snakeChars_append_digits hne fun _ => isAsciiDigit_of_mem_repr]

/-- Different numbers behind a kind lead to different files, since each of them can be read off its
file. -/
theorem kindFile_numbered_injective (base : String) :
    Function.Injective fun n => kindFile (numbered base n) := by
  intro m n h
  have hlist := congrArg String.toList h
  simp only [toList_kindFile_numbered] at hlist
  -- Both files have the same characters around the number.
  exact Nat.repr_inj.1 (String.toList_inj.1
    (List.append_cancel_left (List.append_cancel_right hlist)))

/-- The search for a name ends if and only if some attempt is free. It takes the first one, which is
the base itself or the base with the least number from 1 on, and that name was not taken before. For
kinds there always is such an attempt, whatever names are taken and whatever files there are: no two
numbers behind a kind lead to the same file. -/
theorem first_free_taken :
    (∀ (base : String) (taken : List String) (reserved : String → Bool),
      ((takeName? base taken reserved).isSome = true ↔
        ∃ k, Free taken reserved (attempt base k)) ∧
      ∀ name taken', takeName? base taken reserved = some (name, taken') →
        taken' = name :: taken ∧ ∃ k, name = attempt base k ∧ Free taken reserved name ∧
          ∀ j < k, ¬Free taken reserved (attempt base j)) ∧
    ∀ (definition lead : String) (taken files : List String),
      (Function.Injective fun n => kindFile (numbered (goIdentifier definition lead) n)) ∧
      (∃ k, Free taken (fun kind => isReservedKind kind || files.contains (kindFile kind))
        (attempt (goIdentifier definition lead) k)) ∧
      takeName? (goIdentifier definition lead) taken
          (fun kind => isReservedKind kind || files.contains (kindFile kind)) =
        some (takeName (goIdentifier definition lead) taken (.kinds files)) := by
  -- The first half is about any search; in the second one the search of `takeName` supplies an
  -- attempt that is free.
  refine ⟨fun base taken reserved => ⟨?_, fun name taken' h => ?_⟩,
    fun definition lead taken files => ⟨kindFile_numbered_injective _, ?_,
      takeName?_barred (goIdentifier definition lead) taken (.kinds files)⟩⟩
  · simp only [isSome_takeName?_iff, refuses_eq_false_iff]
  · obtain ⟨htaken, k, rfl, hfree, hbefore⟩ := takeName?_eq_some_iff.1 h
    refine ⟨htaken, k, rfl, refuses_eq_false_iff.1 hfree, fun j hj hfree' => ?_⟩
    exact Bool.false_ne_true ((refuses_eq_false_iff.2 hfree').symm.trans (hbefore j hj))
  · obtain ⟨k, -, hfree, -⟩ := takeName_spec (goIdentifier definition lead) taken (.kinds files)
    exact ⟨k, refuses_eq_false_iff.1 hfree⟩

end ControllerTypes.Name
