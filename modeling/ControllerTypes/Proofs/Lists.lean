import Mathlib.Data.List.Forall2

/-!
# `ControllerTypes.Proofs.Lists`: lists that are related item by item

A list that was made from another one item by item has an item for each of the other, and each of
its items is for one (`forall₂_exists_right`, `forall₂_exists_left`). Two lists that were made from
the same one are equal if the items that were made from the same item are (`forall₂_unique`), and
what was made in two steps can be seen as one (`forall₂_comp`). A list without its repetitions has
none (`nodup_eraseDups`), and one more item adds to it if it is new (`eraseDups_snoc`).
-/

set_option autoImplicit false

namespace ControllerTypes

variable {α β : Type} {R S : α → β → Prop} {xs : List α} {ys zs : List β}

/-- Each item on the right has one on the left. -/
theorem forall₂_exists_left (h : List.Forall₂ R xs ys) {y : β} (hy : y ∈ ys) :
    ∃ x ∈ xs, R x y := by
  induction h with
  | nil => cases hy
  | cons hfirst _ ih =>
    -- The item is the first one on the right, or it has one among the rest.
    rcases List.mem_cons.1 hy with rfl | hy
    · exact ⟨_, List.mem_cons_self, hfirst⟩
    · obtain ⟨x, hx, hrel⟩ := ih hy
      exact ⟨x, List.mem_cons_of_mem _ hx, hrel⟩

/-- Each item on the left has one on the right. -/
theorem forall₂_exists_right (h : List.Forall₂ R xs ys) {x : α} (hx : x ∈ xs) :
    ∃ y ∈ ys, R x y := by
  induction h with
  | nil => cases hx
  | cons hfirst _ ih =>
    rcases List.mem_cons.1 hx with rfl | hx
    · exact ⟨_, List.mem_cons_self, hfirst⟩
    · obtain ⟨y, hy, hrel⟩ := ih hx
      exact ⟨y, List.mem_cons_of_mem _ hy, hrel⟩

/-- Lists that are made from one list are equal if that holds item by item. -/
theorem forall₂_unique (h : List.Forall₂ R xs ys) (h' : List.Forall₂ S xs zs)
    (hunique : ∀ x ∈ xs, ∀ y z, R x y → S x z → y = z) : ys = zs := by
  -- On how the first of the two lists was made, item by item.
  induction h generalizing zs with
  | nil =>
    cases h'
    rfl
  | cons hfirst _ ih =>
    cases h' with
    | cons hfirst' hrest' =>
      obtain ⟨hhead, htail⟩ := List.forall_mem_cons.1 hunique
      exact congrArg₂ List.cons (hhead _ _ hfirst hfirst') (ih hrest' htail)

/-- What is related to a list that is related to another one is related to that in two steps. -/
theorem forall₂_comp {γ : Type} {T : β → γ → Prop} {ts : List γ} (h : List.Forall₂ R xs ys)
    (h' : List.Forall₂ T ys ts) : List.Forall₂ (fun x t => ∃ y, R x y ∧ T y t) xs ts := by
  induction h generalizing ts with
  | nil =>
    cases h'
    exact .nil
  | cons hfirst _ ih =>
    cases h' with
    | cons hfirst' hrest' => exact .cons ⟨_, hfirst, hfirst'⟩ (ih hrest')

/-- A list without its repetitions has none. -/
theorem nodup_eraseDups [BEq α] [LawfulBEq α] (xs : List α) : xs.eraseDups.Nodup := by
  -- On the length, since what is left behind an item is a shorter list but not the tail.
  induction hn : xs.length using Nat.strongRecOn generalizing xs with
  | ind n ih =>
    cases xs with
    | nil => exact List.nodup_nil
    | cons x rest =>
      rw [List.eraseDups_cons, List.nodup_cons, List.mem_eraseDups]
      refine ⟨by simp, ih _ ?_ _ rfl⟩
      rw [← hn, List.length_cons]
      exact Nat.lt_succ_of_le (List.length_filter_le _ _)

/-- An item at the end stays there if it is new, and goes if it is a repetition. -/
theorem eraseDups_snoc [BEq α] [LawfulBEq α] (xs : List α) (x : α) :
    (xs ++ [x]).eraseDups = if x ∈ xs then xs.eraseDups else xs.eraseDups ++ [x] := by
  by_cases h : x ∈ xs <;>
    simp [List.eraseDups_append, List.removeAll, List.eraseDups_cons, h]

end ControllerTypes
