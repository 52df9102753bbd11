import ControllerTypes.Proofs.Resolution.Closed
import ControllerTypes.Proofs.Resolution.Lockstep

/-!
# `ControllerTypes.Proofs.Resolution.Reordered`: resolving definitions in another order

What can be read off a catalog by looking names up does not depend on the order of its entries:
which schema a definition stands for (`target?_congr`), and whether the search for cycles finds one
(`checkAliasCycles_congr`). So a description with the same definitions in another order is resolved
as well and to the same catalog, if the definitions that change their places lead to steady ones
only (`exists_resolveAll`).
-/

set_option autoImplicit false

namespace ControllerTypes.Resolution

open Document Named Relation Run

/-- The search goes from a name it has not seen, by `hseen`, on to what stands there. -/
theorem chase_reference {catalog : Catalog} {start target : String} {seen : List String}
    {next : Schema} (hseen : target ∉ seen) (hnext : catalog.get? target = some next) :
    chase catalog start seen (.reference target) =
      if next.isNamed then .ok () else chase catalog start (target :: seen) next := by
  rw [chase, dif_neg hseen]
  split
  · next hnone => exact absurd (hnext.symm.trans hnone) (by simp)
  · next next' hnext' =>
    cases hnext.symm.trans hnext'
    rfl

section
variable {catalog catalog' : Catalog} (h : ∀ d, catalog.get? d = catalog'.get? d)
include h

/-- The number of definitions does not depend on their order. -/
theorem size_congr : catalog.size = catalog'.size :=
  (Table.perm_of_get?_eq h).length_eq

/-- Nor do their names. -/
theorem mem_names_congr (d : String) : d ∈ catalog.names ↔ d ∈ catalog'.names := by
  rw [Table.mem_names_iff, Table.mem_names_iff, h]

/-- A definition stands for the same schema in both catalogs. -/
theorem target?_congr (d : String) : catalog.target? d = catalog'.target? d := by
  -- Following references only looks names up, and the number of steps is the same.
  have hfollow (steps : Nat) (schema : Schema) :
      catalog.follow steps schema = catalog'.follow steps schema := by
    induction steps generalizing schema with
    | zero => rfl
    | succ steps ih =>
      cases schema with
      | reference next =>
        rw [Catalog.follow, Catalog.follow, h next]
        exact Option.bind_congr fun schema _ => ih schema
      | _ => rfl
  rw [Catalog.target?, Catalog.target?, h d, size_congr h]
  exact Option.bind_congr fun schema _ => hfollow _ schema

/-- The search for cycles goes the same way in both catalogs. -/
theorem chase_congr (start : String) (seen : List String) (schema : Schema) :
    chase catalog start seen schema = chase catalog' start seen schema := by
  fun_induction chase catalog start seen schema with
  | case1 seen target hseen => rw [chase, dif_pos hseen]
  | case2 seen target hseen hnone =>
    rw [chase, dif_neg hseen]
    split
    · rfl
    · next hnext => exact absurd ((h target).symm.trans hnone) (by rw [hnext]; simp)
  | case3 seen target hseen next hnext hnamed =>
    rw [chase_reference hseen ((h target).symm.trans hnext), if_pos hnamed]
  | case4 seen target hseen next hnext hnamed ih =>
    rw [chase_reference hseen ((h target).symm.trans hnext), if_neg hnamed, ih]
  | case5 seen schema hother =>
    rw [chase]
    exact hother

/-- The search from every definition finds a cycle in both catalogs or in neither, though not the
same one first. -/
theorem checkAliasCycles_congr :
    checkAliasCycles catalog = .ok () ↔ checkAliasCycles catalog' = .ok () := by
  rw [checkAliasCycles, checkAliasCycles, forM_eq_ok_iff, forM_eq_ok_iff]
  refine forall_congr' fun entry => ?_
  obtain ⟨name, schema⟩ := entry
  rw [(Table.perm_of_get?_eq h).mem_iff]
  simp only [chase_congr h]

end

/-- The order of its definitions does not matter to a `Steady` definition. -/
theorem steady_congr {defs defs' : Definitions} (hsame : ∀ n, defs.get? n = defs'.get? n)
    {d : String} (h : Steady defs d) : Steady defs' d := by
  intro raw n hraw hmentions hback
  rw [refers_congr hsame] at hback
  rw [← hsame n]
  exact h raw n ((hsame d).trans hraw) hmentions hback

open Classical in
/-- A description that is resolved is resolved with its definitions in another order, too, and to
the same schemas, if those that change their places lead to steady ones only. -/
theorem exists_resolveAll {defs defs' : Definitions} {catalog : Catalog} {U : String → Prop}
    (h : resolveAll defs = .ok catalog) (hsame : ∀ n, defs.get? n = defs'.get? n)
    (hU : Sealed defs U) (hsteady : ∀ d, U d → Steady defs d)
    (horder : defs.names.filter (fun n => ¬ U n) = defs'.names.filter fun n => ¬ U n) :
    ∃ catalog', resolveAll defs' = .ok catalog' ∧ ∀ d, catalog.get? d = catalog'.get? d := by
  obtain ⟨hwork, hcheck⟩ := resolveAll_eq_ok_iff.1 h
  have hcomplete := exists_workedOut_iff.1 ⟨catalog, hwork⟩
  -- Whether definitions are worked out does not depend on their order.
  obtain ⟨catalog', hwork'⟩ := exists_workedOut_iff.2 fun d raw hraw =>
    complete_congr hsame (hcomplete d raw ((hsame d).trans hraw))
  have hagree := hwork.agree_of_order hwork' hsame hU hsteady horder
  exact ⟨catalog', resolveAll_eq_ok_iff.2 ⟨hwork', (checkAliasCycles_congr hagree).1 hcheck⟩,
    hagree⟩

end ControllerTypes.Resolution
