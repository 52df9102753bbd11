import ControllerTypes.Named
import Mathlib.Data.List.Nodup

/-!
# `ControllerTypes.Proofs.Named`: looking names up in tables

A table that grows answers as it did before, except under the name that was put in. `get?_insert`
and `get?_insertNew` say so, and `get?_erase` says the same of a name that is taken out.
`get?_eq_some_iff` reads a lookup as membership, which is the same thing because no name stands
twice. So lookups show all of a table but its order (`get?_eq_of_perm`, `perm_of_get?_eq`), and the
names show that (`filter_entries_congr`).
-/

set_option autoImplicit false

namespace ControllerTypes.Named

variable {α : Type}

/-- No name has a value in an empty list. -/
theorem get?_nil (name : String) : get? ([] : List (String × α)) name = none := rfl

/-- The first entry answers if it has the name. -/
theorem get?_cons (x : String × α) (rest : List (String × α)) (name : String) :
    get? (x :: rest) name = if x.1 = name then some x.2 else get? rest name := by
  by_cases h : x.1 = name
  · rw [if_pos h, get?, List.find?_cons_of_pos (by simpa using h)]
    rfl
  · rw [if_neg h, get?, List.find?_cons_of_neg (by simpa using h)]
    rfl

/-- A name that is not there has no value. -/
theorem get?_eq_none_iff {xs : List (String × α)} {name : String} :
    get? xs name = none ↔ name ∉ names xs := by
  rw [← isSome_get?_iff, Option.not_isSome_iff_eq_none]

/-- What stands behind other entries answers if they do not. -/
theorem get?_append (xs ys : List (String × α)) (name : String) :
    get? (xs ++ ys) name = (get? xs name).or (get? ys name) := by
  induction xs with
  | nil => rfl
  | cons x rest ih =>
    rw [List.cons_append, get?_cons, get?_cons, ih]
    split <;> rfl

/-- A lookup finds an entry. -/
theorem mem_of_get? {xs : List (String × α)} {name : String} {v : α} (h : get? xs name = some v) :
    (name, v) ∈ xs := by
  induction xs with
  | nil => cases h
  | cons x rest ih =>
    rw [get?_cons] at h
    split at h
    · next hname =>
      cases h
      rw [← hname]
      exact List.mem_cons_self
    · exact List.mem_cons_of_mem _ (ih h)

/-- An entry is what a lookup finds, where no name stands twice. -/
theorem get?_eq_some_iff {xs : List (String × α)} (hnodup : (names xs).Nodup) {name : String}
    {v : α} : get? xs name = some v ↔ (name, v) ∈ xs := by
  refine ⟨mem_of_get?, ?_⟩
  induction xs with
  | nil =>
    intro h
    cases h
  | cons x rest ih =>
    intro h
    rw [names, List.map_cons, List.nodup_cons] at hnodup
    rw [get?_cons]
    rcases List.mem_cons.1 h with rfl | h
    · exact if_pos rfl
    · -- A name further down is another one, so the first entry does not answer for it.
      have hne : x.1 ≠ name := fun e => hnodup.1 (e ▸ List.mem_map_of_mem h)
      rw [if_neg hne]
      exact ih hnodup.2 h

/-- Replacing the values under a name leaves the others. -/
theorem get?_map_replace (xs : List (String × α)) (name other : String) (v : α) :
    get? (xs.map fun x => if x.1 = name then (x.1, v) else x) other =
      if other = name then (get? xs other).map fun _ => v else get? xs other := by
  induction xs with
  | nil => simp [get?_nil]
  | cons x rest ih =>
    rw [List.map_cons, get?_cons, get?_cons, ih]
    -- The first entry has the name that is replaced or not, and the one that is looked up or not.
    by_cases hx : x.1 = name
    · by_cases ho : x.1 = other
      · simp [hx, ← ho]
      · have hne : ¬ name = other := hx ▸ ho
        simp [hx, hne]
    · by_cases ho : x.1 = other
      · have hne : ¬ other = name := ho ▸ hx
        simp [ho, hne]
      · simp [hx, ho]

/-- `insert` gives the name a new value, and every other name keeps its own. -/
theorem get?_insert (xs : List (String × α)) (name other : String) (v : α) :
    get? (insert xs name v) other = if other = name then some v else get? xs other := by
  unfold insert
  -- The name was there, and then all its values are replaced, or it goes to the end.
  split
  · next hmem =>
    rw [get?_map_replace]
    split
    · next heq =>
      obtain ⟨u, hu⟩ := Option.isSome_iff_exists.1 (isSome_get?_iff.2 hmem)
      rw [heq, hu]
      rfl
    · rfl
  · next hmem =>
    rw [get?_append, get?_cons, get?_nil]
    by_cases heq : other = name
    · subst heq
      simp [get?_eq_none_iff.2 hmem]
    · have hne : ¬ name = other := fun e => heq e.symm
      simp [heq, hne]

/-- `insertNew` leaves a name that has a value with it, and only the name that is put in may get
one. -/
theorem get?_insertNew (xs : List (String × α)) (name other : String) (v : α) :
    get? (insertNew xs name v) other =
      (get? xs other).or (if other = name then some v else none) := by
  unfold insertNew
  split
  · next hmem =>
    split
    · next heq =>
      obtain ⟨u, hu⟩ := Option.isSome_iff_exists.1 (isSome_get?_iff.2 hmem)
      rw [heq, hu]
      rfl
    · simp
  · rw [get?_append, get?_cons, get?_nil]
    by_cases heq : other = name
    · simp [heq]
    · have hne : ¬ name = other := fun e => heq e.symm
      simp [heq, hne]

/-- An entry behind `insert` is the one that was put in, or was there before. -/
theorem mem_insert {xs : List (String × α)} {name : String} {v : α} {x : String × α}
    (h : x ∈ insert xs name v) : x = (name, v) ∨ x ∈ xs := by
  unfold insert at h
  split at h
  · obtain ⟨y, hy, rfl⟩ := List.mem_map.1 h
    split
    · next hname => exact .inl (by rw [hname])
    · exact .inr hy
  · rcases List.mem_append.1 h with h | h
    · exact .inr h
    · exact .inl (List.mem_singleton.1 h)

/-- `ofList` has no entries but those that are put in. -/
theorem mem_of_mem_ofList {xs : List (String × α)} {x : String × α} (h : x ∈ ofList xs) :
    x ∈ xs := by
  have hall : ∀ y ∈ ofList xs, y ∈ xs :=
    List.foldlRecOn (motive := fun all => ∀ y ∈ all, y ∈ xs) xs _ (fun _ hy => nomatch hy)
      fun all hall z hz y hy => by
        rcases mem_insert hy with rfl | hy
        · exact hz
        · exact hall y hy
  exact hall x h

namespace Table

/-- A name that is put into a table has the new value, and every other name keeps its own. -/
theorem get?_insert (t : Table α) (name other : String) (v : α) :
    (t.insert name v).get? other = if other = name then some v else t.get? other :=
  Named.get?_insert t.entries name other v

/-- A name that has a value keeps it, and only the name that is put in may get one. -/
theorem get?_insertNew (t : Table α) (name other : String) (v : α) :
    (t.insertNew name v).get? other =
      (t.get? other).or (if other = name then some v else none) :=
  Named.get?_insertNew t.entries name other v

/-- The table without the name. -/
def erase (t : Table α) (name : String) : Table α :=
  ⟨t.entries.filter fun x => x.1 != name, t.nodup.sublist (List.filter_sublist.map Prod.fst)⟩

/-- The name that is taken out has no value, and every other name keeps its own. -/
theorem get?_erase (t : Table α) (name other : String) :
    (t.erase name).get? other = if other = name then none else t.get? other := by
  show Named.get? (t.entries.filter _) other = if _ then _ else Named.get? t.entries other
  induction t.entries with
  | nil => simp [get?_nil]
  | cons x rest ih =>
    rw [List.filter_cons, get?_cons]
    -- The first entry is taken out, and the name cannot stand further down, or it stays.
    by_cases hx : x.1 = name
    · rw [if_neg (by simpa using hx), ih]
      split
      · rfl
      · next hother => rw [if_neg fun heq => hother (heq.symm.trans hx)]
    · rw [if_pos (by simpa using hx), get?_cons, ih]
      split
      · next heq => rw [if_neg (heq ▸ hx)]
      · rfl

/-- An entry is what a lookup finds. -/
theorem get?_eq_some_iff {t : Table α} {name : String} {v : α} :
    t.get? name = some v ↔ (name, v) ∈ t.entries :=
  Named.get?_eq_some_iff t.nodup

/-- A name is there if it has a value. -/
theorem mem_names_iff {t : Table α} {name : String} :
    name ∈ t.names ↔ ∃ v, t.get? name = some v :=
  isSome_get?_iff.symm.trans Option.isSome_iff_exists

/-- Tables with the same entries in different orders answer the same. -/
theorem get?_eq_of_perm {t t' : Table α} (h : t.entries.Perm t'.entries) (name : String) :
    t.get? name = t'.get? name :=
  Option.ext fun v => by
    rw [get?_eq_some_iff, get?_eq_some_iff]
    exact h.mem_iff

/-- Tables that answer the same have the same entries. -/
theorem perm_of_get?_eq {t t' : Table α} (h : ∀ name, t.get? name = t'.get? name) :
    t.entries.Perm t'.entries := by
  have hnodup (t : Table α) : t.entries.Nodup := List.Nodup.of_map _ t.nodup
  refine (List.perm_ext_iff_of_nodup (hnodup t) (hnodup t')).2 ?_
  -- Lists without repetitions are permutations of each other if they have the same entries.
  rintro ⟨name, v⟩
  rw [← get?_eq_some_iff, ← get?_eq_some_iff, h]

/-- Some entries of tables that answer the same come in the same order if their names do. -/
theorem filter_entries_congr {t t' : Table α} (h : ∀ name, t.get? name = t'.get? name)
    {keep : String → Bool} (horder : t.names.filter keep = t'.names.filter keep) :
    (t.entries.filter fun x => keep x.1) = t'.entries.filter fun x => keep x.1 := by
  -- Each entry is what its name is looked up as.
  have hnames (entries : List (String × α)) (hget : ∀ x ∈ entries, t'.get? x.1 = some x.2) :
      (entries.filter fun x => keep x.1) =
        ((Named.names entries).filter keep).filterMap fun d => (t'.get? d).map fun v => (d, v) := by
    induction entries with
    | nil => rfl
    | cons x rest ih =>
      obtain ⟨hx, hrest⟩ := List.forall_mem_cons.1 hget
      rw [Named.names, List.map_cons, List.filter_cons, List.filter_cons]
      split
      · rw [List.filterMap_cons, hx, ih hrest]
        rfl
      · exact ih hrest
  rw [hnames t.entries fun x hx => (h x.1).symm.trans (get?_eq_some_iff.2 hx),
    hnames t'.entries fun x hx => get?_eq_some_iff.2 hx]
  exact congrArg (List.filterMap _) horder

end Table

end ControllerTypes.Named
