/-!
# `ControllerTypes.Named`: values under names, in order

The members of an object, the definitions of a document and the schemas they resolve to are lists of
values under names. Their order is the order of the document and shows in everything generated from
it, so they stay lists. A name is looked up from the front.

`insert` is how such lists are built: a repeated name gets its last value at its first place. A list
built with it has no name twice (`names_insert`, `nodup_names_insert`, `nodup_names_ofList`), and
one that has none to begin with is built as it is (`ofList_of_nodup`).

A `Table` is such a list together with the fact that no name is in it twice.
-/

set_option autoImplicit false

namespace ControllerTypes.Named

variable {α : Type}

/-- The names, in order. -/
def names (xs : List (String × α)) : List String := xs.map Prod.fst

/-- The value under a name. -/
def get? (xs : List (String × α)) (name : String) : Option α :=
  (xs.find? fun x => x.1 == name).map Prod.snd

/-- There is a value under the name. -/
def contains (xs : List (String × α)) (name : String) : Bool := (names xs).contains name

/-- The list with `name` given the value `v`, at the end if the name is new. -/
def insert (xs : List (String × α)) (name : String) (v : α) : List (String × α) :=
  if name ∈ names xs then xs.map fun x => if x.1 = name then (x.1, v) else x
  else xs ++ [(name, v)]

/-- The list with `v` at the end, unless there is a value under the name already. -/
def insertNew (xs : List (String × α)) (name : String) (v : α) : List (String × α) :=
  if name ∈ names xs then xs else xs ++ [(name, v)]

/-- The values put in one after the other. -/
def ofList (xs : List (String × α)) : List (String × α) :=
  xs.foldl (fun all x => insert all x.1 x.2) []

/-- `contains` says whether a name is one of the `names`. -/
theorem contains_iff {xs : List (String × α)} {name : String} :
    contains xs name = true ↔ name ∈ names xs := by
  simp [contains]

/-- A name that is there has a value, and one that is not has none. -/
theorem isSome_get?_iff {xs : List (String × α)} {name : String} :
    (get? xs name).isSome = true ↔ name ∈ names xs := by
  simp [get?, names]

/-- A name with a value is one of the names. -/
theorem mem_names_of_get? {xs : List (String × α)} {name : String} {v : α}
    (h : get? xs name = some v) : name ∈ names xs :=
  isSome_get?_iff.1 (by rw [h]; rfl)

/-- A new name at the end keeps the names distinct. -/
theorem nodup_names_append {xs : List (String × α)} {name : String} (v : α)
    (h : (names xs).Nodup) (hnew : name ∉ names xs) : (names (xs ++ [(name, v)])).Nodup := by
  rw [names, List.map_append, List.nodup_append]
  refine ⟨h, by simp, ?_⟩
  -- A name that stands in both lists is the new one, and that does not stand in the first.
  intro a ha b hb e
  rw [List.map_singleton, List.mem_singleton] at hb
  subst hb
  exact hnew (e ▸ ha)

/-! ### Inserting -/

/-- Only a new name changes the list of names, and it goes to the end. -/
theorem names_insert (xs : List (String × α)) (name : String) (v : α) :
    names (insert xs name v) = if name ∈ names xs then names xs else names xs ++ [name] := by
  unfold insert
  by_cases h : name ∈ names xs
  · rw [if_pos h, if_pos h, names, names, List.map_map]
    apply List.map_congr_left
    intro x _
    simp only [Function.comp]
    split <;> rfl
  · rw [if_neg h, if_neg h, names, List.map_append]
    rfl

/-- Inserting keeps the names distinct. -/
theorem nodup_names_insert {xs : List (String × α)} (name : String) (v : α)
    (h : (names xs).Nodup) : (names (insert xs name v)).Nodup := by
  rw [names_insert]
  split
  · exact h
  · next hn => simpa [names] using nodup_names_append v h hn

/-- Inserting where there is no value yet keeps the names distinct. -/
theorem nodup_names_insertNew {xs : List (String × α)} (name : String) (v : α)
    (h : (names xs).Nodup) : (names (insertNew xs name v)).Nodup := by
  unfold insertNew
  split
  · exact h
  · next hn => exact nodup_names_append v h hn

/-- Nothing that is put in makes a name stand twice. -/
theorem nodup_names_foldl_insert (xs all : List (String × α)) (h : (names all).Nodup) :
    (names (xs.foldl (fun all x => insert all x.1 x.2) all)).Nodup := by
  induction xs generalizing all with
  | nil => exact h
  | cons x rest ih => exact ih _ (nodup_names_insert x.1 x.2 h)

/-- A list that is built by `ofList` has no name twice. -/
theorem nodup_names_ofList (xs : List (String × α)) : (names (ofList xs)).Nodup :=
  nodup_names_foldl_insert xs [] List.nodup_nil

/-- Values under new names go to the end, one after the other. -/
theorem foldl_insert_of_nodup (xs all : List (String × α)) (h : (names (all ++ xs)).Nodup) :
    xs.foldl (fun all x => insert all x.1 x.2) all = all ++ xs := by
  induction xs generalizing all with
  | nil => exact (List.append_nil all).symm
  | cons x rest ih =>
    -- The first name is none of those in front, so it goes to the end.
    have hnew : x.1 ∉ names all := by
      rw [names, List.map_append, List.nodup_append] at h
      exact fun hm => h.2.2 x.1 hm x.1 (by simp) rfl
    have hinsert : insert all x.1 x.2 = all ++ [x] := if_neg hnew
    rw [List.foldl_cons, hinsert, ih _ (by simpa [names] using h), List.append_assoc]
    rfl

/-- A list without a repeated name is put in as it is. -/
theorem ofList_of_nodup {xs : List (String × α)} (h : (names xs).Nodup) : ofList xs = xs :=
  foldl_insert_of_nodup xs [] h

/-! ### Tables -/

/-- Values under distinct names, in order. -/
structure Table (α : Type) where
  entries : List (String × α)
  nodup : (names entries).Nodup

namespace Table

/-- The table without values. -/
def empty : Table α := ⟨[], List.nodup_nil⟩

/-- The table of a list in which a later value replaces an earlier one of its name. -/
def ofList (xs : List (String × α)) : Table α := ⟨Named.ofList xs, nodup_names_ofList xs⟩

/-- The names, in order. -/
def names (t : Table α) : List String := Named.names t.entries

/-- The value under a name. -/
def get? (t : Table α) (name : String) : Option α := Named.get? t.entries name

/-- There is a value under the name. -/
def contains (t : Table α) (name : String) : Bool := Named.contains t.entries name

/-- How many names there are. -/
def size (t : Table α) : Nat := t.entries.length

/-- The table with `name` given the value `v`, at the end if the name is new. -/
def insert (t : Table α) (name : String) (v : α) : Table α :=
  ⟨Named.insert t.entries name v, nodup_names_insert name v t.nodup⟩

/-- The table with `v` at the end, unless there is a value under the name already. -/
def insertNew (t : Table α) (name : String) (v : α) : Table α :=
  ⟨Named.insertNew t.entries name v, nodup_names_insertNew name v t.nodup⟩

/-- A name with a value is one of the names. -/
theorem mem_names_of_get? {t : Table α} {name : String} {v : α} (h : t.get? name = some v) :
    name ∈ t.names :=
  Named.mem_names_of_get? h

end Table

end ControllerTypes.Named
