import ControllerTypes.Resolution.Resolver

/-!
# `ControllerTypes.Proofs.Resolution.Merge`: what a composition has fields for

Merging puts fields over each other, but it never drops a name (`mem_names_mergeFields`). So the
fields of a composition are those of its parts and its own, whichever schema each of them ends up
with. `Composed` says so of a result, together with what the result is when no part is an object,
and it holds of both sorts of composition (`composed_combineAll`, `composed_combineVariants`).
-/

set_option autoImplicit false

namespace ControllerTypes.Resolution

/-- The part is an object with a field of this name. -/
def Part.Has (p : Part) (name : String) : Prop :=
  ∃ fields, p.fields = some fields ∧ name ∈ fields.map Field.name

/-- Putting `fields` in one after the other adds their names. -/
theorem mem_names_foldl_upsert {name : String} (fields all : List (Field Schema)) :
    name ∈ (fields.foldl Schema.upsert all).map Field.name ↔
      name ∈ all.map Field.name ∨ name ∈ fields.map Field.name := by
  induction fields generalizing all with
  | nil => simp
  | cons f rest ih =>
    -- One field adds its name, unless the name is there.
    have hupsert : name ∈ (Schema.upsert all f).map Field.name ↔
        name ∈ all.map Field.name ∨ name = f.name := by
      rw [Schema.names_upsert]
      split
      · next hmem =>
        constructor
        · exact .inl
        · rintro (h | rfl)
          · exact h
          · exact hmem
      · rw [List.mem_append, List.mem_singleton]
    rw [List.foldl_cons, ih, hupsert, List.map_cons, List.mem_cons, or_assoc]

/-- `mergeFields` keeps all names. -/
theorem mem_names_mergeFields {name : String} {fields : List (Field Schema)} :
    name ∈ (mergeFields fields).map Field.name ↔ name ∈ fields.map Field.name := by
  rw [mergeFields, mem_names_foldl_upsert]
  simp

/-- A field that is put in gives its name and schema to one of the fields, and the others stay. -/
theorem mem_upsert {fields : List (Field Schema)} {f g : Field Schema}
    (h : g ∈ Schema.upsert fields f) : g ∈ fields ∨ g.name = f.name ∧ g.schema = f.schema := by
  induction fields with
  | nil =>
    rw [Schema.upsert, List.mem_singleton] at h
    subst h
    exact .inr ⟨rfl, rfl⟩
  | cons first rest ih =>
    rw [Schema.upsert] at h
    split at h
    · -- The first field has the name, so the new one takes its place.
      rcases List.mem_cons.1 h with rfl | h
      · exact .inr ⟨rfl, rfl⟩
      · exact .inl (List.mem_cons_of_mem _ h)
    · rcases List.mem_cons.1 h with rfl | h
      · exact .inl List.mem_cons_self
      · exact (ih h).imp_left (List.mem_cons_of_mem _)

/-- A field has its name and schema from a field that was put in, or was there before. -/
theorem exists_of_mem_foldl_upsert {g : Field Schema} (fields all : List (Field Schema))
    (h : g ∈ fields.foldl Schema.upsert all) :
    ∃ f ∈ all ++ fields, f.name = g.name ∧ f.schema = g.schema := by
  induction fields generalizing all with
  | nil => exact ⟨g, List.mem_append_left _ h, rfl, rfl⟩
  | cons first rest ih =>
    obtain ⟨f, hf, hname, hschema⟩ := ih _ h
    rcases List.mem_append.1 hf with hf | hf
    · -- The field was put in first, and may have taken the place of another one.
      rcases mem_upsert hf with hf | ⟨hname', hschema'⟩
      · exact ⟨f, List.mem_append_left _ hf, hname, hschema⟩
      · exact ⟨first, List.mem_append_right _ List.mem_cons_self, hname'.symm.trans hname,
          hschema'.symm.trans hschema⟩
    · exact ⟨f, List.mem_append_right _ (List.mem_cons_of_mem _ hf), hname, hschema⟩

/-- A merged field has its name and schema from one of the fields. -/
theorem exists_of_mem_mergeFields {fields : List (Field Schema)} {g : Field Schema}
    (h : g ∈ mergeFields fields) : ∃ f ∈ fields, f.name = g.name ∧ f.schema = g.schema :=
  exists_of_mem_foldl_upsert fields [] h

/-- `requireNamed` leaves the names of fields. -/
theorem map_name_requireNamed (names : List String) (fields : List (Field Schema)) :
    (requireNamed names fields).map Field.name = fields.map Field.name := by
  rw [requireNamed, List.map_map]
  rfl

/-- A field in `partFields` is one that some part shows. -/
theorem mem_partFields_iff {parts : List Part} {f : Field Schema} :
    f ∈ partFields parts ↔ ∃ p ∈ parts, ∃ fields, p.fields = some fields ∧ f ∈ fields := by
  rw [partFields, List.mem_flatMap]
  refine exists_congr fun p => and_congr_right fun _ => ?_
  cases p.fields <;> simp

/-- The names in `partFields` are those that some part `Has`. -/
theorem mem_names_partFields {name : String} {parts : List Part} :
    name ∈ (partFields parts).map Field.name ↔ ∃ p ∈ parts, p.Has name := by
  constructor
  · intro hmem
    obtain ⟨f, hf, rfl⟩ := List.mem_map.1 hmem
    obtain ⟨p, hp, fields, hfields, hf⟩ := mem_partFields_iff.1 hf
    exact ⟨p, hp, fields, hfields, List.mem_map_of_mem hf⟩
  · rintro ⟨p, hp, fields, hfields, hmem⟩
    obtain ⟨f, hf, rfl⟩ := List.mem_map.1 hmem
    exact List.mem_map_of_mem (mem_partFields_iff.2 ⟨p, hp, fields, hfields, hf⟩)

/-- Making a part optional leaves the names that it `Has`. -/
theorem has_optional {p : Part} {name : String} : p.optional.Has name ↔ p.Has name := by
  constructor
  · rintro ⟨fields, hfields, hmem⟩
    obtain ⟨old, hold, rfl⟩ := Option.map_eq_some_iff.1 hfields
    rw [List.map_map] at hmem
    exact ⟨old, hold, hmem⟩
  · rintro ⟨fields, hfields, hmem⟩
    refine ⟨_, by rw [Part.optional, hfields]; rfl, ?_⟩
    rw [List.map_map]
    exact hmem

/-- What comes of parts and own fields: an object with all their fields, or, where there are neither
objects nor own fields, one of the parts or nothing there is a type for. -/
def Composed (parts : List Part) (own : List (Field Schema)) (result : Schema) : Prop :=
  (((∃ p ∈ parts, p.fields ≠ none) ∨ own ≠ []) ∧ ∃ fields, result = .object fields ∧
    ∀ name, name ∈ fields.map Field.name ↔
      name ∈ own.map Field.name ∨ ∃ p ∈ parts, p.Has name) ∨
  ((∀ p ∈ parts, p.fields = none) ∧ own = [] ∧
    ((∃ detail, result = .unsupported detail) ∨ ∃ p ∈ parts, p.schema = result))

/-- There are objects or own fields, or there are none, and the flag that the program looks at says
which. -/
theorem objects_or_not (parts : List Part) (own : List (Field Schema)) :
    ((!anyObject parts && own.isEmpty) = false ∧ ((∃ p ∈ parts, p.fields ≠ none) ∨ own ≠ [])) ∨
    ((!anyObject parts && own.isEmpty) = true ∧ (∀ p ∈ parts, p.fields = none) ∧ own = []) := by
  by_cases hobject : ∃ p ∈ parts, p.fields ≠ none
  · refine .inl ⟨?_, .inl hobject⟩
    obtain ⟨p, hp, hfields⟩ := hobject
    have hany : anyObject parts = true :=
      List.any_eq_true.2 ⟨p, hp, Option.isSome_iff_ne_none.2 hfields⟩
    rw [hany]
    rfl
  · have hnone : ∀ p ∈ parts, p.fields = none := by
      intro p hp
      cases hfields : p.fields with
      | none => rfl
      | some fields => exact absurd ⟨p, hp, by simp [hfields]⟩ hobject
    have hany : anyObject parts = false := by
      rw [anyObject, List.any_eq_false]
      intro p hp
      rw [hnone p hp]
      exact Bool.false_ne_true
    cases own with
    | nil => exact .inr ⟨by rw [hany]; rfl, hnone, rfl⟩
    | cons f rest => exact .inl ⟨by rw [hany]; rfl, .inr (List.cons_ne_nil f rest)⟩

/-- Without objects the first part decides, and without parts nothing there is a type for. -/
theorem firstOther?_cases (parts : List Part) (detail : String) :
    (∃ detail', (firstOther? parts).getD (.unsupported detail) = .unsupported detail') ∨
      ∃ p ∈ parts, p.schema = (firstOther? parts).getD (.unsupported detail) := by
  unfold firstOther?
  cases hfind : parts.find? fun p => p.fields.isNone with
  | none => exact .inl ⟨detail, rfl⟩
  | some p => exact .inr ⟨p, List.mem_of_find?_eq_some hfind, rfl⟩

/-- An `allOf` is `Composed` of its parts and own fields. -/
theorem composed_combineAll (parts : List Part) (own : List (Field Schema))
    (required : List String) : Composed parts own (combineAll parts own required) := by
  unfold combineAll
  -- By the flag it is an object with the fields of all, or the first of its parts.
  rcases objects_or_not parts own with ⟨hflag, hobject⟩ | ⟨hflag, hnone, hown⟩
  · rw [hflag]
    refine .inl ⟨hobject, _, rfl, ?_⟩
    intro name
    rw [map_name_requireNamed, mem_names_mergeFields, List.map_append, List.mem_append,
      mem_names_partFields, or_comm]
  · rw [hflag]
    exact .inr ⟨hnone, hown, firstOther?_cases _ _⟩

/-- Variants are `Composed` of their parts and own fields, too. -/
theorem composed_combineVariants (parts : List Part) (own : List (Field Schema)) :
    Composed parts own (combineVariants parts own) := by
  unfold combineVariants
  rcases objects_or_not parts own with ⟨hflag, hobject⟩ | ⟨hflag, hnone, hown⟩
  · rw [hflag]
    refine .inl ⟨hobject, _, rfl, ?_⟩
    intro name
    -- The fields are made optional before they are merged, which leaves their names.
    have hoptional : (∃ p ∈ parts.map Part.optional, p.Has name) ↔ ∃ p ∈ parts, p.Has name := by
      constructor
      · rintro ⟨p, hp, hhas⟩
        obtain ⟨q, hq, rfl⟩ := List.mem_map.1 hp
        exact ⟨q, hq, has_optional.1 hhas⟩
      · rintro ⟨p, hp, hhas⟩
        exact ⟨p.optional, List.mem_map_of_mem hp, has_optional.2 hhas⟩
    rw [mem_names_mergeFields, List.map_append, List.mem_append, mem_names_partFields, hoptional,
      or_comm]
  · rw [hflag]
    exact .inr ⟨hnone, hown, firstOther?_cases _ _⟩

/-- A part that is no object is the first of its kind. -/
theorem firstOther?_cons {first : Part} {rest : List Part} (h : first.fields = none) :
    firstOther? (first :: rest) = some first.schema := by
  rw [firstOther?, List.find?_cons_of_pos (by simp [h]), Option.map_some]

/-- Where members amount to no object, the `first` of them is the result. -/
theorem combineAll_cons {first : Part} {rest : List Part} {own : List (Field Schema)}
    {required : List String}
    (h : ∀ fields, combineAll (first :: rest) own required ≠ .object fields) :
    combineAll (first :: rest) own required = first.schema := by
  unfold combineAll at h ⊢
  rcases objects_or_not (first :: rest) own with ⟨hflag, _⟩ | ⟨hflag, hnone, _⟩
  · rw [hflag] at h
    exact absurd rfl (h _)
  · rw [hflag, firstOther?_cons (hnone first List.mem_cons_self)]
    rfl

/-- The same for variants. -/
theorem combineVariants_cons {first : Part} {rest : List Part} {own : List (Field Schema)}
    (h : ∀ fields, combineVariants (first :: rest) own ≠ .object fields) :
    combineVariants (first :: rest) own = first.schema := by
  unfold combineVariants at h ⊢
  rcases objects_or_not (first :: rest) own with ⟨hflag, _⟩ | ⟨hflag, hnone, _⟩
  · rw [hflag] at h
    exact absurd rfl (h _)
  · rw [hflag, firstOther?_cons (hnone first List.mem_cons_self)]
    rfl

end ControllerTypes.Resolution
