import ControllerTypes.Proofs.Resolution.Conversion

/-!
# `ControllerTypes.Proofs.Resolution.Properties`: where the fields of an object come from

An object has a field for each of its properties. A composition has the properties of its members,
as far as it sees them, with its own behind them; where two have the same name, the later one
replaces the earlier one in its place. `Properties` says so about the description itself, without a
word about schemas that were resolved, except that the catalog decides what a composition sees in a
reference. Each property comes with the definition in which it stands, which need not be the one
that the object is for.

`Properties.fields` says that the fields of an object are its properties, one for one and in order,
each with the schema to which the property was converted where it stands.
-/

set_option autoImplicit false

namespace ControllerTypes.Resolution

open Document Named

/-- A schema object that stands in a definition. -/
structure Site where
  home : String
  raw : SchemaObject

/-- Properties that stand in a definition. -/
def sitesIn (home : String) (properties : List (String × SchemaObject)) : List (String × Site) :=
  properties.map fun x => (x.1, ⟨home, x.2⟩)

/-- A composition that sees the definitions `before` it sees the object `source` when it refers to
`n`: the definition itself, or the one that `n` stands for. -/
def Shows (catalog : Catalog) (before : List String) (n source : String) : Prop :=
  n ∈ before ∧ source ∈ before ∧ (∃ fields, catalog.get? source = some (.object fields)) ∧
    (n = source ∨ catalog.get? n = some (.reference source))

mutual

/-- What stands in the definition is seen as an object, and these are its properties. -/
inductive Properties (defs : Definitions) (catalog : Catalog) :
    String → SchemaObject → List (String × Site) → Prop where
  | object {home : String} {raw : SchemaObject} {properties : List (String × SchemaObject)}
      (hform : raw.form = .object properties) :
      Properties defs catalog home raw (sitesIn home properties)
  | decorated {home : String} {raw only : SchemaObject} {properties : List (String × Site)}
      (hform : raw.form = .decorated only) (honly : Properties defs catalog home only properties) :
      Properties defs catalog home raw properties
  | composed {home : String} {raw : SchemaObject} {members : List SchemaObject}
      {given : List (String × Site)} (hform : raw.form = .all members ∨ raw.form = .variants members)
      (hobject : offered catalog (finishedBefore defs home) raw ≠ none)
      (hgiven : Given defs catalog home members given) :
      Properties defs catalog home raw (Named.ofList (given ++ sitesIn home raw.properties))
  | reference {home source n ref : String} {raw origin : SchemaObject}
      {properties : List (String × Site)} (hform : raw.form = .reference ref)
      (hname : definitionName? ref = some n)
      (hshows : Shows catalog (finishedBefore defs home) n source)
      (horigin : defs.get? source = some origin)
      (hsource : Properties defs catalog source origin properties) :
      Properties defs catalog home raw properties

/-- The properties that the members of a composition give to it. -/
inductive Given (defs : Definitions) (catalog : Catalog) :
    String → List SchemaObject → List (String × Site) → Prop where
  | nil {home : String} : Given defs catalog home [] []
  | gives {home : String} {raw : SchemaObject} {rest : List SchemaObject}
      {properties others : List (String × Site)}
      (hmember : Properties defs catalog home raw properties)
      (hrest : Given defs catalog home rest others) :
      Given defs catalog home (raw :: rest) (properties ++ others)
  | nothing {home : String} {raw : SchemaObject} {rest : List SchemaObject}
      {others : List (String × Site)}
      (hmember : offered catalog (finishedBefore defs home) raw = none)
      (hrest : Given defs catalog home rest others) :
      Given defs catalog home (raw :: rest) others

end

variable {defs : Definitions} {catalog : Catalog} {before : List String} {d : String}
  {raw : SchemaObject} {schema : Schema} {raws : List SchemaObject} {parts : List Part}

/-! ### Properties and fields that are merged -/

/-- The field is what the property was converted to, whether it is required or not. -/
def FieldOf (defs : Definitions) (catalog : Catalog) (x : String × Site) (f : Field Schema) :
    Prop :=
  f.name = x.1 ∧ Conversion defs catalog x.2.home x.2.raw f.schema

/-- The fields are what the properties were converted to, one for one. -/
abbrev FieldsOf (defs : Definitions) (catalog : Catalog) (properties : List (String × Site))
    (fields : List (Field Schema)) : Prop :=
  List.Forall₂ (FieldOf defs catalog) properties fields

section
variable {properties given : List (String × Site)} {fields all : List (Field Schema)}
  {x : String × Site} {f : Field Schema}

/-- A property and its field, put in at the same time, come to stand in the same place. -/
theorem FieldsOf.insert (h : FieldsOf defs catalog properties fields)
    (hnodup : (names properties).Nodup) (hx : FieldOf defs catalog x f) :
    FieldsOf defs catalog (Named.insert properties x.1 x.2) (Schema.upsert fields f) := by
  induction h with
  | nil => exact .cons hx .nil
  | @cons y g rest others hfirst hrest ih =>
    obtain ⟨hnew, hnodup'⟩ := List.nodup_cons.1 hnodup
    rw [Schema.upsert, hfirst.1, hx.1]
    -- The first property has the name, and both are replaced here, or both go on behind it.
    by_cases heq : y.1 = x.1
    · -- The name does not stand a second time, so the rest stays as it is.
      have hkept : rest.map (fun z => if z.1 = x.1 then (z.1, x.2) else z) = rest := by
        refine (List.map_congr_left fun z hz => if_neg fun hname => hnew ?_).trans (List.map_id rest)
        rw [heq, ← hname]
        exact List.mem_map_of_mem hz
      rw [Named.insert, if_pos (heq ▸ List.mem_cons_self), List.map_cons, if_pos heq, if_pos heq,
        hkept]
      exact .cons ⟨heq.symm, hx.2⟩ hrest
    · have hinsert : Named.insert (y :: rest) x.1 x.2 = y :: Named.insert rest x.1 x.2 := by
        have hmem : x.1 ∈ names (y :: rest) ↔ x.1 ∈ names rest :=
          List.mem_cons.trans (or_iff_right fun h => heq h.symm)
        unfold Named.insert
        by_cases hin : x.1 ∈ names rest
        · rw [if_pos (hmem.2 hin), if_pos hin, List.map_cons, if_neg heq]
        · rw [if_neg (hmem.not.2 hin), if_neg hin, List.cons_append]
      rw [hinsert, if_neg heq]
      exact .cons hfirst (ih hnodup')

/-- Properties and fields that are put in one after the other stay together. -/
theorem FieldsOf.foldl (h : FieldsOf defs catalog given fields)
    (hstart : FieldsOf defs catalog properties all) (hnodup : (names properties).Nodup) :
    FieldsOf defs catalog (given.foldl (fun all x => Named.insert all x.1 x.2) properties)
      (fields.foldl Schema.upsert all) := by
  induction h generalizing properties all with
  | nil => exact hstart
  | cons hfirst _ ih =>
    exact ih (hstart.insert hnodup hfirst) (nodup_names_insert _ _ hnodup)

/-- Merging goes the same way for properties, with `Named.ofList`, and for fields, with
`mergeFields`. -/
theorem FieldsOf.merge (h : FieldsOf defs catalog given fields) :
    FieldsOf defs catalog (Named.ofList given) (mergeFields fields) :=
  h.foldl .nil List.nodup_nil

/-- Fields may become required, or optional: by `hchange` that is no change of what they are. -/
theorem FieldsOf.map (h : FieldsOf defs catalog properties fields)
    {change : Field Schema → Field Schema}
    (hchange : ∀ f, (change f).name = f.name ∧ (change f).schema = f.schema) :
    FieldsOf defs catalog properties (fields.map change) := by
  refine List.forall₂_map_right_iff.2 (h.imp fun x f hf => ?_)
  obtain ⟨hname, hschema⟩ := hchange f
  exact ⟨hname.trans hf.1, hschema ▸ hf.2⟩

/-- The own fields of an object are its own properties. -/
theorem ConvertedProperties.fieldsOf {required : List String}
    {asked : List (String × SchemaObject)}
    (h : ConvertedProperties defs catalog d required asked fields) :
    FieldsOf defs catalog (sitesIn d asked) fields :=
  List.forall₂_map_left_iff.2 (h.imp fun _ _ hf => ⟨hf.1, hf.2.2⟩)

end

/-! ### The fields of an object are its properties -/

/-- Where no part is an object, the one that counts shows nothing. -/
theorem seen_firstOther?_eq_none
    (h : ∀ part ∈ parts, part.fields = seen catalog before part.schema) (detail : String) :
    seen catalog before ((firstOther? parts).getD (.unsupported detail)) = none := by
  unfold firstOther?
  cases hfind : parts.find? fun p => p.fields.isNone with
  | none => rfl
  | some part =>
    have hnone := List.find?_some hfind
    rw [Option.map_some, Option.getD_some, ← h part (List.mem_of_find?_eq_some hfind)]
    exact Option.isNone_iff_eq_none.1 hnone

/-- Parts know their fields from their schemas. -/
theorem ConvertedMembers.fields_eq (h : ConvertedMembers defs catalog d raws parts) :
    ∀ part ∈ parts, part.fields = seen catalog (finishedBefore defs d) part.schema := by
  intro part hpart
  obtain ⟨_, _, _, hfields⟩ := forall₂_exists_left h hpart
  exact hfields

/-- An `allOf` that shows fields is an object with the fields of its parts and its own. -/
theorem exists_of_seen_combineAll {own : List (Field Schema)} {required : List String}
    (hparts : ∀ part ∈ parts, part.fields = seen catalog before part.schema)
    (h : seen catalog before (combineAll parts own required) ≠ none) :
    combineAll parts own required =
      .object (requireNamed required (mergeFields (partFields parts ++ own))) := by
  unfold combineAll at h ⊢
  split
  · next hempty =>
    rw [if_pos hempty] at h
    exact absurd (seen_firstOther?_eq_none hparts _) h
  · rfl

/-- Variants that show fields are an object with the fields of their parts, made optional, and their
own. -/
theorem exists_of_seen_combineVariants {own : List (Field Schema)}
    (hparts : ∀ part ∈ parts, part.fields = seen catalog before part.schema)
    (h : seen catalog before (combineVariants parts own) ≠ none) :
    combineVariants parts own =
      .object (mergeFields (partFields (parts.map Part.optional) ++ own)) := by
  unfold combineVariants at h ⊢
  split
  · next hempty =>
    rw [if_pos hempty] at h
    exact absurd (seen_firstOther?_eq_none hparts _) h
  · rfl

/-- A composition that is seen as an object, by `hobject`, is one. -/
theorem Conversion.exists_fields (h : Conversion defs catalog d raw schema)
    (hform : raw.form = .all raws ∨ raw.form = .variants raws)
    (hobject : offered catalog (finishedBefore defs d) raw ≠ none) :
    ∃ fields, schema = .object fields := by
  have hseen := h.offers.ne_none_iff.2 hobject
  have hrule := h.of_form
  rcases hform with hform | hform <;> simp only [hform] at hrule <;>
    obtain ⟨parts, own, rfl, hmembers, _⟩ := hrule
  · exact ⟨_, exists_of_seen_combineAll hmembers.fields_eq hseen⟩
  · exact ⟨_, exists_of_seen_combineVariants hmembers.fields_eq hseen⟩

/-- A composition that is not seen as an object, by `hnone`, is its `first` member. -/
theorem Conversion.first {first : SchemaObject} {rest : List SchemaObject}
    (h : Conversion defs catalog d raw schema)
    (hform : raw.form = .all (first :: rest) ∨ raw.form = .variants (first :: rest))
    (hnone : offered catalog (finishedBefore defs d) raw = none) :
    Conversion defs catalog d first schema := by
  have hseen := not_not.1 (h.offers.ne_none_iff.not.2 (not_not_intro hnone))
  -- If it were an object it would be seen as one.
  have hplain (fields : List (Field Schema)) : schema ≠ .object fields := by
    rintro rfl
    cases hseen
  have hrule := h.of_form
  rcases hform with hform | hform <;> simp only [hform] at hrule <;>
    obtain ⟨parts, own, rfl, hmembers, _⟩ := hrule
  · cases hmembers with
    | cons hfirst _ => exact combineAll_cons hplain ▸ hfirst.1
  · cases hmembers with
    | cons hfirst _ => exact combineVariants_cons hplain ▸ hfirst.1

/-- Parts that become optional keep their fields. -/
theorem FieldsOf.optional {given : List (String × Site)}
    (h : FieldsOf defs catalog given (partFields parts)) :
    FieldsOf defs catalog given (partFields (parts.map Part.optional)) := by
  have hmap : partFields (parts.map Part.optional) =
      (partFields parts).map fun f => { f with required := false } := by
    rw [partFields, partFields, List.flatMap_map, List.map_flatMap]
    refine List.flatMap_congr fun part _ => ?_
    cases hfields : part.fields <;> simp [Part.optional, hfields]
  rw [hmap]
  exact h.map fun _ => ⟨rfl, rfl⟩

/-- What shows fields is an object, or refers to one: it `Shows` a source. -/
theorem exists_shows {n : String} {fields : List (Field Schema)}
    (h : shown catalog before n = some fields) :
    ∃ source, Shows catalog before n source := by
  unfold shown at h
  split at h
  · next hn =>
    split at h
    · next fields' hget => exact ⟨n, hn, hn, ⟨fields', hget⟩, .inl rfl⟩
    · next target hget =>
      split at h
      · next htarget =>
        obtain ⟨schema, hschema, hfields⟩ := Option.bind_eq_some_iff.1 h
        cases schema with
        | object fields' => exact ⟨target, hn, htarget, ⟨fields', hschema⟩, .inr hget⟩
        | reference | enumeration | array | map | primitive | unsupported => cases hfields
      · cases h
    · cases h
  · cases h

/-- A definition that `Shows` a source shows the fields of it. -/
theorem Shows.exists_shown {n source : String} (h : Shows catalog before n source) :
    ∃ fields, catalog.get? source = some (.object fields) ∧ shown catalog before n = some fields := by
  obtain ⟨hn, hsource, ⟨fields, hfields⟩, rfl | halias⟩ := h
  · exact ⟨fields, hfields, by rw [shown, if_pos hn, hfields]⟩
  · refine ⟨fields, hfields, ?_⟩
    simp only [shown, if_pos hn, halias, if_pos hsource, hfields]
    rfl

/-- What stands in the place of a reference shows the same. -/
theorem Shows.seen_eq {n source : String} (h : Shows catalog before n source) {target : Schema}
    (hget : catalog.get? n = some target) :
    ∃ fields, catalog.get? source = some (.object fields) ∧
      seen catalog before (referenceTo n target) = some fields := by
  obtain ⟨fields, hfields, hshown⟩ := h.exists_shown
  exact ⟨fields, hfields, (seen_referenceTo h.1 hget).trans hshown⟩

mutual

/-- What was seen as an object was converted to one that shows its properties as fields. The
recursion is that of `Properties`, which may go over to another definition. -/
theorem Properties.fields (hr : Resolved defs catalog) :
    ∀ {d : String} {raw : SchemaObject} {properties : List (String × Site)} {schema : Schema},
      Properties defs catalog d raw properties → Conversion defs catalog d raw schema →
      ∃ fields, seen catalog (finishedBefore defs d) schema = some fields ∧
        FieldsOf defs catalog properties fields
  | d, raw, _, schema, .object hform, hc => by
    have hrule := hc.of_form
    simp only [hform] at hrule
    obtain ⟨fields, rfl, hfields⟩ := hrule
    exact ⟨fields, rfl, hfields.fieldsOf⟩
  | d, raw, _, schema, .decorated hform honly, hc => by
    have hrule := hc.of_form
    simp only [hform] at hrule
    exact Properties.fields hr honly hrule
  | d, raw, _, schema, .composed (.inl hform) hobject hgiven, hc => by
    have hseen := hc.offers.ne_none_iff.2 hobject
    have hrule := hc.of_form
    simp only [hform] at hrule
    obtain ⟨parts, own, rfl, hmembers, hown⟩ := hrule
    rw [exists_of_seen_combineAll hmembers.fields_eq hseen]
    refine ⟨_, rfl, FieldsOf.map (FieldsOf.merge ?_) fun _ => ⟨rfl, rfl⟩⟩
    exact List.rel_append (Given.fields hr hgiven hmembers) hown.fieldsOf
  | d, raw, _, schema, .composed (.inr hform) hobject hgiven, hc => by
    have hseen := hc.offers.ne_none_iff.2 hobject
    have hrule := hc.of_form
    simp only [hform] at hrule
    obtain ⟨parts, own, rfl, hmembers, hown⟩ := hrule
    rw [exists_of_seen_combineVariants hmembers.fields_eq hseen]
    refine ⟨_, rfl, FieldsOf.merge ?_⟩
    exact List.rel_append (Given.fields hr hgiven hmembers).optional hown.fieldsOf
  | d, raw, _, schema, .reference hform hname hshows horigin hsource, hc => by
    have hrule := hc.of_form
    simp only [hform] at hrule
    obtain ⟨n, hname', hstands⟩ := hrule
    cases hname.symm.trans hname'
    rcases hstands with ⟨_, target, hget, rfl⟩ | ⟨hnot, _, _⟩
    · obtain ⟨fields, hfields, hseen⟩ := hshows.seen_eq hget
      -- The fields are those of the source, which was converted in another definition.
      obtain ⟨fields', hseen', hmatch⟩ := Properties.fields hr hsource (hr.conversion horigin hfields)
      cases hseen'
      exact ⟨fields, hseen, hmatch⟩
    · exact absurd hshows.1 hnot

/-- The parts of a composition have what its members give as their fields. -/
theorem Given.fields (hr : Resolved defs catalog) :
    ∀ {d : String} {raws : List SchemaObject} {given : List (String × Site)} {parts : List Part},
      Given defs catalog d raws given → ConvertedMembers defs catalog d raws parts →
      FieldsOf defs catalog given (partFields parts)
  | _, _, _, _, .nil, .nil => .nil
  | d, _, _, _, .gives hmember hrest, .cons hfirst hothers => by
    obtain ⟨fields, hseen, hmatch⟩ := Properties.fields hr hmember hfirst.1
    rw [partFields, List.flatMap_cons, hfirst.2, hseen]
    exact List.rel_append hmatch (Given.fields hr hrest hothers)
  | d, _, _, _, .nothing hmember hrest, .cons hfirst hothers => by
    have hnone := hfirst.1.offers.ne_none_iff.not.2 (not_not_intro hmember)
    rw [partFields, List.flatMap_cons, hfirst.2, not_not.1 hnone]
    exact Given.fields hr hrest hothers

end

end ControllerTypes.Resolution
