import ControllerTypes.Proofs.Lists
import ControllerTypes.Proofs.Resolution.Merge
import ControllerTypes.Proofs.Resolution.Resolves
import Mathlib

/-!
# `ControllerTypes.Proofs.Resolution.Merged`: what the fields of a composition are

A composition puts the fields of its parts into one list, one after the other. `Combined` says what
comes of that without saying how: every name once, where it came up first, with the schema it came
up with last, and required if it was required anywhere. There is only one such list
(`Combined.unique`), and putting in one more field goes from the one to the next
(`Combined.snoc`), so it is what a whole row of fields amounts to (`combined_mergeFields`).

`composition_merges` is the result for both sorts of composition, whatever the resolver remembers:
an object with the merged fields if any part is an object or there are own properties, and otherwise
the schema of the first part, if there is one.
-/

set_option autoImplicit false

namespace ControllerTypes.Resolution

open Document Run

/-! ### Merged fields -/

/-- The last of the fields with this name. -/
def last? (name : String) (fields : List (Field Schema)) : Option (Field Schema) :=
  fields.reverse.find? fun f => f.name == name

/-- The merged fields have the names of the fields, in the order in which these come up first, each
with the schema of its last field. A merged field is required if one of its fields is, or if its
name is listed. -/
structure Combined (listed : List String) (fields merged : List (Field Schema)) : Prop where
  names : merged.map Field.name = (fields.map Field.name).eraseDups
  schema : ∀ f ∈ merged, (last? f.name fields).map Field.schema = some f.schema
  required : ∀ f ∈ merged, f.required = true ↔
    f.name ∈ listed ∨ ∃ g ∈ fields, g.name = f.name ∧ g.required = true

variable {listed : List String} {fields merged merged' : List (Field Schema)} {f g : Field Schema}

/-- The last of the fields with a name is the one at the end, if that has it. -/
theorem last?_snoc (name : String) (fields : List (Field Schema)) (f : Field Schema) :
    last? name (fields ++ [f]) = if f.name = name then some f else last? name fields := by
  by_cases h : f.name = name <;> simp [last?, h]

/-- What is `Combined` has no name twice. -/
theorem Combined.nodup_names (h : Combined listed fields merged) : (merged.map Field.name).Nodup :=
  h.names ▸ nodup_eraseDups _

/-- Where nothing is listed, a name is required after merging if it was required before. -/
theorem Combined.exists_required_iff (h : Combined [] fields merged) (name : String) :
    (∃ f ∈ merged, f.name = name ∧ f.required = true) ↔
      ∃ g ∈ fields, g.name = name ∧ g.required = true := by
  constructor
  · rintro ⟨f, hf, rfl, hrequired⟩
    simpa using (h.required f hf).1 hrequired
  · rintro ⟨g, hg, rfl, hrequired⟩
    have hmem : g.name ∈ merged.map Field.name := by
      rw [h.names, List.mem_eraseDups]
      exact List.mem_map_of_mem hg
    obtain ⟨f, hf, hname⟩ := List.mem_map.1 hmem
    exact ⟨f, hf, hname, (h.required f hf).2 (.inr ⟨g, hg, hname.symm, hrequired⟩)⟩

/-- The `fields` determine what is merged from them. -/
theorem Combined.unique (h : Combined listed fields merged) (h' : Combined listed fields merged') :
    merged = merged' := by
  have hnames : merged.map Field.name = merged'.map Field.name := h.names.trans h'.names.symm
  have hlength : merged.length = merged'.length := by simpa using congrArg List.length hnames
  -- The names are the same place by place, and a name decides on the schema and the flag.
  refine List.ext_getElem hlength fun i hi hi' => ?_
  have hname : merged[i].name = merged'[i].name := by
    have hget := List.getElem_of_eq hnames (i := i) (by simpa using hi)
    simpa using hget
  have hschema := h.schema _ (List.getElem_mem hi)
  have hrequired := h.required _ (List.getElem_mem hi)
  rw [hname, h'.schema _ (List.getElem_mem hi')] at hschema
  rw [hname, ← h'.required _ (List.getElem_mem hi'), ← Bool.eq_iff_iff] at hrequired
  cases hf : merged[i]
  cases hf' : merged'[i]
  simp_all

/-- A field that is put in by `Schema.upsert` takes the place of the one with its name. -/
theorem upsert_cases (hnodup : (fields.map Field.name).Nodup) (h : g ∈ Schema.upsert fields f) :
    (g ∈ fields ∧ g.name ≠ f.name) ∨
      (g.name = f.name ∧ g.schema = f.schema ∧ (g.required = true ↔
        f.required = true ∨ ∃ old ∈ fields, old.name = f.name ∧ old.required = true)) := by
  -- Down the list to where the field belongs, which is its end if no field has the name.
  induction fields with
  | nil =>
    rw [Schema.upsert, List.mem_singleton] at h
    subst h
    exact .inr ⟨rfl, rfl, by simp⟩
  | cons first rest ih =>
    rw [List.map_cons, List.nodup_cons] at hnodup
    obtain ⟨hnew, hnodup⟩ := hnodup
    rw [Schema.upsert] at h
    split at h
    · next hfirst =>
      -- The field stands here, and nowhere in the rest.
      have hrest : ∀ old ∈ rest, old.name ≠ f.name := fun old hold heq =>
        hnew (hfirst ▸ heq ▸ List.mem_map_of_mem hold)
      rcases List.mem_cons.1 h with rfl | h
      · have hnone : ¬∃ old ∈ rest, old.name = f.name ∧ old.required = true := by
          rintro ⟨old, hold, heq, _⟩
          exact hrest old hold heq
        refine .inr ⟨rfl, rfl, ?_⟩
        simp [hfirst, hnone, or_comm]
      · exact .inl ⟨List.mem_cons_of_mem _ h, hrest g h⟩
    · next hfirst =>
      rcases List.mem_cons.1 h with rfl | h
      · exact .inl ⟨List.mem_cons_self, hfirst⟩
      · refine (ih hnodup h).imp (fun hg => ⟨List.mem_cons_of_mem _ hg.1, hg.2⟩) fun hg => ?_
        simpa [hfirst] using hg

/-- Putting in one more field, by `Schema.upsert`, merges it with the others. -/
theorem Combined.snoc (h : Combined [] fields merged) (f : Field Schema) :
    Combined [] (fields ++ [f]) (Schema.upsert merged f) := by
  -- A merged field has either another name, and is as it was, or the name of the one put in.
  refine ⟨?_, fun g hg => ?_, fun g hg => ?_⟩
  · rw [Schema.names_upsert, h.names, List.map_append, List.map_singleton, eraseDups_snoc]
    simp only [List.mem_eraseDups]
  · rw [last?_snoc]
    rcases upsert_cases h.nodup_names hg with ⟨hg, hne⟩ | ⟨hname, hschema, _⟩
    · rw [if_neg (Ne.symm hne), h.schema g hg]
    · rw [if_pos hname.symm, hschema]
      rfl
  · rcases upsert_cases h.nodup_names hg with ⟨hg, hne⟩ | ⟨hname, _, hrequired⟩
    · rw [h.required g hg]
      simp [Ne.symm hne, or_and_right, exists_or]
    · -- The field is required if it says so or if one of its name did before.
      rw [hrequired, h.exists_required_iff]
      simp [hname, or_and_right, exists_or, or_comm]

/-- Fields that are put in one after the other, by `mergeFields`, are `Combined`. -/
theorem combined_mergeFields (fields : List (Field Schema)) :
    Combined [] fields (mergeFields fields) := by
  -- From the end, since the last field is the one put in last.
  induction fields using List.reverseRecOn with
  | nil => exact ⟨rfl, List.forall_mem_nil _, List.forall_mem_nil _⟩
  | append_singleton fields f ih =>
    rw [mergeFields, List.foldl_append]
    exact ih.snoc f

/-- Requiring the `listed` fields adds to what is required. -/
theorem Combined.requireNamed (h : Combined [] fields merged) (listed : List String) :
    Combined listed fields (requireNamed listed merged) := by
  refine ⟨by rw [map_name_requireNamed, h.names], fun g hg => ?_, fun g hg => ?_⟩ <;>
    obtain ⟨f, hf, rfl⟩ := List.mem_map.1 hg
  · exact h.schema f hf
  · simp [h.required f hf, or_comm]

/-! ### Compositions -/

/-- What comes of the parts of a composition and its own fields. -/
structure Amounts (listed : List String) (parts : List Part) (own : List (Field Schema))
    (schema : Schema) : Prop where
  /-- If there is anything with fields, the result is the object with all of them merged. -/
  object : (∃ p ∈ parts, p.fields ≠ none) ∨ own ≠ [] → ∃ merged, schema = .object merged ∧
    ∀ fields, Combined listed (partFields parts ++ own) fields ↔ fields = merged
  /-- Otherwise it is the first part. -/
  first : (∀ p ∈ parts, p.fields = none) → own = [] →
    ∀ p rest, parts = p :: rest → schema = p.schema
  /-- If there are no parts at all, no type stands for it. -/
  nothing : parts = [] → own = [] → ∃ detail, schema = .unsupported detail

section
variable {parts : List Part} {own : List (Field Schema)}

/-- What the two rules of composition have in common: if the fields are `Combined`, the result is
what the composition `Amounts` to. -/
theorem amounts_of_combined (h : Combined listed (partFields parts ++ own) merged)
    (detail : String) : Amounts listed parts own
      (if !anyObject parts && own.isEmpty then (firstOther? parts).getD (.unsupported detail)
        else .object merged) := by
  have hexclusive (hnone : ∀ p ∈ parts, p.fields = none) (hown : own = []) :
      ¬((∃ p ∈ parts, p.fields ≠ none) ∨ own ≠ []) := by
    simpa [hown] using hnone
  -- The flag that the program looks at is the hypothesis of the first clause, or that of the other
  -- two.
  rcases objects_or_not parts own with ⟨hflag, hobject⟩ | ⟨hflag, hnone, hown⟩ <;> rw [hflag]
  · refine ⟨fun _ => ⟨merged, rfl, fun fields => ?_⟩, fun hnone hown => ?_, fun hparts hown => ?_⟩
    · exact ⟨fun h' => h'.unique h, fun heq => heq ▸ h⟩
    · exact absurd hobject (hexclusive hnone hown)
    · subst hparts
      exact absurd hobject (hexclusive (List.forall_mem_nil _) hown)
  · refine ⟨fun hobject => ?_, fun _ _ p rest hparts => ?_, fun hparts _ => ?_⟩
    · exact absurd hobject (hexclusive hnone hown)
    · subst hparts
      rw [firstOther?_cons (hnone p List.mem_cons_self), if_pos rfl, Option.getD_some]
    · subst hparts
      exact ⟨detail, rfl⟩

/-- `combineAll` is what an `allOf` amounts to, with what it lists as required. -/
theorem amounts_combineAll (parts : List Part) (own : List (Field Schema))
    (required : List String) : Amounts required parts own (combineAll parts own required) :=
  amounts_of_combined ((combined_mergeFields _).requireNamed required) _

/-- Variants are put together with all of their fields optional. -/
theorem amounts_combineVariants (parts : List Part) (own : List (Field Schema)) :
    Amounts [] (parts.map Part.optional) own (combineVariants parts own) := by
  -- Which parts have fields at all remains the same when these become optional.
  have hany : anyObject (parts.map Part.optional) = anyObject parts := by
    simp [anyObject, Part.optional, Function.comp_def]
  have hfirst : firstOther? (parts.map Part.optional) = firstOther? parts := by
    simp [firstOther?, Part.optional, Function.comp_def]
  rw [combineVariants, ← hany, ← hfirst]
  exact amounts_of_combined (combined_mergeFields _) _

end

/-! ### What the resolver sees -/

section
variable (defs : Definitions) (active : List String)

/-- A composition sees these fields of the schema: it is an object with them, or it refers to a
definition that is finished and is one. -/
def HasFields (m : Memo) (schema : Schema) (fields : List (Field Schema)) : Prop :=
  schema = .object fields ∨
    ∃ name, schema = .reference name ∧ m.done.get? name = some (.object fields)

/-- The members of a composition are converted one after the other, and the fields of each are
looked up right after it was converted. -/
inductive SeesMembers : Memo → List SchemaObject → List Part → Memo → Prop
  | nil {m : Memo} : SeesMembers m [] [] m
  | cons {raw : SchemaObject} {rest : List SchemaObject} {part : Part} {parts : List Part}
      {m m₁ m' : Memo} (hconvert : (convert defs active raw).run.run m = (.ok part.schema, m₁))
      (hfields : ∀ fields, part.fields = some fields ↔ HasFields m₁ part.schema fields)
      (hrest : SeesMembers m₁ rest parts m') : SeesMembers m (raw :: rest) (part :: parts) m'

/-- The properties are converted one after the other, and are required if they are listed. -/
inductive SeesProperties (required : List String) :
    Memo → List (String × SchemaObject) → List (Field Schema) → Memo → Prop
  | nil {m : Memo} : SeesProperties required m [] [] m
  | cons {name : String} {raw : SchemaObject} {rest : List (String × SchemaObject)}
      {schema : Schema} {fields : List (Field Schema)} {m m₁ m' : Memo}
      (hconvert : (convert defs active raw).run.run m = (.ok schema, m₁))
      (hrest : SeesProperties required m₁ rest fields m') :
      SeesProperties required m ((name, raw) :: rest)
        (⟨name, schema, required.contains name⟩ :: fields) m'

/-- This is what the resolver sees of a composition: its members first, then its own properties. -/
def Sees (raw : SchemaObject) (members : List SchemaObject) (m : Memo) (parts : List Part)
    (own : List (Field Schema)) (m' : Memo) : Prop :=
  ∃ m₁, SeesMembers defs active m members parts m₁ ∧
    SeesProperties defs active raw.required m₁ raw.properties own m'

end

section
variable {defs : Definitions} {active : List String} {m m' : Memo}

/-- `memberFields` answers the fields that a composition sees of a member. -/
theorem memberFields_eq_some_iff {schema : Schema} :
    memberFields m schema = some fields ↔ HasFields m schema fields := by
  have hfields? (s : Schema) : s.fields? = some fields ↔ s = .object fields := by
    cases s <;> simp [Schema.fields?]
  cases schema <;> simp [memberFields, HasFields, Option.bind_eq_some_iff, hfields?]

/-- The members that `convertMembers` answers are those that a composition sees. -/
theorem sees_members {members : List SchemaObject} {parts : List Part}
    (h : (convertMembers defs active members).run.run m = (.ok parts, m')) :
    SeesMembers defs active m members parts m' := by
  induction members generalizing parts m with
  | nil =>
    rw [convertMembers] at h
    cases h
    exact .nil
  | cons raw rest ih =>
    simp only [convertMembers, runExcept_bind_eq_ok] at h
    obtain ⟨schema, m₁, hconvert, memo, m₂, hget, others, m₃, hrest, h⟩ := h
    cases hget
    cases h
    exact .cons hconvert (fun _ => memberFields_eq_some_iff) (ih hrest)

/-- The fields that `convertProperties` answers are those that a composition sees of its own
properties. -/
theorem sees_properties {required : List String} {properties : List (String × SchemaObject)}
    {own : List (Field Schema)}
    (h : (convertProperties defs active required properties).run.run m = (.ok own, m')) :
    SeesProperties defs active required m properties own m' := by
  induction properties generalizing own m with
  | nil =>
    rw [convertProperties] at h
    cases h
    exact .nil
  | cons x rest ih =>
    obtain ⟨name, raw⟩ := x
    simp only [convertProperties, runExcept_bind_eq_ok] at h
    obtain ⟨schema, m₁, hconvert, others, m₂, hrest, h⟩ := h
    cases h
    exact .cons hconvert (ih hrest)

end

/-- An `allOf` is a composition unless it is a single schema to which nothing is added. -/
theorem form_eq_all {raw : SchemaObject} (href : raw.ref = none)
    (h : 2 ≤ raw.allOf.length ∨ raw.allOf ≠ [] ∧ raw.properties ≠ []) :
    raw.form = .all raw.allOf := by
  rw [SchemaObject.form, href]
  rcases hall : raw.allOf with _ | ⟨only, _ | ⟨second, rest⟩⟩
  · simp [hall] at h
  · simpa [hall] using h
  · rfl

/-- A `oneOf` or `anyOf` without an `allOf` is a schema of variants. -/
theorem form_eq_variants {raw : SchemaObject} (href : raw.ref = none) (hall : raw.allOf = [])
    (h : raw.oneOf ≠ [] ∨ raw.anyOf ≠ []) : raw.form = .variants raw.variants := by
  rw [SchemaObject.form, href, hall]
  have hvariants : (!raw.oneOf.isEmpty || !raw.anyOf.isEmpty) = true := by simpa using h
  exact if_pos hvariants

/-- Whatever a resolver remembers and is busy with, a composition that it converts is what it sees
of the members and the own properties, put together. -/
theorem composition_merges {defs : Definitions} {active : List String} {raw : SchemaObject}
    {m m' : Memo} {schema : Schema} (href : raw.ref = none)
    (h : (convert defs active raw).run.run m = (.ok schema, m')) :
    (2 ≤ raw.allOf.length ∨ raw.allOf ≠ [] ∧ raw.properties ≠ [] →
      ∃ parts own, Sees defs active raw raw.allOf m parts own m' ∧
        Amounts raw.required parts own schema) ∧
    (raw.allOf = [] → raw.oneOf ≠ [] ∨ raw.anyOf ≠ [] →
      ∃ parts own, Sees defs active raw raw.variants m parts own m' ∧
        Amounts [] (parts.map Part.optional) own schema) := by
  rw [convert_eq] at h
  constructor
  · intro hcomposes
    simp only [form_eq_all href hcomposes, runExcept_bind_eq_ok] at h
    obtain ⟨parts, m₁, hparts, own, m₂, hown, h⟩ := h
    cases h
    exact ⟨parts, own, ⟨m₁, sees_members hparts, sees_properties hown⟩,
      amounts_combineAll parts own raw.required⟩
  · intro hall hvariants
    simp only [form_eq_variants href hall hvariants, runExcept_bind_eq_ok] at h
    obtain ⟨parts, m₁, hparts, own, m₂, hown, h⟩ := h
    cases h
    exact ⟨parts, own, ⟨m₁, sees_members hparts, sees_properties hown⟩,
      amounts_combineVariants parts own⟩

/-! ### Boxes

A box has an identifier and a size. A chest is a box with a lid whose size is more exact and whose
identifier is a number. A parcel is a box, or anything that has a weight or nothing at all. -/

namespace Boxes

def property (type : String) : SchemaObject where
  type := some (.single type)

def box : SchemaObject where
  properties := [("id", property "string"), ("size", property "integer")]
  required := ["id"]

def definitions : Definitions := .ofList [("Box", box)]

def chest : SchemaObject where
  allOf := [{ ref := "#/definitions/Box" },
    { properties := [("lid", property "boolean"), ("size", property "number")]
      required := ["size"] }]
  properties := [("id", property "integer")]
  required := ["lid"]

def parcel : SchemaObject where
  oneOf := [{ ref := "#/definitions/Box" }, property "null"]
  anyOf := [{ properties := [("weight", property "number")], required := ["weight"] }]

/-- A resolver is done with the box and remembers it. -/
def memo : Memo where
  done := .ofList [("Box", .object
    [⟨"id", .primitive .string, true⟩, ⟨"size", .primitive .integer, false⟩])]
  conversions := 1

def chestFields : List (Field Schema) :=
  [⟨"id", .primitive .integer, true⟩, ⟨"size", .primitive .number, true⟩,
    ⟨"lid", .primitive .boolean, true⟩]

def parcelFields : List (Field Schema) :=
  [⟨"id", .primitive .string, false⟩, ⟨"size", .primitive .integer, false⟩,
    ⟨"weight", .primitive .number, false⟩]

end Boxes

/-- A chest is all of a box with its own lid, size and identifier, where the box is converted on the
way. A parcel has what a box that was converted before has, and a weight, and needs none of it. -/
theorem boxes_merged :
    (∃ parts own m', Sees Boxes.definitions [] Boxes.chest Boxes.chest.allOf {} parts own m' ∧
      Amounts Boxes.chest.required parts own (.object Boxes.chestFields)) ∧
    ∃ parts own m',
      Sees Boxes.definitions [] Boxes.parcel Boxes.parcel.variants Boxes.memo parts own m' ∧
      Amounts [] (parts.map Part.optional) own (.object Boxes.parcelFields) := by
  have hchest : ((convert Boxes.definitions [] Boxes.chest).run.run {}).1
      = .ok (.object Boxes.chestFields) := by cbv
  have hparcel : ((convert Boxes.definitions [] Boxes.parcel).run.run Boxes.memo).1
      = .ok (.object Boxes.parcelFields) := by cbv
  constructor
  · obtain ⟨parts, own, hsees, hamounts⟩ :=
      (composition_merges rfl (Prod.ext hchest rfl)).1 (.inl (by simp [Boxes.chest]))
    exact ⟨parts, own, _, hsees, hamounts⟩
  · obtain ⟨parts, own, hsees, hamounts⟩ :=
      (composition_merges rfl (Prod.ext hparcel rfl)).2 rfl (.inl (by simp [Boxes.parcel]))
    exact ⟨parts, own, _, hsees, hamounts⟩

end ControllerTypes.Resolution
