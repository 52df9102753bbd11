import ControllerTypes.Proofs.Resolution.Offered

/-!
# `ControllerTypes.Proofs.Resolution.Conversion`: what the parts of a definition were converted to

The rules of resolution carry a memo along, and what they answer depends on it. Once a description
is resolved the memo is no mystery any more: what it held while a definition was worked out are the
definitions that were finished before that one, with the schemas they have in the catalog.

`Conversion defs catalog d raw schema` says that `raw` stands in the definition `d` and was
converted to `schema` when that was worked out. Every definition has its schema from such a
conversion (`Resolved.conversion`), and a conversion goes by the form of the schema like the rules
do, with the catalog in the place of the memo (`Conversion.of_form`). What stood in a place of
reference was finished before, or it leads back to the definition that refers to it.
-/

set_option autoImplicit false

namespace ControllerTypes.Resolution

open Document Named Relation

/-- The fields that a schema shows to a composition, which sees the definitions `before` it. -/
def seen (catalog : Catalog) (before : List String) : Schema → Option (List (Field Schema))
  | .object fields => some fields
  | .reference name => if name ∈ before then (catalog.get? name).bind Schema.fields? else none
  | _ => none

variable {defs : Definitions} {catalog : Catalog} {before active : List String} {m m' v : Memo}
  {d : String} {raw : SchemaObject} {schema : Schema}

/-- A `View` shows the fields that the catalog has for the definitions it has seen. -/
theorem View.memberFields_eq (hv : View catalog before active v) (schema : Schema) :
    memberFields v schema = seen catalog before schema := by
  cases schema with
  | reference name =>
    rw [memberFields, seen]
    cases hdone : v.done.get? name with
    | none =>
      have hnot : name ∉ before := by
        rw [hv.finished name, hdone]
        simp
      rw [if_neg hnot]
      rfl
    | some w => rw [if_pos ((hv.finished name).2 ⟨w, hdone⟩), hv.agrees name w hdone]
  | _ => rfl

/-- What `referenceTo` puts in the place of a reference shows what the definition shows. -/
theorem seen_referenceTo {n : String} {target : Schema} (hn : n ∈ before) (hget : catalog.get? n = some target) :
    seen catalog before (referenceTo n target) = shown catalog before n := by
  cases target <;>
    simp [referenceTo, Schema.isNamed, seen, shown, hn, hget, Schema.fields?]

/-- The schema object stands in the definition, and was converted to the schema when that was
worked out. -/
inductive Conversion (defs : Definitions) (catalog : Catalog) (d : String) (raw : SchemaObject)
    (schema : Schema) : Prop where
  | intro {active : List String} {m m' v : Memo}
      (converted : Resolves defs active (.schema raw schema) m m') (apart : m.Apart active)
      (known : m.Known active) (later : m'.Extends v)
      (view : View catalog (finishedBefore defs d) active v)
      (path : ∀ a ∈ active, ReflTransGen (Refers defs) a d)

/-- The members of a composition were converted to the parts, and the parts have the fields that
their schemas show. -/
def ConvertedMembers (defs : Definitions) (catalog : Catalog) (d : String)
    (raws : List SchemaObject) (parts : List Part) : Prop :=
  List.Forall₂ (fun raw part => Conversion defs catalog d raw part.schema ∧
    part.fields = seen catalog (finishedBefore defs d) part.schema) raws parts

/-- The properties were converted to the fields. -/
def ConvertedProperties (defs : Definitions) (catalog : Catalog) (d : String)
    (required : List String) (properties : List (String × SchemaObject))
    (fields : List (Field Schema)) : Prop :=
  List.Forall₂ (fun x f => f.name = x.1 ∧ f.required = required.contains x.1 ∧
    Conversion defs catalog d x.2 f.schema) properties fields

/-! ### Queries made while a definition is worked out -/

section
variable {raws : List SchemaObject} {parts : List Part} {required : List String}
  {properties : List (String × SchemaObject)} {fields : List (Field Schema)}

/-- A query for members converts each of them, and what it made of them are `ConvertedMembers`. -/
theorem Resolves.convertedMembers (h : Resolves defs active (.members raws parts) m m')
    (ha : m.Apart active) (hk : m.Known active) (he : m'.Extends v)
    (hv : View catalog (finishedBefore defs d) active v)
    (hpath : ∀ a ∈ active, ReflTransGen (Refers defs) a d) :
    ConvertedMembers defs catalog d raws parts := by
  induction raws generalizing parts m with
  | nil =>
    cases h
    exact .nil
  | cons raw rest ih =>
    cases h with
    | member hschema hrest =>
      have ha₁ := hschema.apart ha
      have he₁ := (hrest.extends ha₁).trans he
      have hsame := hschema.memberFields_eq ha hk he₁ hv.apart
      exact .cons ⟨⟨hschema, ha, hk, he₁, hv, hpath⟩, hsame.trans (hv.memberFields_eq _)⟩
        (ih hrest ha₁ (hschema.known ha hk).1)

/-- A query for properties converts each of them, to `ConvertedProperties`. -/
theorem Resolves.convertedProperties
    (h : Resolves defs active (.properties required properties fields) m m')
    (ha : m.Apart active) (hk : m.Known active) (he : m'.Extends v)
    (hv : View catalog (finishedBefore defs d) active v)
    (hpath : ∀ a ∈ active, ReflTransGen (Refers defs) a d) :
    ConvertedProperties defs catalog d required properties fields := by
  induction properties generalizing fields m with
  | nil =>
    cases h
    exact .nil
  | cons x rest ih =>
    cases h with
    | property hschema hrest =>
      have ha₁ := hschema.apart ha
      exact .cons ⟨rfl, rfl, hschema, ha, hk, (hrest.extends ha₁).trans he, hv, hpath⟩
        (ih hrest ha₁ (hschema.known ha hk).1)

end

/-! ### Conversions go by the form -/

/-- A schema in the place of a reference to `n`: what stands for `n` if that was finished before, or
the bare reference, and then `n` leads back to the definition it stands in. -/
def StandsFor (defs : Definitions) (catalog : Catalog) (d n : String) (schema : Schema) : Prop :=
  (n ∈ finishedBefore defs d ∧
    ∃ target, catalog.get? n = some target ∧ schema = referenceTo n target) ∨
  (n ∉ finishedBefore defs d ∧ ReflTransGen (Refers defs) n d ∧ schema = .reference n)

/-- A `Conversion` goes by the form of the schema, as the rules of `Resolves` do. -/
theorem Conversion.of_form (h : Conversion defs catalog d raw schema) :
    match raw.form with
    | .reference ref => ∃ n, definitionName? ref = some n ∧ StandsFor defs catalog d n schema
    | .decorated only => Conversion defs catalog d only schema
    | .all members => ∃ parts own, schema = combineAll parts own raw.required ∧
        ConvertedMembers defs catalog d members parts ∧
        ConvertedProperties defs catalog d raw.required raw.properties own
    | .variants members => ∃ parts own, schema = combineVariants parts own ∧
        ConvertedMembers defs catalog d members parts ∧
        ConvertedProperties defs catalog d raw.required raw.properties own
    | .enumeration literals => schema = .enumeration (literalTexts literals)
    | .map values => ∃ value, schema = .map value ∧ Conversion defs catalog d values value
    | .freeMap => schema = .map (.unsupported "free-form map values")
    | .object properties => ∃ fields, schema = .object fields ∧
        ConvertedProperties defs catalog d raw.required properties fields
    | .array items => ∃ item, schema = .array item ∧ Conversion defs catalog d items item
    | .scalar => schema = convertScalar raw := by
  obtain ⟨hconverted, ha, hk, he, hv, hpath⟩ := h
  have hrule := hconverted.of_form
  generalize raw.form = form at hrule ⊢
  cases form with
  | reference ref =>
    obtain ⟨n, target, hname, rfl, hquery⟩ := hrule
    refine ⟨n, hname, ?_⟩
    -- What was asked for is finished in the view, or it is being worked out and leads to `d`.
    rcases hquery.name_cases with hdone | ⟨hactive, rfl⟩
    · have hseen := he.get? hdone
      exact .inl ⟨(hv.finished n).2 ⟨target, hseen⟩, target, hv.agrees n target hseen, rfl⟩
    · refine .inr ⟨?_, hpath n hactive, rfl⟩
      rw [hv.finished n, hv.apart n hactive]
      simp
  | decorated only => exact ⟨hrule, ha, hk, he, hv, hpath⟩
  | all members | variants members =>
    obtain ⟨parts, own, m₁, rfl, hmembers, hown⟩ := hrule
    have ha₁ := hmembers.apart ha
    exact ⟨parts, own, rfl,
      hmembers.convertedMembers ha hk ((hown.extends ha₁).trans he) hv hpath,
      hown.convertedProperties ha₁ (hmembers.known ha hk).1 he hv hpath⟩
  | map inner | array inner =>
    obtain ⟨schema, rfl, hinner⟩ := hrule
    exact ⟨schema, rfl, hinner, ha, hk, he, hv, hpath⟩
  | object properties =>
    obtain ⟨fields, rfl, hfields⟩ := hrule
    exact ⟨fields, rfl, hfields.convertedProperties ha hk he hv hpath⟩
  | enumeration | freeMap | scalar => exact hrule.1

/-- A `Conversion` gives to a composition around it what its schema has to give. -/
theorem Conversion.offers (h : Conversion defs catalog d raw schema) :
    Offers catalog (finishedBefore defs d) raw (seen catalog (finishedBefore defs d) schema) := by
  obtain ⟨hconverted, ha, hk, he, hv, _⟩ := h
  rw [← hv.memberFields_eq]
  exact hconverted.offers ha hk he hv

/-- The fields that a conversion shows are those that the schema has to give. -/
theorem Conversion.offered_iff {name : String} (h : Conversion defs catalog d raw schema) :
    (∃ offer, offered catalog (finishedBefore defs d) raw = some offer ∧ name ∈ offer) ↔
      ∃ fields, seen catalog (finishedBefore defs d) schema = some fields ∧
        name ∈ fields.map Field.name := by
  have hoffers : Offers catalog (finishedBefore defs d) raw
      (Part.mk schema (seen catalog (finishedBefore defs d) schema)).fields := h.offers
  exact hoffers.has_iff.symm

/-- A composition is `Composed` of its converted members and its own fields. -/
theorem Conversion.composed {members : List SchemaObject} (h : Conversion defs catalog d raw schema)
    (hform : raw.form = .all members ∨ raw.form = .variants members) :
    ∃ parts own, Composed parts own schema ∧ ConvertedMembers defs catalog d members parts ∧
      ConvertedProperties defs catalog d raw.required raw.properties own := by
  have hrule := h.of_form
  rcases hform with hform | hform <;> simp only [hform] at hrule <;>
    obtain ⟨parts, own, rfl, hmembers, hown⟩ := hrule
  · exact ⟨parts, own, composed_combineAll _ _ _, hmembers, hown⟩
  · exact ⟨parts, own, composed_combineVariants _ _, hmembers, hown⟩

/-! ### A description -/

/-- Every definition has its schema from the `Conversion` of what it says. -/
theorem Resolved.conversion (hr : Resolved defs catalog) (hraw : defs.get? d = some raw)
    (hget : catalog.get? d = some schema) : Conversion defs catalog d raw schema := by
  obtain ⟨raw', active, m, m', hentered⟩ := hr.converted d schema hget
  obtain rfl : raw = raw' := Option.some.inj (hraw.symm.trans hentered.raw_eq)
  refine ⟨hentered.converted, hentered.apart, hentered.known, .refl _, hentered.view hr, ?_⟩
  intro a ha
  rcases List.mem_cons.1 ha with rfl | ha
  · exact .refl
  · exact (hentered.path a ha).to_reflTransGen

/-- The catalog has a schema for whatever is defined. -/
theorem Resolved.exists_schema (hr : Resolved defs catalog) (hraw : defs.get? d = some raw) :
    ∃ schema, catalog.get? d = some schema :=
  Table.mem_names_iff.1 (hr.names_eq ▸ Table.mem_names_of_get? hraw)

/-- Whatever the catalog has a schema for is defined. -/
theorem Resolved.exists_raw (hr : Resolved defs catalog) (hget : catalog.get? d = some schema) :
    ∃ raw, defs.get? d = some raw :=
  Table.mem_names_iff.1 (hr.names_eq ▸ Table.mem_names_of_get? hget)

end ControllerTypes.Resolution
