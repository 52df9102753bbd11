import ControllerTypes.Proofs.Resolution.Complete
import ControllerTypes.Proofs.Resolution.Merged
import ControllerTypes.Proofs.TypeDef.Origin

/-!
# `ControllerTypes.Proofs.Resolution.Required`: which fields a description requires

An object requires the properties that it lists. A composition of all its members requires what it
lists, wherever the field comes from, and what any of the members requires; variants require nothing
but what they list of their own properties. `Requires` says so about the description itself. It
reaches as far as a composition sees, and no further.

The fields of whatever is converted are required exactly if the description requires them
(`flagsExact`). The proof has one case for each form. A reference shows a definition that was
finished before, the other forms go to their parts, and what is required is also there
(`Requires.offered`), so that merging finds a field to require.

A schema that is all of a single other one and has no properties is taken for that other one,
and its own list is dropped with the rest of it. `listed_required_iff` says when the fields that
are listed are required all the same, and `crate_label_optional` is a description in which they are
not.
-/

set_option autoImplicit false

namespace ControllerTypes.Resolution

open Document Named TypeDef

variable {defs : Definitions} {catalog : Catalog} {before : List String} {d home n name : String}
  {raw only origin : SchemaObject} {members : List SchemaObject} {schema : Schema}

/-- What stands in the definition requires the field of this name. -/
inductive Requires (defs : Definitions) (catalog : Catalog) :
    String → SchemaObject → String → Prop where
  | property {home name : String} {raw : SchemaObject} {properties : List (String × SchemaObject)}
      (hform : raw.form = .object properties) (hlisted : name ∈ raw.required)
      (hproperty : name ∈ names properties) : Requires defs catalog home raw name
  | decorated {home name : String} {raw only : SchemaObject} (hform : raw.form = .decorated only)
      (honly : Requires defs catalog home only name) : Requires defs catalog home raw name
  /-- A composition may list any field that it has. -/
  | listed {home name : String} {raw : SchemaObject} {members : List SchemaObject}
      {offer : List String} (hform : raw.form = .all members) (hlisted : name ∈ raw.required)
      (hoffer : offered catalog (finishedBefore defs home) raw = some offer)
      (hfield : name ∈ offer) : Requires defs catalog home raw name
  | member {home name : String} {raw member : SchemaObject} {members : List SchemaObject}
      (hform : raw.form = .all members) (hmember : member ∈ members)
      (hrequires : Requires defs catalog home member name) : Requires defs catalog home raw name
  /-- Variants may list their own properties. What the members require is optional. -/
  | own {home name : String} {raw : SchemaObject} {members : List SchemaObject}
      (hform : raw.form = .variants members) (hlisted : name ∈ raw.required)
      (hproperty : name ∈ names raw.properties) : Requires defs catalog home raw name
  | reference {home source n ref name : String} {raw origin : SchemaObject}
      (hform : raw.form = .reference ref) (hname : definitionName? ref = some n)
      (hshows : Shows catalog (finishedBefore defs home) n source)
      (horigin : defs.get? source = some origin)
      (hrequires : Requires defs catalog source origin name) : Requires defs catalog home raw name

/-- What a schema `Requires` goes by its form. -/
theorem requires_iff :
    Requires defs catalog home raw name ↔
      match raw.form with
      | .reference ref => ∃ n source origin, definitionName? ref = some n ∧
          Shows catalog (finishedBefore defs home) n source ∧ defs.get? source = some origin ∧
          Requires defs catalog source origin name
      | .decorated only => Requires defs catalog home only name
      | .all members =>
          (name ∈ raw.required ∧ ∃ offer,
            offered catalog (finishedBefore defs home) raw = some offer ∧ name ∈ offer) ∨
          ∃ member ∈ members, Requires defs catalog home member name
      | .variants _ => name ∈ raw.required ∧ name ∈ names raw.properties
      | .object properties => name ∈ raw.required ∧ name ∈ names properties
      | .enumeration _ | .map _ | .freeMap | .array _ | .scalar => False := by
  constructor
  · intro h
    -- Each rule is about one form, so it answers for the clause of that form.
    cases h with
    | property hform hlisted hproperty =>
      simp only [hform]
      exact ⟨hlisted, hproperty⟩
    | decorated hform honly => simpa only [hform] using honly
    | listed hform hlisted hoffer hfield =>
      simp only [hform]
      exact .inl ⟨hlisted, _, hoffer, hfield⟩
    | member hform hmember hrequires =>
      simp only [hform]
      exact .inr ⟨_, hmember, hrequires⟩
    | own hform hlisted hproperty =>
      simp only [hform]
      exact ⟨hlisted, hproperty⟩
    | reference hform hname hshows horigin hrequires =>
      simp only [hform]
      exact ⟨_, _, _, hname, hshows, horigin, hrequires⟩
  · intro h
    cases hform : raw.form with
    | reference ref =>
      simp only [hform] at h
      obtain ⟨n, source, origin, hname, hshows, horigin, hrequires⟩ := h
      exact .reference hform hname hshows horigin hrequires
    | decorated only =>
      simp only [hform] at h
      exact .decorated hform h
    | all members =>
      simp only [hform] at h
      rcases h with ⟨hlisted, offer, hoffer, hfield⟩ | ⟨member, hmember, hrequires⟩
      · exact .listed hform hlisted hoffer hfield
      · exact .member hform hmember hrequires
    | variants members =>
      simp only [hform] at h
      exact .own hform h.1 h.2
    | object properties =>
      simp only [hform] at h
      exact .property hform h.1 h.2
    | enumeration | map | freeMap | array | scalar => simp only [hform] at h

/-! ### What is required is there -/

/-- What a schema `Requires` it offers: the name stands in what `offered` says of it. -/
theorem Requires.offered (hr : Resolved defs catalog) (h : Requires defs catalog home raw name) :
    ∃ offer, offered catalog (finishedBefore defs home) raw = some offer ∧ name ∈ offer := by
  induction h with
  | property hform _ hproperty => exact ⟨_, by rw [offered_eq, hform], hproperty⟩
  | decorated hform _ ih =>
    rw [offered_eq]
    simpa only [hform] using ih
  | listed _ _ hoffer hfield => exact ⟨_, hoffer, hfield⟩
  | member hform hmember _ ih =>
    -- The name is offered by one of the members, so the composition is an object and has it.
    have hfield := mem_flatten_offeredBy.2 ⟨_, hmember, ih⟩
    obtain ⟨offer, hoffer, _⟩ := List.mem_flatten.1 hfield
    rw [offered_eq]
    simp only [hform]
    rw [if_neg (by simp [List.ne_nil_of_mem hoffer])]
    exact ⟨_, rfl, List.mem_append_right _ hfield⟩
  | own hform _ hproperty =>
    obtain ⟨x, hx, _⟩ := List.mem_map.1 hproperty
    rw [offered_eq]
    simp only [hform]
    rw [if_neg (by simp [List.ne_nil_of_mem hx])]
    exact ⟨_, rfl, List.mem_append_left _ hproperty⟩
  | reference hform hname hshows horigin _ ih =>
    obtain ⟨fields, hfields, hshown⟩ := hshows.exists_shown
    obtain ⟨fields', hseen, hfield⟩ := (hr.conversion horigin hfields).offered_iff.1 ih
    cases hseen
    refine ⟨fields.map Field.name, ?_, hfield⟩
    rw [offered_eq]
    simp only [hform, hname, Option.bind_some, hshown, Option.map_some]

/-! ### What is required is what the fields say -/

/-- However the schema was converted, a field that it shows is required exactly if the description
requires it. -/
def FlagsExact (defs : Definitions) (catalog : Catalog) (d : String) (raw : SchemaObject) : Prop :=
  ∀ schema fields, Conversion defs catalog d raw schema →
    seen catalog (finishedBefore defs d) schema = some fields →
    ∀ f ∈ fields, f.required = true ↔ Requires defs catalog d raw f.name

/-- A property is required if it is in the `listed` ones. -/
theorem ConvertedProperties.required_iff {listed : List String}
    {properties : List (String × SchemaObject)} {fields : List (Field Schema)} {f : Field Schema}
    (h : ConvertedProperties defs catalog d listed properties fields) (hf : f ∈ fields) :
    f.required = true ↔ f.name ∈ listed ∧ f.name ∈ names properties := by
  obtain ⟨x, hx, hname, hrequired, _⟩ := forall₂_exists_left h hf
  have hmem : f.name ∈ names properties := hname ▸ List.mem_map_of_mem hx
  rw [hrequired, ← hname, List.contains_iff_mem, and_iff_left hmem]

/-- Each property has its field among the `fields` it was converted to. -/
theorem ConvertedProperties.exists_field {listed : List String}
    {properties : List (String × SchemaObject)} {fields : List (Field Schema)}
    (h : ConvertedProperties defs catalog d listed properties fields)
    (hname : name ∈ names properties) : ∃ f ∈ fields, f.name = name := by
  obtain ⟨x, hx, rfl⟩ := List.mem_map.1 hname
  obtain ⟨f, hf, hname, _⟩ := forall₂_exists_right h hx
  exact ⟨f, hf, hname⟩

/-- `FlagsExact` holds of an object: its own list says which of its properties are required, on both
sides. -/
theorem flagsExact_object {properties : List (String × SchemaObject)}
    (hform : raw.form = .object properties) : FlagsExact defs catalog d raw := by
  intro schema fields h hseen f hf
  have hrule := h.of_form
  simp only [hform] at hrule
  obtain ⟨fields', rfl, hfields⟩ := hrule
  cases hseen
  rw [requires_iff, hform]
  exact hfields.required_iff hf

/-- `FlagsExact` passes from a single member, by `honly`, to the schema that is taken for it. Both
have the same fields, and require the same. -/
theorem flagsExact_decorated (hform : raw.form = .decorated only)
    (honly : FlagsExact defs catalog d only) : FlagsExact defs catalog d raw := by
  intro schema fields h hseen f hf
  have hrule := h.of_form
  simp only [hform] at hrule
  rw [requires_iff]
  simp only [hform]
  exact honly schema fields hrule hseen f hf

/-- A field of an `allOf` is required if it is listed, or was required in one of the parts, for
which `hmembers` says what that means. -/
theorem flagsExact_all (hr : Resolved defs catalog) (hform : raw.form = .all members)
    (hmembers : ∀ member ∈ members, FlagsExact defs catalog d member) :
    FlagsExact defs catalog d raw := by
  intro schema fields h hseen f hf
  have hoffered := h.offered_iff.2 ⟨fields, hseen, List.mem_map_of_mem hf⟩
  have hrule := h.of_form
  simp only [hform] at hrule
  obtain ⟨parts, own, rfl, hparts, hown⟩ := hrule
  rw [exists_of_seen_combineAll hparts.fields_eq (by simp [hseen])] at hseen
  cases hseen
  rw [((combined_mergeFields _).requireNamed raw.required).required f hf, requires_iff]
  simp only [hform]
  constructor
  · -- A merged field is required by the list, by a field of a part or by one of its own.
    rintro (hlisted | ⟨g, hg, hname, hrequired⟩)
    · exact .inl ⟨hlisted, hoffered⟩
    · rcases List.mem_append.1 hg with hg | hg
      · obtain ⟨part, hpart, given, hgiven, hg⟩ := mem_partFields_iff.1 hg
        obtain ⟨member, hmember, hc, hseen⟩ := forall₂_exists_left hparts hpart
        have hrequires := (hmembers member hmember _ given hc (hseen ▸ hgiven) g hg).1 hrequired
        exact .inr ⟨member, hmember, hname ▸ hrequires⟩
      · exact .inl ⟨hname ▸ ((hown.required_iff hg).1 hrequired).1, hoffered⟩
  · rintro (⟨hlisted, _⟩ | ⟨member, hmember, hrequires⟩)
    · exact .inl hlisted
    · -- What the member requires it has a field for, and that field is one of the merged ones.
      obtain ⟨part, hpart, hc, hgiven⟩ := forall₂_exists_right hparts hmember
      obtain ⟨given, hseen, hfield⟩ := hc.offered_iff.1 (hrequires.offered hr)
      obtain ⟨g, hg, hname⟩ := List.mem_map.1 hfield
      have hrequired := (hmembers member hmember _ given hc hseen g hg).2 (hname ▸ hrequires)
      have hmem := mem_partFields_iff.2 ⟨part, hpart, given, hgiven.trans hseen, hg⟩
      exact .inr ⟨g, List.mem_append_left _ hmem, hname, hrequired⟩

/-- A field of variants is required if it is a property of their own that is listed. So nothing
needs to be known of the members. -/
theorem flagsExact_variants (hform : raw.form = .variants members) :
    FlagsExact defs catalog d raw := by
  intro schema fields h hseen f hf
  have hrule := h.of_form
  simp only [hform] at hrule
  obtain ⟨parts, own, rfl, hparts, hown⟩ := hrule
  rw [exists_of_seen_combineVariants hparts.fields_eq (by simp [hseen])] at hseen
  cases hseen
  rw [(combined_mergeFields _).required f hf, requires_iff]
  simp only [hform]
  constructor
  · rintro (hnone | ⟨g, hg, hname, hrequired⟩)
    · cases hnone
    · rcases List.mem_append.1 hg with hg | hg
      · -- The fields of the parts have become optional.
        obtain ⟨part, hpart, given, hgiven, hg⟩ := mem_partFields_iff.1 hg
        obtain ⟨p, _, rfl⟩ := List.mem_map.1 hpart
        obtain ⟨old, _, rfl⟩ := Option.map_eq_some_iff.1 hgiven
        obtain ⟨_, _, rfl⟩ := List.mem_map.1 hg
        cases hrequired
      · exact hname ▸ (hown.required_iff hg).1 hrequired
  · rintro ⟨hlisted, hproperty⟩
    obtain ⟨g, hg, hname⟩ := hown.exists_field hproperty
    exact .inr ⟨g, List.mem_append_right _ hg, hname,
      (hown.required_iff hg).2 (hname ▸ ⟨hlisted, hproperty⟩)⟩

/-- A reference shows the fields of a definition that was finished before, and these are exact by
`hbefore`. -/
theorem flagsExact_reference (hr : Resolved defs catalog) {ref : String}
    (hform : raw.form = .reference ref)
    (hbefore : ∀ source ∈ finishedBefore defs d, ∀ origin, FlagsExact defs catalog source origin) :
    FlagsExact defs catalog d raw := by
  intro schema fields h hseen f hf
  have hrule := h.of_form
  simp only [hform] at hrule
  obtain ⟨n, hname, ⟨hn, target, hget, rfl⟩ | ⟨hnot, _, rfl⟩⟩ := hrule
  · rw [requires_iff]
    simp only [hform]
    constructor
    · intro hrequired
      obtain ⟨source, hshows⟩ := exists_shows ((seen_referenceTo hn hget).symm.trans hseen)
      obtain ⟨fields', hfields, hseen'⟩ := hshows.seen_eq hget
      cases hseen.symm.trans hseen'
      -- What is shown are the fields of the source, as they were when that was finished.
      obtain ⟨origin, horigin⟩ := hr.exists_raw hfields
      exact ⟨n, source, origin, hname, hshows, horigin,
        (hbefore source hshows.2.1 origin _ fields (hr.conversion horigin hfields) rfl f hf).1
          hrequired⟩
    · rintro ⟨n', source, origin, hname', hshows, horigin, hrequires⟩
      cases hname.symm.trans hname'
      obtain ⟨fields', hfields, hseen'⟩ := hshows.seen_eq hget
      cases hseen.symm.trans hseen'
      exact (hbefore source hshows.2.1 origin _ fields (hr.conversion horigin hfields) rfl f hf).2
        hrequires
  · -- A bare reference to something that is not finished shows no fields.
    rw [seen, if_neg hnot] at hseen
    cases hseen

/-- The fields of whatever is converted are required exactly if the description `Requires` them. -/
theorem flagsExact (hr : Resolved defs catalog) (d : String) (raw : SchemaObject) :
    FlagsExact defs catalog d raw := by
  -- A composition sees nothing that was finished later, and stands outside of its members.
  generalize hlength : (finishedBefore defs d).length = length
  induction length using Nat.strong_induction_on generalizing d raw with
  | _ length ih =>
    induction raw using SchemaObject.parts_induction with
    | step raw ihparts =>
      cases hform : raw.form with
      | reference ref =>
        exact flagsExact_reference hr hform fun source hsource origin =>
          ih _ (hlength ▸ length_finishedBefore_lt hsource) source origin rfl
      | decorated only =>
        exact flagsExact_decorated hform (ihparts only (by simp [SchemaObject.parts, hform]))
      | all members =>
        exact flagsExact_all hr hform fun member hmember =>
          ihparts member (mem_parts_of_member (.inl hform) hmember)
      | variants members => exact flagsExact_variants hform
      | object properties => exact flagsExact_object hform
      | enumeration | map | freeMap | array | scalar =>
        -- Nothing else has any fields to show.
        intro schema fields h hseen
        have hoffered := h.offers.ne_none_iff.1 (by simp [hseen])
        rw [offered_eq] at hoffered
        simp only [hform] at hoffered
        exact absurd rfl hoffered

/-! ### The list of an `allOf` -/

/-- A definition that stands for an object has exactly the fields required that are required by the
definition at the end of its chain of names, its `Home`. -/
theorem required_iff_of_home (hr : Resolved defs catalog) (hhome : Home catalog d home)
    (horigin : defs.get? home = some origin) {fields : List (Field Schema)}
    (htarget : catalog.target? d = some (.object fields)) {f : Field Schema} (hf : f ∈ fields) :
    f.required = true ↔ Requires defs catalog home origin f.name :=
  flagsExact hr home origin _ fields (hr.conversion horigin (hhome.get?_eq htarget)) rfl f hf

/-- The definition, which is all of other schemas, stands for something behind it that requires the
field without any regard to its own list. -/
inductive RequiredBehind (defs : Definitions) (catalog : Catalog) (d : String) (raw : SchemaObject)
    (name : String) : Prop
  /-- It is taken for its only member, and that requires the field. -/
  | only {only : SchemaObject} (hform : raw.form = .decorated only)
      (hobject : ∃ all, catalog.get? d = some (.object all))
      (hrequires : Requires defs catalog d only name)
  /-- It is another name of a definition that requires the field. -/
  | renamed {next home : String} {origin : SchemaObject}
      (hget : catalog.get? d = some (.reference next)) (hhome : Home catalog next home)
      (horigin : defs.get? home = some origin)
      (hrequires : Requires defs catalog home origin name) : RequiredBehind defs catalog d raw name

section
variable {fields : List (Field Schema)} {f : Field Schema}

/-- An `allOf` that is not merged, by `h`, is taken for its only member. -/
theorem exists_form_decorated (href : raw.ref = none) (hall : raw.allOf ≠ [])
    (h : ¬(2 ≤ raw.allOf.length ∨ raw.properties ≠ [])) : ∃ only, raw.form = .decorated only := by
  rw [not_or, not_not] at h
  rw [SchemaObject.form, href]
  rcases hmembers : raw.allOf with _ | ⟨only, _ | ⟨second, rest⟩⟩
  · exact absurd hmembers hall
  · exact ⟨only, by simp [h.2]⟩
  · simp [hmembers] at h

/-- Where an `allOf` is merged into an object, what it lists is required. -/
theorem required_of_listed (hr : Resolved defs catalog) (hraw : defs.get? d = some raw)
    (hform : raw.form = .all members) (hget : catalog.get? d = some (.object fields))
    (hf : f ∈ fields) (hlisted : f.name ∈ raw.required) : f.required = true := by
  have hc := hr.conversion hraw hget
  -- A field that it has was offered to it, so it may be listed.
  obtain ⟨offer, hoffer, hfield⟩ := hc.offered_iff.2 ⟨fields, rfl, List.mem_map_of_mem hf⟩
  exact (flagsExact hr d raw _ fields hc rfl f hf).2 (.listed hform hlisted hoffer hfield)

/-- Where it is not, only what stands behind it counts, which `RequiredBehind` is. -/
theorem required_iff_behind (hr : Resolved defs catalog) (hraw : defs.get? d = some raw)
    (hnot : ∀ all, catalog.get? d = some (.object all) → ∃ only, raw.form = .decorated only)
    (htarget : catalog.target? d = some (.object fields)) (hf : f ∈ fields) :
    f.required = true ↔ RequiredBehind defs catalog d raw f.name := by
  constructor
  · intro hrequired
    obtain ⟨home, hhome⟩ := exists_home htarget
    -- The definition is the object itself, and then it is decorated, or it is another name for one.
    cases hhome with
    | here hget =>
      obtain ⟨only, hform⟩ := hnot _ hget
      have hrequires := (required_iff_of_home hr (.here hget) hraw htarget hf).1 hrequired
      rw [requires_iff, hform] at hrequires
      exact .only hform ⟨_, hget⟩ hrequires
    | renamed hget hnext =>
      obtain ⟨_, hobject⟩ := hnext.exists_fields
      obtain ⟨origin, horigin⟩ := hr.exists_raw hobject
      exact .renamed hget hnext horigin
        ((required_iff_of_home hr (.renamed hget hnext) horigin htarget hf).1 hrequired)
  · rintro (⟨hform, ⟨_, hget⟩, hrequires⟩ | ⟨hget, hhome, horigin, hrequires⟩)
    · exact (required_iff_of_home hr (.here hget) hraw htarget hf).2 (.decorated hform hrequires)
    · exact (required_iff_of_home hr (.renamed hget hhome) horigin htarget hf).2 hrequires

end

/-- All fields that an `allOf` lists are required exactly if it is merged from several members or
with properties of its own, and that makes an object, or each of those fields is required anyway by
what the definition is taken for. -/
theorem listed_required_iff (h : resolveAll defs = .ok catalog) {d : String} {raw : SchemaObject}
    {fields : List (Field Schema)} (hraw : defs.get? d = some raw) (href : raw.ref = none)
    (hall : raw.allOf ≠ []) (htarget : catalog.target? d = some (.object fields)) :
    (∀ f ∈ fields, f.name ∈ raw.required → f.required = true) ↔
      ((2 ≤ raw.allOf.length ∨ raw.properties ≠ []) ∧
          ∃ all, catalog.get? d = some (.object all)) ∨
        ∀ f ∈ fields, f.name ∈ raw.required → RequiredBehind defs catalog d raw f.name := by
  have hr := resolved_of_resolveAll h
  -- A merged composition requires what it lists, so in that case both sides hold.
  by_cases hmerged : (2 ≤ raw.allOf.length ∨ raw.properties ≠ []) ∧
      ∃ all, catalog.get? d = some (.object all)
  · refine iff_of_true (fun f hf hlisted => ?_) (.inl hmerged)
    obtain ⟨hmerges, all, hget⟩ := hmerged
    cases htarget.symm.trans (Catalog.target?_of_isNamed hget rfl)
    have hform := form_eq_all href (hmerges.imp_right fun hown => ⟨hall, hown⟩)
    exact required_of_listed hr hraw hform hget hf hlisted
  · rw [or_iff_right hmerged]
    -- Otherwise its own list is dropped with the rest of it.
    have hnot (all : List (Field Schema)) (hget : catalog.get? d = some (.object all)) :
        ∃ only, raw.form = .decorated only :=
      exists_form_decorated href hall fun hmerges => hmerged ⟨hmerges, all, hget⟩
    exact forall₂_congr fun f hf =>
      imp_congr_right fun _ => required_iff_behind hr hraw hnot htarget hf

/-! ### Widgets and crates

A widget is a base with a size, and a crate is only a decorated object with a label. Both list a
field of a member. -/

namespace Crates

def base : SchemaObject where
  properties := [("id", { type := some (.single "string") })]

def sized : SchemaObject where
  properties := [("size", { type := some (.single "integer") })]

def widget : SchemaObject where
  allOf := [{ ref := "#/definitions/Base" }, sized]
  required := ["size"]

def labelled : SchemaObject where
  properties := [("label", { type := some (.single "string") })]

def crate : SchemaObject where
  allOf := [labelled]
  required := ["label"]

def definitions : Definitions := .ofList [("Base", base), ("Widget", widget), ("Crate", crate)]

def widgetFields : List (Field Schema) :=
  [⟨"id", .primitive .string, false⟩, ⟨"size", .primitive .integer, true⟩]

def schemas : Catalog :=
  .ofList [("Base", .object [⟨"id", .primitive .string, false⟩]),
    ("Widget", .object widgetFields), ("Crate", .object [⟨"label", .primitive .string, false⟩])]

/-- The definitions of widgets and crates resolve to `schemas`, in which only the size is required.
-/
theorem resolveAll_definitions : resolveAll definitions = .ok schemas := by cbv

end Crates

/-- The size that a widget lists is required. -/
theorem widget_size_required :
    Crates.schemas.target? "Widget" = some (.object Crates.widgetFields) ∧
    ∀ f ∈ Crates.widgetFields, f.name ∈ Crates.widget.required → f.required = true := by
  have htarget : Crates.schemas.target? "Widget" = some (.object Crates.widgetFields) := by cbv
  refine ⟨htarget, (listed_required_iff Crates.resolveAll_definitions
    (show Crates.definitions.get? "Widget" = some Crates.widget by cbv) rfl (by simp [Crates.widget])
    htarget).2 (.inl ⟨.inl (by simp [Crates.widget]), Crates.widgetFields, by cbv⟩)⟩

/-- The label that a crate lists is not. -/
theorem crate_label_optional :
    ¬∀ (defs : Definitions) (catalog : Catalog), resolveAll defs = .ok catalog →
      ∀ (d : String) (raw : SchemaObject) (fields : List (Field Schema)),
        defs.get? d = some raw → raw.ref = none → raw.allOf ≠ [] →
        catalog.target? d = some (.object fields) →
        ∀ f ∈ fields, f.name ∈ raw.required → f.required = true := by
  intro h
  have hlabel := h Crates.definitions Crates.schemas Crates.resolveAll_definitions "Crate"
    Crates.crate [⟨"label", .primitive .string, false⟩] (by cbv) rfl (by simp [Crates.crate])
    (by cbv) _ List.mem_cons_self (by simp [Crates.crate])
  cases hlabel

end ControllerTypes.Resolution
