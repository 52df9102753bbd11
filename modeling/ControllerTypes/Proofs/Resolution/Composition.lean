import ControllerTypes.Proofs.Resolution.Offered
import Mathlib

/-!
# `ControllerTypes.Proofs.Resolution.Composition`: which fields a composition gets

A composition has its own fields and those that its members offer (`composition_fields`), and a
reference to a definition offers the fields of that definition only if they are shown: it must have
been finished before the composition.

`member_fields_kept_iff` is the consequence for a single member: the composition has all its fields
exactly if the member shows them, or if the other members and the composition itself happen to have
fields of the same names.

So the order of the definitions matters. `snapshot_loses_fields` is a description in which a
composition is converted inside of its own member, because a field of the member refers back to it.
It loses the fields of that member.
-/

set_option autoImplicit false

namespace ControllerTypes.Resolution

open Document Named

variable {defs : Definitions} {catalog : Catalog} {before active : List String} {m m' v : Memo}
  {raw : SchemaObject} {schema : Schema}

/-! ### The members of a composition -/

/-- The schema is a composition of these members and has these properties of its own. -/
inductive Composes : SchemaObject → List SchemaObject → List (String × SchemaObject) → Prop where
  | all {raw : SchemaObject} {members : List SchemaObject} (hform : raw.form = .all members) :
      Composes raw members raw.properties
  | variants {raw : SchemaObject} {members : List SchemaObject}
      (hform : raw.form = .variants members) : Composes raw members raw.properties
  | decorated {raw only : SchemaObject} {members : List SchemaObject}
      {own : List (String × SchemaObject)} (hform : raw.form = .decorated only)
      (honly : Composes only members own) : Composes raw members own

section
variable {members : List SchemaObject} {own : List (String × SchemaObject)}

/-- A conversion of a composition puts together what its members offer. -/
theorem Resolves.composed (h : Resolves defs active (.schema raw schema) m m')
    (hc : Composes raw members own) (ha : m.Apart active) (hk : m.Known active)
    (he : m'.Extends v) (hv : View catalog before active v) :
    ∃ parts fields, PartsOffer catalog before v members parts ∧
      fields.map Field.name = names own ∧ Composed parts fields schema := by
  -- A composition may stand inside of a decorated one, whose conversion it is then.
  induction hc generalizing m m' with
  | all hform =>
    have hrule := h.of_form
    simp only [hform] at hrule
    obtain ⟨parts, fields, m₁, rfl, hmembers, hown⟩ := hrule
    have ha₁ := hmembers.apart ha
    exact ⟨parts, fields, hmembers.offers ha hk ((hown.extends ha₁).trans he) hv,
      hown.offers ha₁ (hmembers.known ha hk).1 he hv, composed_combineAll _ _ _⟩
  | variants hform =>
    have hrule := h.of_form
    simp only [hform] at hrule
    obtain ⟨parts, fields, m₁, rfl, hmembers, hown⟩ := hrule
    have ha₁ := hmembers.apart ha
    exact ⟨parts, fields, hmembers.offers ha hk ((hown.extends ha₁).trans he) hv,
      hown.offers ha₁ (hmembers.known ha hk).1 he hv, composed_combineVariants _ _⟩
  | decorated hform _ ih =>
    have honly := h.of_form
    simp only [hform] at honly
    exact ih honly ha hk he

/-- What a definition shows is what it stands for, if anything. -/
theorem target?_of_shown {n : String} {fields : List (Field Schema)}
    (h : shown catalog before n = some fields) : catalog.target? n = some (.object fields) := by
  unfold shown at h
  split at h
  · split at h
    · next hget =>
      cases h
      exact Catalog.target?_of_isNamed hget rfl
    · -- A definition that is a reference shows what it refers to.
      next target hget =>
      split at h
      · obtain ⟨schema, hnext, hfields⟩ := Option.bind_eq_some_iff.1 h
        cases schema with
        | object =>
          cases hfields
          exact Catalog.target?_of_reference hget hnext rfl
        | _ => cases hfields
      · cases h
    · cases h
  · cases h

/-- The fields of a composition are its own and those that its members offer. It is an object if
there is anything that can have fields. -/
theorem composition_fields (h : resolveAll defs = .ok catalog) {d : String}
    (hraw : defs.get? d = some raw) (hcomposes : Composes raw members own) :
    ((∃ all, catalog.get? d = some (.object all)) ↔
      own ≠ [] ∨ ∃ other ∈ members, offered catalog (finishedBefore defs d) other ≠ none) ∧
    ∀ all, catalog.get? d = some (.object all) → ∀ name, name ∈ all.map Field.name ↔
      name ∈ names own ∨ ∃ other ∈ members, ∃ offer,
        offered catalog (finishedBefore defs d) other = some offer ∧ name ∈ offer := by
  have hr := resolved_of_resolveAll h
  obtain ⟨schema, hget⟩ := Table.mem_names_iff.1 (hr.names_eq ▸ Table.mem_names_of_get? hraw)
  -- The schema of the definition is the answer of one conversion, which put parts together.
  obtain ⟨raw', active, m, m', hentered⟩ := hr.converted d schema hget
  obtain rfl : raw = raw' := Option.some.inj (hraw.symm.trans hentered.raw_eq)
  obtain ⟨parts, ownFields, hparts, hown, hcomposed⟩ := hentered.converted.composed hcomposes
    hentered.apart hentered.known (.refl _) (hentered.view hr)
  have hnil : ownFields = [] ↔ own = [] := by
    rw [← List.map_eq_nil_iff (f := Field.name), hown]
    exact List.map_eq_nil_iff
  rw [hget]
  -- The result is an object with all names, or no part offers any.
  rcases hcomposed with ⟨hobject, all, rfl, hnames⟩ | ⟨hnone, hempty, hresult⟩
  · constructor
    · refine iff_of_true ⟨all, rfl⟩ ?_
      exact hobject.symm.imp (fun hne heq => hne (hnil.2 heq)) hparts.exists_object_iff.1
    · rintro _ ⟨⟩ name
      rw [hnames, hown, hparts.exists_has_iff]
  · have hplain (all : List (Field Schema)) : some schema ≠ some (.object all) := by
      rintro ⟨⟩
      rcases hresult with ⟨detail, heq⟩ | ⟨part, hpart, heq⟩
      · cases heq
      · -- A part that is an object has fields.
        have hfields := hparts.fields_eq hpart
        rw [hnone part hpart, heq] at hfields
        cases hfields
    constructor
    · refine iff_of_false (not_exists.2 hplain) ?_
      rintro (hne | hoffered)
      · exact hne (hnil.1 hempty)
      · obtain ⟨part, hpart, hfields⟩ := hparts.exists_object_iff.2 hoffered
        exact hfields (hnone part hpart)
    · exact fun all heq => absurd heq (hplain all)

/-- A member that is a reference offers the names of what its definition shows. -/
theorem offered_of_reference {before : List String} {n ref : String} {member : SchemaObject}
    (hform : member.form = .reference ref) (hname : definitionName? ref = some n) :
    offered catalog before member =
      (shown catalog before n).map fun fields => fields.map Field.name := by
  rw [offered_eq, hform]
  simp only [hname, Option.bind_some]

/-- A composition has all fields that the definition of a member shows to it. -/
theorem fields_kept_of_shown (h : resolveAll defs = .ok catalog) {d n ref : String}
    {member : SchemaObject} {fields : List (Field Schema)} (hraw : defs.get? d = some raw)
    (hcomposes : Composes raw members own) (hmember : member ∈ members)
    (hform : member.form = .reference ref) (hname : definitionName? ref = some n)
    (hshown : shown catalog (finishedBefore defs d) n = some fields) :
    ∃ all, catalog.get? d = some (.object all) ∧ ∀ f ∈ fields, f.name ∈ all.map Field.name := by
  obtain ⟨hobject, hnames⟩ := composition_fields h hraw hcomposes
  have hoffered : offered catalog (finishedBefore defs d) member =
      some (fields.map Field.name) := by
    rw [offered_of_reference hform hname, hshown, Option.map_some]
  -- The member is seen as an object, so the composition is one.
  obtain ⟨all, hall⟩ := hobject.2 (.inr ⟨member, hmember, by rw [hoffered]; simp⟩)
  refine ⟨all, hall, ?_⟩
  intro f hf
  exact (hnames all hall f.name).2
    (.inr ⟨member, hmember, _, hoffered, List.mem_map_of_mem hf⟩)

/-- A member that is a reference to an object keeps its fields in the composition exactly if the
definition shows them to it, or if they are there without this member: the composition is an object
anyway, and each of the fields is one of its own or is offered by another member. -/
theorem member_fields_kept_iff (h : resolveAll defs = .ok catalog) {d n ref : String}
    {member : SchemaObject} {fields : List (Field Schema)} (hraw : defs.get? d = some raw)
    (hcomposes : Composes raw members own) (hmember : member ∈ members)
    (hform : member.form = .reference ref) (hname : definitionName? ref = some n)
    (htarget : catalog.target? n = some (.object fields)) :
    (∃ all, catalog.get? d = some (.object all) ∧
        ∀ f ∈ fields, f.name ∈ all.map Field.name) ↔
      shown catalog (finishedBefore defs d) n = some fields ∨
      (own ≠ [] ∨ ∃ other ∈ members, offered catalog (finishedBefore defs d) other ≠ none) ∧
        ∀ f ∈ fields, f.name ∈ names own ∨ ∃ other ∈ members, other ≠ member ∧
          ∃ offer, offered catalog (finishedBefore defs d) other = some offer ∧
            f.name ∈ offer := by
  obtain ⟨hobject, hnames⟩ := composition_fields h hraw hcomposes
  constructor
  · rintro ⟨all, hall, hkept⟩
    -- The definition shows nothing but the fields of what it stands for.
    cases hshown : shown catalog (finishedBefore defs d) n with
    | some shownFields =>
      cases (target?_of_shown hshown).symm.trans htarget
      exact .inl rfl
    | none =>
      refine .inr ⟨hobject.1 ⟨all, hall⟩, ?_⟩
      intro f hf
      refine ((hnames all hall f.name).1 (hkept f hf)).imp_right ?_
      rintro ⟨other, hother, offer, hoffer, hmem⟩
      refine ⟨other, hother, ?_, offer, hoffer, hmem⟩
      rintro rfl
      rw [offered_of_reference hform hname, hshown] at hoffer
      cases hoffer
  · rintro (hshown | ⟨hothers, hcovered⟩)
    · exact fields_kept_of_shown h hraw hcomposes hmember hform hname hshown
    · -- Otherwise it is an object by the others, and they have the names.
      obtain ⟨all, hall⟩ := hobject.2 hothers
      refine ⟨all, hall, ?_⟩
      intro f hf
      refine (hnames all hall f.name).2 ((hcovered f hf).imp_right ?_)
      rintro ⟨other, hother, _, offer, hoffer, hmem⟩
      exact ⟨other, hother, offer, hoffer, hmem⟩

end

/-! ### A composition inside of its own member

A snapshot is a volume with a time, and a volume knows its snapshot. Where the volume comes first,
the snapshot is converted inside of it and sees none of its fields. -/

namespace Backup

def volume : SchemaObject where
  properties := [("snapshot", { ref := "#/definitions/Snapshot" }),
    ("size", { type := some (.single "integer") })]

def reference : SchemaObject where
  ref := "#/definitions/Volume"

def time : SchemaObject where
  properties := [("time", { type := some (.single "string") })]

def snapshot : SchemaObject where
  allOf := [reference, time]

/-- The volume comes first. -/
def definitions : Definitions := .ofList [("Volume", volume), ("Snapshot", snapshot)]

/-- The snapshot comes first. -/
def reordered : Definitions := .ofList [("Snapshot", snapshot), ("Volume", volume)]

/-- The fields of a volume. -/
def volumeFields : List (Field Schema) :=
  [⟨"snapshot", .reference "Snapshot", false⟩, ⟨"size", .primitive .integer, false⟩]

def schemas : Catalog :=
  .ofList [("Volume", .object volumeFields),
    ("Snapshot", .object [⟨"time", .primitive .string, false⟩])]

def reorderedSchemas : Catalog :=
  .ofList [("Snapshot", .object (volumeFields ++ [⟨"time", .primitive .string, false⟩])),
    ("Volume", .object volumeFields)]

/-- Where the volume comes first, the snapshot has only its own field. -/
theorem resolveAll_definitions : resolveAll definitions = .ok schemas := by cbv

/-- Where the snapshot comes first, it has the fields of the volume as well. -/
theorem resolveAll_reordered : resolveAll reordered = .ok reorderedSchemas := by cbv

end Backup

/-- A snapshot that comes first has the fields of a volume. -/
theorem reordered_snapshot_keeps_fields :
    Backup.snapshot.form = .all [Backup.reference, Backup.time] ∧
    ∃ all, Backup.reorderedSchemas.get? "Snapshot" = some (.object all) ∧
      ∀ f ∈ Backup.volumeFields, f.name ∈ all.map Field.name := by
  have hform : Backup.snapshot.form = .all [Backup.reference, Backup.time] := by cbv
  refine ⟨hform, (member_fields_kept_iff Backup.resolveAll_reordered (by cbv) (.all hform)
    List.mem_cons_self (show Backup.reference.form = .reference "#/definitions/Volume" by cbv)
    (show definitionName? "#/definitions/Volume" = some "Volume" by cbv) (by cbv)).2 (.inl ?_)⟩
  cbv

/-- The schema is an alias of the definition, or has it among its members at any depth. -/
inductive ComposedOf : SchemaObject → String → Prop where
  | reference {raw : SchemaObject} {ref name : String} (hform : raw.form = .reference ref)
      (hname : definitionName? ref = some name) : ComposedOf raw name
  | decorated {raw only : SchemaObject} {name : String} (hform : raw.form = .decorated only)
      (honly : ComposedOf only name) : ComposedOf raw name
  | member {raw member : SchemaObject} {members : List SchemaObject} {name : String}
      (hform : raw.form = .all members ∨ raw.form = .variants members) (hmember : member ∈ members)
      (hcomposed : ComposedOf member name) : ComposedOf raw name

/-- One definition is composed of another. -/
def CompositionStep (defs : Definitions) (d n : String) : Prop :=
  ∃ raw, defs.get? d = some raw ∧ ComposedOf raw n

/-- An object is composed of nothing. -/
theorem not_composedOf_object {properties : List (String × SchemaObject)} {n : String}
    (hform : raw.form = .object properties) : ¬ ComposedOf raw n := by
  intro h
  cases h with
  | reference hform' => rw [hform] at hform'; cases hform'
  | decorated hform' => rw [hform] at hform'; cases hform'
  | member hform' => rw [hform] at hform'; rcases hform' with h | h <;> cases h

/-- A composition can lose the fields of a member, although that is not composed of it. -/
theorem snapshot_loses_fields :
    ¬ ∀ (defs : Definitions) (catalog : Catalog), resolveAll defs = .ok catalog →
      ∀ (d n ref : String) (raw member : SchemaObject) (members : List SchemaObject)
        (own : List (String × SchemaObject)) (fields : List (Field Schema)),
        defs.get? d = some raw → Composes raw members own → member ∈ members →
        member.form = .reference ref → definitionName? ref = some n →
        catalog.target? n = some (.object fields) →
        ¬ Relation.ReflTransGen (CompositionStep defs) n d →
        ∃ all, catalog.get? d = some (.object all) ∧
          ∀ f ∈ fields, f.name ∈ all.map Field.name := by
  intro halways
  have hform : Backup.snapshot.form = .all [Backup.reference, Backup.time] := by cbv
  have hvolume : Backup.volume.form = .object Backup.volume.properties := by cbv
  -- A volume is an object, so it is composed of nothing, in particular not of a snapshot.
  have hapart : ¬ Relation.ReflTransGen (CompositionStep Backup.definitions)
      "Volume" "Snapshot" := by
    intro hpath
    rcases hpath.cases_head with heq | ⟨next, ⟨raw, hraw, hcomposed⟩, _⟩
    · exact absurd heq (by decide)
    · have hget : Backup.definitions.get? "Volume" = some Backup.volume := by cbv
      cases hraw.symm.trans hget
      exact not_composedOf_object hvolume hcomposed
  obtain ⟨all, hall, hkept⟩ := halways Backup.definitions Backup.schemas
    Backup.resolveAll_definitions "Snapshot" "Volume" "#/definitions/Volume" Backup.snapshot
    Backup.reference _ _ Backup.volumeFields (by cbv) (.all hform) List.mem_cons_self (by cbv)
    (by cbv) (by cbv) hapart
  have hget : Backup.schemas.get? "Snapshot"
      = some (.object [⟨"time", .primitive .string, false⟩]) := by cbv
  cases hall.symm.trans hget
  exact absurd (hkept ⟨"size", .primitive .integer, false⟩ (by simp [Backup.volumeFields]))
    (by decide)

end ControllerTypes.Resolution
