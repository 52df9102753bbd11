import ControllerTypes.Proofs.Resolution.Conversion
import ControllerTypes.Proofs.Resolution.Region

/-!
# `ControllerTypes.Proofs.Resolution.Complete`: when definitions can be worked out

The only thing that can go wrong in a conversion is a reference to something that is not there. The
parts of a schema that count for its form are its `parts`, and a schema is `Complete` if every
reference in it, in its parts, in their parts and so on names a definition. The resolver succeeds on
complete definitions whatever it remembers and wherever it is (`total`), and it succeeds on no
others (`Conversion.complete`).

So the order of the definitions has no say in whether they can be worked out
(`exists_workedOut_iff`).
-/

set_option autoImplicit false

namespace ControllerTypes

open Document

namespace Document.SchemaObject

/-- The `parts` of a schema are smaller than the schema. -/
theorem sizeOf_lt_of_mem_parts {raw part : SchemaObject} (h : part ∈ raw.parts) :
    sizeOf part < sizeOf raw := by
  have hbelow := raw.form_below
  have hproperties := raw.sizeOf_properties_lt
  have hvalue {properties : List (String × SchemaObject)}
      (hmem : part ∈ properties.map Prod.snd) : sizeOf part < sizeOf properties := by
    obtain ⟨x, hx, rfl⟩ := List.mem_map.1 hmem
    have hlt := List.sizeOf_lt_of_mem hx
    rw [Prod.mk.sizeOf_spec] at hlt
    omega
  unfold parts at h
  -- The parts are members of lists that `form_below` bounds, or the own properties of a
  -- composition.
  cases hform : raw.form with
  | decorated inner | map inner | array inner =>
    rw [hform] at h hbelow
    exact List.mem_singleton.1 h ▸ hbelow
  | all members | variants members =>
    rw [hform] at h hbelow
    rcases List.mem_append.1 h with hmember | hown
    · exact Nat.lt_trans (List.sizeOf_lt_of_mem hmember) hbelow
    · exact Nat.lt_trans (hvalue hown) hproperties
  | object properties =>
    rw [hform] at h hbelow
    exact Nat.lt_trans (hvalue h) hbelow
  | reference | enumeration | freeMap | scalar =>
    rw [hform] at h
    cases h

/-- What passes from the parts of a schema to the schema holds of all schemas. -/
theorem parts_induction {P : SchemaObject → Prop}
    (step : ∀ raw : SchemaObject, (∀ part ∈ raw.parts, P part) → P raw) (raw : SchemaObject) :
    P raw :=
  step raw fun part _ => parts_induction step part
termination_by sizeOf raw
decreasing_by exact sizeOf_lt_of_mem_parts (by assumption)

end Document.SchemaObject

namespace Resolution

open Named Relation Run

variable {defs defs' : Definitions} {catalog : Catalog} {d n : String} {raw part : SchemaObject}
  {schema : Schema}

/-- The members of a composition are parts of it. -/
theorem mem_parts_of_member {member : SchemaObject} {members : List SchemaObject}
    (hform : raw.form = .all members ∨ raw.form = .variants members)
    (hmember : member ∈ members) : member ∈ raw.parts := by
  rcases hform with hform | hform <;>
    exact SchemaObject.parts.eq_def raw ▸ hform ▸ List.mem_append_left _ hmember

/-- The own properties of a composition are parts of it. -/
theorem mem_parts_of_own {members : List SchemaObject} {property : String × SchemaObject}
    (hform : raw.form = .all members ∨ raw.form = .variants members)
    (hproperty : property ∈ raw.properties) : property.2 ∈ raw.parts := by
  rcases hform with hform | hform <;>
    exact SchemaObject.parts.eq_def raw ▸ hform ▸
      List.mem_append_right _ (List.mem_map_of_mem hproperty)

/-- A schema mentions what its parts mention. -/
theorem Mentions.of_mem_parts (hpart : part ∈ raw.parts) (h : Mentions part n) :
    Mentions raw n := by
  unfold SchemaObject.parts at hpart
  cases hform : raw.form with
  | decorated =>
    rw [hform] at hpart
    exact .decorated hform (List.mem_singleton.1 hpart ▸ h)
  | map =>
    rw [hform] at hpart
    exact .values hform (List.mem_singleton.1 hpart ▸ h)
  | array =>
    rw [hform] at hpart
    exact .items hform (List.mem_singleton.1 hpart ▸ h)
  | all members =>
    rw [hform] at hpart
    rcases List.mem_append.1 hpart with hmember | hown
    · exact .member (.inl hform) hmember h
    · obtain ⟨x, hx, rfl⟩ := List.mem_map.1 hown
      exact .own (.inl hform) hx h
  | variants members =>
    rw [hform] at hpart
    rcases List.mem_append.1 hpart with hmember | hown
    · exact .member (.inr hform) hmember h
    · obtain ⟨x, hx, rfl⟩ := List.mem_map.1 hown
      exact .own (.inr hform) hx h
  | object properties =>
    rw [hform] at hpart
    obtain ⟨x, hx, rfl⟩ := List.mem_map.1 hpart
    exact .property hform hx h
  | reference | enumeration | freeMap | scalar =>
    rw [hform] at hpart
    cases hpart

/-- All references in the schema, at whatever depth, name definitions. -/
inductive Complete (defs : Definitions) : SchemaObject → Prop where
  | intro {raw : SchemaObject}
      (named : ∀ ref, raw.form = .reference ref →
        ∃ n, definitionName? ref = some n ∧ n ∈ defs.names)
      (parts : ∀ part ∈ raw.parts, Complete defs part) : Complete defs raw

/-- Whether a schema is `Complete` does not depend on the order of the definitions. -/
theorem complete_congr (hsame : ∀ n, defs.get? n = defs'.get? n) (h : Complete defs raw) :
    Complete defs' raw := by
  induction h with
  | intro hnamed _ ih =>
    refine ⟨fun ref hform => ?_, ih⟩
    obtain ⟨n, hname, hmem⟩ := hnamed ref hform
    refine ⟨n, hname, ?_⟩
    rwa [Table.mem_names_iff, hsame, ← Table.mem_names_iff] at hmem

/-! ### Complete definitions are worked out -/

/-- If all definitions are `Complete`, the resolver succeeds on each of them, whatever it remembers.
-/
theorem total (hdefs : ∀ d raw, defs.get? d = some raw → Complete defs raw) {name : String}
    (hmem : name ∈ defs.names) (active : List String) : Total (resolve defs active name) := by
  -- A region of complete schemas has no broken reference in it.
  let region : Region defs :=
    { names := fun _ => True
      schemas := Complete defs
      definition := fun _ hraw => hdefs _ _ hraw
      part := fun ⟨_, hparts⟩ hpart => hparts _ hpart
      target := fun _ _ _ _ => trivial }
  refine (region.holds Total.composable fun raw ref x hraw hform hbroken => ?_).1 active name
    (fun _ => trivial) fun hmissing => absurd hmem hmissing
  obtain ⟨hnamed, _⟩ := hraw
  exact absurd hbroken (Names.not_broken (hnamed ref hform))

/-- Definitions that are all `Complete` are worked out. -/
theorem exists_workedOut (hdefs : ∀ d raw, defs.get? d = some raw → Complete defs raw) :
    ∃ catalog, WorkedOut defs catalog := by
  obtain ⟨answers, m, hrun⟩ :=
    Total.composable.resolveEach (fun n (hn : n ∈ defs.names) => total hdefs hn []) {}
  have hmemo : finalMemo defs = m := congrArg Prod.snd hrun
  exact ⟨.ofList answers, answers, hmemo ▸ hrun, rfl⟩

/-! ### What is worked out is complete -/

/-- The `parts` of what was converted were converted. -/
theorem Conversion.exists_of_mem_parts (h : Conversion defs catalog d raw schema)
    (hpart : part ∈ raw.parts) : ∃ schema, Conversion defs catalog d part schema := by
  -- Properties are converted one by one.
  have hproperties {required : List String} {properties : List (String × SchemaObject)}
      {fields : List (Field Schema)}
      (hfields : ConvertedProperties defs catalog d required properties fields)
      (hmem : part ∈ properties.map Prod.snd) :
      ∃ schema, Conversion defs catalog d part schema := by
    obtain ⟨x, hx, rfl⟩ := List.mem_map.1 hmem
    obtain ⟨f, _, _, _, hconverted⟩ := forall₂_exists_right hfields hx
    exact ⟨f.schema, hconverted⟩
  have hrule := h.of_form
  unfold SchemaObject.parts at hpart
  generalize raw.form = form at hrule hpart
  cases form with
  | decorated =>
    exact ⟨_, List.mem_singleton.1 hpart ▸ hrule⟩
  | map | array =>
    obtain ⟨inner, _, hinner⟩ := hrule
    exact ⟨inner, List.mem_singleton.1 hpart ▸ hinner⟩
  | all members | variants members =>
    obtain ⟨parts, own, _, hmembers, hown⟩ := hrule
    rcases List.mem_append.1 hpart with hmember | hproperty
    · obtain ⟨part, _, hmember, _⟩ := forall₂_exists_right hmembers hmember
      exact ⟨part.schema, hmember⟩
    · exact hproperties hown hproperty
  | object properties =>
    obtain ⟨fields, _, hfields⟩ := hrule
    exact hproperties hfields hpart
  | reference | enumeration | freeMap | scalar => cases hpart

/-- What leads to a definition along `Refers` is a definition. -/
theorem mem_names_of_leads (h : ReflTransGen (Refers defs) n d) (hd : d ∈ defs.names) :
    n ∈ defs.names := by
  rcases ReflTransGen.cases_head h with rfl | ⟨_, ⟨_, hraw, _⟩, _⟩
  · exact hd
  · exact Table.mem_names_of_get? hraw

/-- What was converted is `Complete`. -/
theorem Conversion.complete (hr : Resolved defs catalog) (hd : d ∈ defs.names)
    (h : Conversion defs catalog d raw schema) : Complete defs raw := by
  induction raw using SchemaObject.parts_induction generalizing schema with
  | step raw ih =>
    refine ⟨?_, fun part hpart => ?_⟩
    · intro ref hform
      have hrule := h.of_form
      simp only [hform] at hrule
      obtain ⟨n, hname, hstands⟩ := hrule
      refine ⟨n, hname, ?_⟩
      -- The reference was finished before, so it names a definition, or it leads back to one.
      rcases hstands with ⟨_, target, hget, _⟩ | ⟨_, hback, _⟩
      · exact hr.names_eq ▸ Table.mem_names_of_get? hget
      · exact mem_names_of_leads hback hd
    · obtain ⟨inner, hinner⟩ := h.exists_of_mem_parts hpart
      exact ih part hpart hinner

/-- Definitions can be worked out exactly if they are all `Complete`. -/
theorem exists_workedOut_iff :
    (∃ catalog, WorkedOut defs catalog) ↔
      ∀ d raw, defs.get? d = some raw → Complete defs raw := by
  refine ⟨?_, exists_workedOut⟩
  rintro ⟨catalog, h⟩ d raw hraw
  have hr := h.resolved
  obtain ⟨schema, hget⟩ := hr.exists_schema hraw
  exact (hr.conversion hraw hget).complete hr (Table.mem_names_of_get? hraw)

end Resolution

end ControllerTypes
