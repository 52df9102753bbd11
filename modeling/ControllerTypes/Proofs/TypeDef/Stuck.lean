import ControllerTypes.Proofs.TypeDef.Writable

/-!
# `ControllerTypes.Proofs.TypeDef.Stuck`: fields that cannot be written

From a field the walk goes along lists, maps and definitions that are no types, which is a path
without branches (`Unwraps`). It is stuck where that path ends at something without a counterpart or
comes to the same definition again (`Stuck`). The fields that matter are those of the objects that
are written (`Owner`): of definitions, of specs and states, and of the objects without a name below
them.

A schema that is stuck is not `Writable`, so where a package has types no field of an owner is stuck
(`Owner.not_stuck`). No other schema is asked about: what has no counterpart does no harm where no
field leads to it.
-/

set_option autoImplicit false

namespace ControllerTypes.TypeDef

open Name

variable {catalog : Catalog} {resources : List Resource}

/-! ### Fields that cannot be written -/

/-- Along lists, maps and definitions that are no types, the schema leads to another one. The
definitions on the way are `aliases`, and none of them is passed through twice. -/
inductive Unwraps (catalog : Catalog) (schema : Schema) : List String → Schema → Prop where
  | start : Unwraps catalog schema [] schema
  | items {aliases : List String} {items : Schema}
      (h : Unwraps catalog schema aliases (.array items)) : Unwraps catalog schema aliases items
  | values {aliases : List String} {values : Schema}
      (h : Unwraps catalog schema aliases (.map values)) : Unwraps catalog schema aliases values
  | passed {aliases : List String} {target : String} {stands : Schema}
      (h : Unwraps catalog schema aliases (.reference target))
      (hget : catalog.get? target = some stands) (hnamed : stands.isNamed = false)
      (halias : target ∉ aliases) : Unwraps catalog schema (target :: aliases) stands

/-- The schema leads to something without a counterpart, or to the same definition again. -/
inductive Stuck (catalog : Catalog) (schema : Schema) : TypeFault → Prop where
  | unsupported {aliases : List String} {detail : String}
      (h : Unwraps catalog schema aliases (.unsupported detail)) :
      Stuck catalog schema (.unsupported detail)
  | again {aliases : List String} {target : String}
      (h : Unwraps catalog schema aliases (.reference target)) (halias : target ∈ aliases) :
      Stuck catalog schema (.recursiveAlias target)

/-- The fields are those of an object that is written under the name: of a definition, of the spec
or the state of a resource, or of an object that a field of another owner leads to. That one is
named after its owner and the field, and its name is none of those taken at the start. -/
inductive Owner (catalog : Catalog) (resources : List Resource) :
    String → List (Field Schema) → Prop where
  | definition {d name : String} {fields : List (Field Schema)}
      (hget : catalog.get? d = some (.object fields))
      (hname : (Naming.of catalog resources).types.get? d = some name) :
      Owner catalog resources name fields
  | spec {r : Resource} {fields : List (Field Schema)} (hr : r ∈ resources)
      (hspec : r.spec = .object fields) : Owner catalog resources r.specType fields
  | status {r : Resource} {fields : List (Field Schema)} (hr : r ∈ resources)
      (hstatus : r.status = .object fields) : Owner catalog resources r.statusType fields
  | inline {owner : String} {fields inner : List (Field Schema)} {f : Field Schema}
      {aliases taken : List String} (h : Owner catalog resources owner fields) (hf : f ∈ fields)
      (hunwraps : Unwraps catalog f.schema aliases (.object inner))
      (htaken : (Naming.of catalog resources).taken ⊆ taken) :
      Owner catalog resources (takeName (owner ++ pascalCase f.name) taken .types).1 inner

section
variable {schema stands : Schema} {aliases openers : List String}

/-- The definitions on the way are no types. -/
theorem Unwraps.not_named (h : Unwraps catalog schema aliases stands) {target : String}
    (hmem : target ∈ aliases) : ∃ s, catalog.get? target = some s ∧ s.isNamed = false := by
  induction h with
  | start => cases hmem
  | items _ ih | values _ ih => exact ih hmem
  | passed _ hget hnamed _ ih =>
    rcases List.mem_cons.1 hmem with rfl | hmem
    · exact ⟨_, hget, hnamed⟩
    · exact ih hmem

/-- What can be written leads to nothing else. -/
theorem Unwraps.writable (h : Unwraps catalog schema aliases stands)
    (hw : Writable catalog openers [] schema) :
    ∃ openers', Writable catalog openers' aliases stands := by
  -- A schema that can be written at the start stays so on the way. The openers change at the
  -- definitions, which is why there are some and not the same.
  induction h with
  | start => exact ⟨openers, hw⟩
  | items _ ih =>
    obtain ⟨openers', ⟨⟩⟩ := ih
    exact ⟨openers', ‹_›⟩
  | values _ ih =>
    obtain ⟨openers', ⟨⟩⟩ := ih
    exact ⟨openers', ‹_›⟩
  | passed _ hget hnamed _ ih =>
    obtain ⟨openers', hstands⟩ := ih
    cases hstands with
    -- The definition is no type, so the walk does not stop at it.
    | named hget' hnamed' =>
      cases hget.symm.trans hget'
      cases hnamed.symm.trans hnamed'
    | passed hget' _ _ _ hschema =>
      cases hget.symm.trans hget'
      exact ⟨_, hschema⟩

/-- A schema that can be written is not stuck. -/
theorem Stuck.not_writable {fault : TypeFault} (h : Stuck catalog schema fault) :
    ¬ Writable catalog openers [] schema := by
  intro hw
  -- The two faults are the two rules that `Writable` does not have.
  cases h with
  | unsupported hunwraps =>
    obtain ⟨_, hunsupported⟩ := hunwraps.writable hw
    cases hunsupported
  | again hunwraps halias =>
    obtain ⟨_, hreference⟩ := hunwraps.writable hw
    cases hreference with
    | named hget hnamed =>
      obtain ⟨_, hget', hnot⟩ := hunwraps.not_named halias
      cases hget.symm.trans hget'
      cases hnamed.symm.trans hnot
    | passed _ _ hnew => exact hnew halias

end

/-! ### Packages with types -/

/-- If a package has types, all fields of its owners can be written. -/
theorem Owner.writable (hx : AllExtracted catalog resources) {types : List TypeDef}
    (h : extract catalog resources = .ok types) {name : String} {fields : List (Field Schema)}
    (howner : Owner catalog resources name fields) :
    ∀ f ∈ fields, ∃ openers, Writable catalog openers [] f.schema := by
  -- The types are there, so whatever has a name as a type stands alone.
  obtain ⟨hstands, hstatuses⟩ := (exists_extract_iff hx).1 ⟨types, h⟩
  have hobject {fields : List (Field Schema)} {openers aliases : List String}
      (hw : Writable catalog openers aliases (.object fields)) :
      ∀ f ∈ fields, ∃ openers, Writable catalog openers [] f.schema := by
    intro f hf
    cases hw with
    | object hfields => exact ⟨_, hfields f hf⟩
  induction howner with
  | definition hget hname =>
    obtain ⟨_, htarget, _, hw⟩ := hstands _ _ hname
    cases htarget.symm.trans (Catalog.target?_of_isNamed hget rfl)
    exact hobject hw
  | spec hr hspec =>
    obtain ⟨_, htarget, _, hw⟩ := hstands _ _ (Naming.get?_schemaName hx hr)
    rw [(hx.each _ hr).spec_eq, hspec] at htarget
    cases htarget
    exact hobject hw
  | status hr hstatus =>
    obtain ⟨_, hw⟩ := hstatuses _ hr
    rw [hstatus] at hw
    exact hobject hw
  -- The object is on the way from a field that can be written, and so it can be written itself.
  | inline _ hf hunwraps _ ih =>
    obtain ⟨_, hw⟩ := ih _ hf
    obtain ⟨_, hw⟩ := hunwraps.writable hw
    exact hobject hw

/-- If a package has types, no field of an owner is stuck. -/
theorem Owner.not_stuck (hx : AllExtracted catalog resources) {types : List TypeDef}
    (h : extract catalog resources = .ok types) {name : String} {fields : List (Field Schema)}
    (howner : Owner catalog resources name fields) {f : Field Schema} (hf : f ∈ fields)
    {fault : TypeFault} : ¬ Stuck catalog f.schema fault := by
  intro hstuck
  obtain ⟨_, hw⟩ := howner.writable hx h f hf
  exact hstuck.not_writable hw

end ControllerTypes.TypeDef
