import ControllerTypes.Proofs.Resolution.Closed

/-!
# `ControllerTypes.Proofs.Resolution.Equations`: what stands in the place of a reference

A resolved description is a solution of the equations that its references make: where a definition
refers to another one, it has a reference to an object or an enumeration, and anything else written
out. The resolver solves them in one pass, so what it puts in a place depends on whether the
definition it needs there is finished, untouched, or being worked out.

A place is a path into a schema, through properties, items and values (`SchemaObject.at?`). What
stands at the same path of the resolved schema is the answer of the conversion that was made there
(`Resolves.part`, `Resolves.at`). That conversion found the definition finished, or it was made
inside of it, which takes a way back from there (`reference_places`).
-/

set_option autoImplicit false

namespace ControllerTypes

/-- A way into a part of a schema. -/
inductive Schema.Step where
  | property (name : String)
  | items
  | values

/-- The part that lies behind a step. -/
def Schema.part? : Schema → Schema.Step → Option Schema
  | object fields, .property name => (fields.find? fun f => f.name == name).map Field.schema
  | array items, .items => some items
  | map values, .values => some values
  | _, _ => none

/-- The schema at the end of a path. -/
def Schema.at? (schema : Schema) (path : List Schema.Step) : Option Schema :=
  path.foldlM Schema.part? schema

namespace Document.SchemaObject

/-- The part that lies behind a step, among those that count for the form of the schema. The members
of a composition lie behind none. -/
def part? (raw : SchemaObject) (step : Schema.Step) : Option SchemaObject :=
  match raw.form, step with
  | .object properties, .property name => Named.get? properties name
  | .array items, .items => some items
  | .map values, .values => some values
  | _, _ => none

/-- The schema at the end of a path. -/
def at? (raw : SchemaObject) (path : List Schema.Step) : Option SchemaObject :=
  path.foldlM part? raw

end Document.SchemaObject

namespace Resolution

open Document Named Relation

variable {defs : Definitions} {active : List String} {m m' : Memo} {raw inner : SchemaObject}
  {schema : Schema} {step : Schema.Step} {path : List Schema.Step}

/-! ### Conversion goes along with paths -/

/-- The field of a property is the answer of the conversion of that property. -/
theorem Resolves.of_property {required : List String} {asked : List (String × SchemaObject)}
    {fields : List (Field Schema)} {name : String}
    (h : Resolves defs active (.properties required asked fields) m m') (ha : m.Apart active)
    (hget : Named.get? asked name = some inner) :
    ∃ f m₁ m₂, fields.find? (fun f => f.name == name) = some f ∧
      Resolves defs active (.schema inner f.schema) m₁ m₂ ∧ m₁.Apart active ∧ m₂.Extends m' := by
  induction asked generalizing fields m with
  | nil => cases hget
  | cons first rest ih =>
    cases h with
    | @property _ _ other _ _ schema others _ m₁ _ hschema hrest =>
      have ha₁ := hschema.apart ha
      rw [get?_cons] at hget
      -- The property is the first one, or it is asked for behind it.
      split at hget
      · next heq =>
        cases hget
        exact ⟨_, m, m₁, List.find?_cons_of_pos (by simpa using heq), hschema, ha,
          hrest.extends ha₁⟩
      · next hne =>
        obtain ⟨f, hrest'⟩ := ih hrest ha₁ hget
        exact ⟨f, by rwa [List.find?_cons_of_neg (by simpa using hne)]⟩

/-- What lies behind a `step` of the answer is the answer of the conversion of what lies behind that
step of the schema. -/
theorem Resolves.part (h : Resolves defs active (.schema raw schema) m m') (ha : m.Apart active)
    (hpart : raw.part? step = some inner) :
    ∃ part m₁ m₂, schema.part? step = some part ∧
      Resolves defs active (.schema inner part) m₁ m₂ ∧ m₁.Apart active ∧ m₂.Extends m' := by
  have hconvert := h.of_form
  unfold SchemaObject.part? at hpart
  -- A property of an object, the items of an array, the values of a map, and nothing else.
  split at hpart
  · next hform =>
    simp only [hform] at hconvert
    obtain ⟨fields, rfl, hfields⟩ := hconvert
    obtain ⟨f, m₁, m₂, hfind, hrest⟩ := hfields.of_property ha hpart
    exact ⟨f.schema, m₁, m₂, by rw [Schema.part?, hfind, Option.map_some], hrest⟩
  · next hform =>
    simp only [hform] at hconvert
    obtain ⟨item, rfl, hitem⟩ := hconvert
    cases hpart
    exact ⟨item, m, m', rfl, hitem, ha, .refl _⟩
  · next hform =>
    simp only [hform] at hconvert
    obtain ⟨value, rfl, hvalue⟩ := hconvert
    cases hpart
    exact ⟨value, m, m', rfl, hvalue, ha, .refl _⟩
  · cases hpart

/-- What lies at the end of a whole `path` is the answer of the conversion made there. -/
theorem Resolves.at (h : Resolves defs active (.schema raw schema) m m') (ha : m.Apart active)
    {site : SchemaObject} (hsite : raw.at? path = some site) :
    ∃ part m₁ m₂, schema.at? path = some part ∧
      Resolves defs active (.schema site part) m₁ m₂ ∧ m₁.Apart active ∧ m₂.Extends m' := by
  induction path generalizing raw schema m m' with
  | nil =>
    cases hsite
    exact ⟨schema, m, m', rfl, h, ha, .refl _⟩
  | cons step rest ih =>
    rw [SchemaObject.at?, List.foldlM_cons] at hsite
    obtain ⟨inner, hpart, hrest⟩ := Option.bind_eq_some_iff.1 hsite
    obtain ⟨part, m₁, m₂, hpart', hinner, ha₁, he⟩ := h.part ha hpart
    obtain ⟨part', m₃, m₄, hpath, hsite', ha₃, he'⟩ := ih hinner ha₁ hrest
    refine ⟨part', m₃, m₄, ?_, hsite', ha₃, he'.trans he⟩
    rw [Schema.at?, List.foldlM_cons, hpart']
    exact hpath

/-! ### A schema mentions what stands in it -/

/-- A schema `Mentions` what lies behind a step mentions. -/
theorem Mentions.of_part {n : String} (h : Mentions inner n) (hpart : raw.part? step = some inner) :
    Mentions raw n := by
  unfold SchemaObject.part? at hpart
  split at hpart
  · next hform => exact .property hform (mem_of_get? hpart) h
  · next hform =>
    cases hpart
    exact .items hform h
  · next hform =>
    cases hpart
    exact .values hform h
  · cases hpart

/-- A schema `Mentions` what the schema at the end of a path mentions. -/
theorem Mentions.of_at {site : SchemaObject} {n : String} (h : Mentions site n)
    (hsite : raw.at? path = some site) : Mentions raw n := by
  induction path generalizing raw with
  | nil =>
    cases hsite
    exact h
  | cons step rest ih =>
    rw [SchemaObject.at?, List.foldlM_cons] at hsite
    obtain ⟨inner, hpart, hrest⟩ := Option.bind_eq_some_iff.1 hsite
    exact (ih hrest).of_part hpart

/-! ### Places of references -/

/-- A schema with a reference is that reference, whatever else it says. -/
theorem form_of_ref {ref : String} (h : raw.ref = some ref) : raw.form = .reference ref := by
  rw [SchemaObject.form, h]

/-- Where a definition refers to another one, there is a reference in the resolved description if
the other one is an object or an enumeration. If it is not, what it resolves to stands there, or a
reference all the same, but the latter only if it leads back to the definition that refers to it. -/
theorem reference_places {catalog : Catalog} {site : SchemaObject} {d n ref : String}
    (h : resolveAll defs = .ok catalog) (hraw : defs.get? d = some raw)
    (hsite : raw.at? path = some site) (href : site.ref = some ref)
    (hname : definitionName? ref = some n) :
    ∃ resolved schema target, catalog.get? d = some resolved ∧ resolved.at? path = some schema ∧
      catalog.get? n = some target ∧
      (target.isNamed = true → schema = .reference n) ∧
      (target.isNamed = false →
        schema = target ∨ schema = .reference n ∧ TransGen (Refers defs) n d) := by
  have hr := resolved_of_resolveAll h
  obtain ⟨resolved, hget⟩ := Table.mem_names_iff.1 (hr.names_eq ▸ Table.mem_names_of_get? hraw)
  obtain ⟨_, active, m, m', hentered⟩ := hr.converted d resolved hget
  cases hraw.symm.trans hentered.raw_eq
  have hform := form_of_ref href
  have hrefers : Refers defs d n := ⟨raw, hraw, Mentions.of_at (.reference hform hname) hsite⟩
  -- The conversion at the end of the path is that of a reference, whose answer stands there.
  obtain ⟨part, m₁, m₂, hpart, hconvert, _, he⟩ := hentered.converted.at hentered.apart hsite
  have hanswer := hconvert.of_form
  simp only [hform] at hanswer
  obtain ⟨n', answer, hname', rfl, hquery⟩ := hanswer
  cases hname.symm.trans hname'
  refine ⟨resolved, referenceTo n answer, ?_⟩
  rcases hquery.name_cases with hdone | ⟨hactive, rfl⟩
  · -- The definition was finished by then, with the schema that it has in the catalog.
    have hfinal : m₂.Extends (finalMemo defs) :=
      he.trans ((List.prefix_append _ _).trans hentered.finished)
    refine ⟨answer, hget, hpart, (hr.get?_eq n).trans (hfinal.get? hdone), ?_, ?_⟩
    · exact fun hnamed => if_pos hnamed
    · intro hnamed
      rw [referenceTo, hnamed]
      exact .inl rfl
  · -- It was being worked out, so that the conversion of `d` was made inside of it.
    have hback : TransGen (Refers defs) n d := by
      rcases List.mem_cons.1 hactive with rfl | hactive
      · exact .single hrefers
      · exact hentered.path n hactive
    obtain ⟨_, ⟨_, hraw', _⟩, _⟩ := TransGen.head'_iff.1 hback
    obtain ⟨target, htarget⟩ := Table.mem_names_iff.1 (hr.names_eq ▸ Table.mem_names_of_get? hraw')
    exact ⟨target, hget, hpart, htarget, fun _ => rfl, fun _ => .inr ⟨rfl, hback⟩⟩

/-- The items of a cell are rows, and stand there as a reference, since rows lead back to cells. -/
theorem row_leads_to_cell :
    Sheets.schemas.get? "Cell" = some (.array (.reference "Row")) ∧
      Sheets.schemas.get? "Row" = some Sheets.rowSchema ∧
      TransGen (Refers Sheets.definitions) "Row" "Cell" := by
  have hcell : Sheets.schemas.get? "Cell" = some (.array (.reference "Row")) := by cbv
  have hrow : Sheets.schemas.get? "Row" = some Sheets.rowSchema := by cbv
  have hraw : Sheets.definitions.get? "Cell" = some Sheets.cell := by cbv
  have hitems : Sheets.cell.at? [.items] = some { ref := "#/definitions/Row" } := by cbv
  have hname : definitionName? "#/definitions/Row" = some "Row" := by cbv
  obtain ⟨resolved, schema, target, hresolved, hschema, htarget, _, hother⟩ :=
    reference_places Sheets.resolveAll_definitions hraw hitems rfl hname
  cases hcell.symm.trans hresolved
  cases hrow.symm.trans htarget
  cases hschema
  refine ⟨hcell, hrow, ?_⟩
  -- A row is no object, so it stands written out, or it leads back. It is not written out there.
  rcases hother rfl with heq | ⟨_, hback⟩
  · cases heq
  · exact hback

end Resolution

end ControllerTypes
