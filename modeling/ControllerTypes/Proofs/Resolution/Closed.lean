import ControllerTypes.Proofs.Resolution.History
import ControllerTypes.Proofs.Resolution.Merge
import Mathlib

/-!
# `ControllerTypes.Proofs.Resolution.Closed`: no reference leads nowhere

A resolved schema may hold references at any depth, and they have come there in three ways: a
reference was kept, a schema that holds some was put in its place, or fields were merged that hold
some. In each of them the definition that is meant has been started by then (`Memo.Closed`,
`Resolves.closed`), and at the end all that was started is finished.

A definition may itself be a reference. The search for cycles goes along such a chain until it ends,
and never comes to a name for the second time. `Catalog.follow` goes along the same chain with a
bound on its steps, which the names that are left keep it clear of (`follow_of_chase`).

`references_closed` says both of a description that is resolved.
-/

set_option autoImplicit false

namespace ControllerTypes

/-- Somewhere in the schema there is a reference to the definition. -/
inductive Schema.RefersTo : Schema → String → Prop where
  | reference {n : String} : RefersTo (.reference n) n
  | field {fields : List (Field Schema)} {f : Field Schema} {n : String} (hf : f ∈ fields)
      (hrefers : RefersTo f.schema n) : RefersTo (.object fields) n
  | items {items : Schema} {n : String} (hrefers : RefersTo items n) : RefersTo (.array items) n
  | values {values : Schema} {n : String} (hrefers : RefersTo values n) : RefersTo (.map values) n

namespace Resolution

open Document Named Run

variable {defs : Definitions} {active : List String} {q : Query} {m m' : Memo} {n : String}

/-! ### References in compositions -/

/-- A part holds a reference in its schema or in the fields it gives. -/
def Part.RefersTo (p : Part) (n : String) : Prop :=
  p.schema.RefersTo n ∨ ∃ f ∈ p.fields.getD [], f.schema.RefersTo n

/-- What `referenceTo` answers refers to the definition, or to what that refers to. -/
theorem refersTo_referenceTo {name : String} {target : Schema}
    (h : (referenceTo name target).RefersTo n) : n = name ∨ target.RefersTo n := by
  rw [referenceTo] at h
  split at h
  · cases h
    exact .inl rfl
  · exact .inr h

/-- A schema without a counterpart refers to nothing. -/
theorem not_refersTo_unsupported (detail : String) : ¬ (Schema.unsupported detail).RefersTo n := by
  rintro ⟨⟩

/-- A scalar refers to nothing. -/
theorem not_refersTo_convertScalar (raw : SchemaObject) : ¬ (convertScalar raw).RefersTo n := by
  intro h
  unfold convertScalar at h
  split at h <;> cases h

/-- What a composition without objects refers to, one of its `parts` does. -/
theorem refersTo_firstOther? {parts : List Part} {detail : String}
    (h : ((firstOther? parts).getD (.unsupported detail)).RefersTo n) :
    ∃ p ∈ parts, p.RefersTo n := by
  -- It is one of the parts, or there are none, and then it has no counterpart.
  rcases schema_mem_of_firstOther? (rfl : (firstOther? parts).getD (.unsupported detail) = _)
    with heq | ⟨p, hp, _, heq⟩
  · rw [heq] at h
    exact absurd h (not_refersTo_unsupported detail)
  · rw [← heq] at h
    exact ⟨p, hp, .inl h⟩

/-- What merged fields refer to, a part or a field in `own` does. -/
theorem refersTo_mergeFields {parts : List Part} {own : List (Field Schema)} {g : Field Schema}
    (hg : g ∈ mergeFields (partFields parts ++ own)) (h : g.schema.RefersTo n) :
    (∃ p ∈ parts, p.RefersTo n) ∨ ∃ f ∈ own, f.schema.RefersTo n := by
  obtain ⟨f, hf, _, heq⟩ := exists_of_mem_mergeFields hg
  rw [← heq] at h
  rcases List.mem_append.1 hf with hf | hf
  · obtain ⟨p, hp, hf⟩ := List.mem_flatMap.1 hf
    exact .inl ⟨p, hp, .inr ⟨f, hf, h⟩⟩
  · exact .inr ⟨f, hf, h⟩

/-- What an `allOf` refers to, one of its parts or of its own fields does. -/
theorem refersTo_combineAll {parts : List Part} {own : List (Field Schema)}
    {required : List String} (h : (combineAll parts own required).RefersTo n) :
    (∃ p ∈ parts, p.RefersTo n) ∨ ∃ f ∈ own, f.schema.RefersTo n := by
  unfold combineAll at h
  split at h
  · exact .inl (refersTo_firstOther? h)
  · cases h with
    | field hf hrefers =>
      -- Requiring a field leaves its schema.
      obtain ⟨g, hg, rfl⟩ := List.mem_map.1 hf
      exact refersTo_mergeFields hg hrefers

/-- Making the fields of a part optional leaves what they refer to. -/
theorem Part.refersTo_optional {p : Part} (h : p.optional.RefersTo n) : p.RefersTo n := by
  refine h.imp_right ?_
  rintro ⟨f, hf, hrefers⟩
  unfold Part.optional at hf
  cases hfields : p.fields with
  | none =>
    rw [hfields] at hf
    cases hf
  | some fields =>
    rw [hfields] at hf
    obtain ⟨g, hg, rfl⟩ := List.mem_map.1 hf
    exact ⟨g, hg, hrefers⟩

/-- What variants refer to, one of them or one of the own fields does. -/
theorem refersTo_combineVariants {parts : List Part} {own : List (Field Schema)}
    (h : (combineVariants parts own).RefersTo n) :
    (∃ p ∈ parts, p.RefersTo n) ∨ ∃ f ∈ own, f.schema.RefersTo n := by
  unfold combineVariants at h
  split at h
  · exact .inl (refersTo_firstOther? h)
  · cases h with
    | field hf hrefers =>
      refine (refersTo_mergeFields hf hrefers).imp_left ?_
      rintro ⟨_, hmem, hrefers⟩
      obtain ⟨p, hp, rfl⟩ := List.mem_map.1 hmem
      exact ⟨p, hp, Part.refersTo_optional hrefers⟩

/-! ### References in the memo -/

/-- Whatever a finished schema refers to was started. -/
def Memo.Closed (active : List String) (m : Memo) : Prop :=
  ∀ d schema n, m.done.get? d = some schema → schema.RefersTo n → m.Started active n

/-- Nothing is finished at first, so nothing refers to anything. -/
theorem Memo.Closed.start : ({} : Memo).Closed active := by
  intro d schema n hdone
  cases hdone

/-- The answer of the query holds a reference to the definition. -/
def Query.RefersTo : Query → String → Prop
  | .name _ answer, n | .schema _ answer, n => answer.RefersTo n
  | .members _ parts, n => ∃ p ∈ parts, p.RefersTo n
  | .properties _ _ fields, n => ∃ f ∈ fields, f.schema.RefersTo n

/-- A member refers to what its schema does. Whatever else its fields refer to was `Started`. -/
theorem Memo.Closed.part (hc : m.Closed active) {schema : Schema}
    (h : (Part.mk schema (memberFields m schema)).RefersTo n) :
    schema.RefersTo n ∨ m.Started active n := by
  rcases h with h | ⟨f, hf, h⟩
  · exact .inl h
  -- The fields of an object stand in the schema. Those of a reference come from the memo, which is
  -- closed.
  cases schema with
  | object fields => exact .inl (.field hf h)
  | reference name =>
    simp only [memberFields] at hf
    cases hdone : m.done.get? name with
    | none =>
      rw [hdone] at hf
      cases hf
    | some target =>
      rw [hdone] at hf
      cases target with
      | object fields => exact .inr (hc name _ n hdone (.field hf h))
      | _ => cases hf
  | _ => cases hf

/-- Every query keeps the memo `Closed`, and its answer refers to nothing that was not `Started`. -/
theorem Resolves.closed (h : Resolves defs active q m m') (ha : m.Apart active)
    (hc : m.Closed active) :
    m'.Closed active ∧ ∀ n, q.RefersTo n → m'.Started active n := by
  induction h with
  | done hdone => exact ⟨hc, fun n hrefers => hc _ _ n hdone hrefers⟩
  | active _ hactive =>
    refine ⟨hc, ?_⟩
    rintro n ⟨⟩
    exact .inl hactive
  | @enter active name raw schema m m' hnone hactive _ hconvert ih =>
    have ha' := ha.cons hnone
    obtain ⟨hclosed, hanswer⟩ := ih ha' fun d schema n hdone hrefers =>
      (hc d schema n hdone hrefers).imp_left (List.mem_cons_of_mem _)
    have hnone' := hconvert.apart ha' name List.mem_cons_self
    refine ⟨?_, fun n hrefers => (hanswer n hrefers).finish hnone' schema⟩
    intro d schema' n hdone hrefers
    -- The entry is the new one, whose schema is the answer of the conversion, or an older one.
    rcases Memo.get?_finish_cases hdone with ⟨rfl, rfl⟩ | hdone
    · exact (hanswer n hrefers).finish hnone' _
    · exact (hclosed d schema' n hdone hrefers).finish hnone' schema
  | reference _ _ htarget ih =>
    obtain ⟨hclosed, hanswer⟩ := ih ha hc
    refine ⟨hclosed, ?_⟩
    intro n hrefers
    -- It refers to the name that was asked for, or to what the answer for that refers to.
    rcases refersTo_referenceTo hrefers with rfl | hrefers
    · exact htarget.started
    · exact hanswer n hrefers
  | decorated _ _ ih => exact ih ha hc
  | all _ hmembers hown ihmembers ihown =>
    have ha₁ := hmembers.apart ha
    obtain ⟨hclosed, hparts⟩ := ihmembers ha hc
    obtain ⟨hclosed', hfields⟩ := ihown ha₁ hclosed
    refine ⟨hclosed', ?_⟩
    intro n hrefers
    rcases refersTo_combineAll hrefers with hpart | hfield
    · exact (hparts n hpart).mono (hown.extends ha₁)
    · exact hfields n hfield
  | variants _ hmembers hown ihmembers ihown =>
    have ha₁ := hmembers.apart ha
    obtain ⟨hclosed, hparts⟩ := ihmembers ha hc
    obtain ⟨hclosed', hfields⟩ := ihown ha₁ hclosed
    refine ⟨hclosed', ?_⟩
    intro n hrefers
    rcases refersTo_combineVariants hrefers with hpart | hfield
    · exact (hparts n hpart).mono (hown.extends ha₁)
    · exact hfields n hfield
  | enumeration => exact ⟨hc, by rintro n ⟨⟩⟩
  | freeMap =>
    refine ⟨hc, ?_⟩
    rintro n ⟨⟩
    next hrefers => exact absurd hrefers (not_refersTo_unsupported _)
  | scalar => exact ⟨hc, fun n hrefers => absurd hrefers (not_refersTo_convertScalar _)⟩
  | map _ _ ih | array _ _ ih =>
    obtain ⟨hclosed, hanswer⟩ := ih ha hc
    refine ⟨hclosed, ?_⟩
    rintro n ⟨⟩
    next hrefers => exact hanswer n hrefers
  | object _ _ ih =>
    obtain ⟨hclosed, hanswer⟩ := ih ha hc
    refine ⟨hclosed, ?_⟩
    rintro n ⟨⟩
    next f hf hrefers => exact hanswer n ⟨f, hf, hrefers⟩
  | noMembers | noProperties => exact ⟨hc, by rintro n ⟨_, hmem, _⟩; cases hmem⟩
  | member hschema hrest ihschema ihrest =>
    have ha₁ := hschema.apart ha
    obtain ⟨hclosed, hanswer⟩ := ihschema ha hc
    obtain ⟨hclosed', hothers⟩ := ihrest ha₁ hclosed
    refine ⟨hclosed', ?_⟩
    rintro n ⟨p, hp, hrefers⟩
    rcases List.mem_cons.1 hp with rfl | hp
    · -- The fields of the first member were taken when its conversion was over.
      exact ((hclosed.part hrefers).elim (hanswer n) id).mono (hrest.extends ha₁)
    · exact hothers n ⟨p, hp, hrefers⟩
  | property hschema hrest ihschema ihrest =>
    have ha₁ := hschema.apart ha
    obtain ⟨hclosed, hanswer⟩ := ihschema ha hc
    obtain ⟨hclosed', hothers⟩ := ihrest ha₁ hclosed
    refine ⟨hclosed', ?_⟩
    rintro n ⟨f, hf, hrefers⟩
    rcases List.mem_cons.1 hf with rfl | hf
    · exact (hanswer n hrefers).mono (hrest.extends ha₁)
    · exact hothers n ⟨f, hf, hrefers⟩

/-- All queries together leave the memo `Closed`. -/
theorem ResolvesAll.closed {answers : List (String × Schema)} (h : ResolvesAll defs answers m m')
    (hc : m.Closed []) : m'.Closed [] := by
  induction h with
  | nil => exact hc
  | cons hfirst _ ih => exact ih (hfirst.closed (.nil _) hc).1

/-! ### Chains of references -/

variable {catalog : Catalog}

/-- Following a schema that is no reference ends at once. -/
theorem follow_succ_of_ne_reference {schema : Schema} (h : ∀ n, schema ≠ .reference n)
    (steps : Nat) :
    catalog.follow (steps + 1) schema = some schema := by
  cases schema with
  | reference n => exact absurd rfl (h n)
  | _ => rfl

/-- Following a reference goes on at what it refers to. -/
theorem follow_succ_reference {next : Schema} (hget : catalog.get? n = some next) (steps : Nat) :
    catalog.follow (steps + 1) (.reference n) = catalog.follow steps next := by
  rw [Catalog.follow, hget, Option.bind_some]

/-- Where `chase` finds nothing, following the references ends at a schema, within one step for each
name that is left. -/
theorem follow_of_chase {start : String} {seen : List String} {schema : Schema}
    (h : chase catalog start seen schema = .ok ()) {steps : Nat}
    (hsteps : remaining catalog.names seen < steps) :
    ∃ target, catalog.follow steps schema = some target ∧ ∀ n, target ≠ .reference n := by
  obtain ⟨steps, rfl⟩ := Nat.exists_eq_succ_of_ne_zero (Nat.ne_zero_of_lt hsteps)
  -- On the search, whose steps are those of `follow` with a shrinking number of names left.
  fun_induction chase catalog start seen schema generalizing steps with
  | case1 | case2 => cases h
  | case3 seen target hseen next hnext hnamed =>
    -- The object or enumeration takes a step of its own, which its name has left for it.
    have hleft := remaining_cons_lt (Table.mem_names_of_get? hnext) hseen
    obtain ⟨steps, rfl⟩ : ∃ k, steps = k + 1 := ⟨steps - 1, by omega⟩
    have hnext' : ∀ n, next ≠ .reference n := by
      rintro n rfl
      cases hnamed
    exact ⟨next, (follow_succ_reference hnext _).trans (follow_succ_of_ne_reference hnext' _),
      hnext'⟩
  | case4 seen target hseen next hnext _ ih =>
    have hleft := remaining_cons_lt (Table.mem_names_of_get? hnext) hseen
    obtain ⟨steps, rfl⟩ : ∃ k, steps = k + 1 := ⟨steps - 1, by omega⟩
    obtain ⟨schema, hfollow, hschema⟩ := ih h steps (by omega)
    exact ⟨schema, (follow_succ_reference hnext _).trans hfollow, hschema⟩
  | case5 seen schema hother =>
    exact ⟨schema, follow_succ_of_ne_reference hother _, hother⟩

/-- Every definition stands for a schema that is no reference, if `checkAliasCycles` finds nothing.
-/
theorem target?_of_checkAliasCycles (h : checkAliasCycles catalog = .ok ())
    (hn : n ∈ catalog.names) :
    ∃ schema, catalog.target? n = some schema ∧ ∀ target, schema ≠ .reference target := by
  obtain ⟨schema, hget⟩ := Table.mem_names_iff.1 hn
  have hchase := forM_eq_ok_iff.1 h _ (Table.get?_eq_some_iff.1 hget)
  -- The search enters the definition itself, so one name less is left than there are.
  have hsteps : remaining catalog.names [n] < catalog.size + 1 := by
    have hle : remaining catalog.names [n] ≤ catalog.names.length := List.countP_le_length
    rw [show catalog.names.length = catalog.size from List.length_map Prod.fst] at hle
    exact Nat.lt_succ_of_le hle
  rw [Catalog.target?, hget, Option.bind_some]
  exact follow_of_chase hchase hsteps

/-- In a description that is resolved `checkAliasCycles` found nothing. -/
theorem checkAliasCycles_of_resolveAll (h : resolveAll defs = .ok catalog) :
    checkAliasCycles catalog = .ok () :=
  (resolveAll_eq_ok_iff.1 h).2

/-! ### A description -/

/-- In a description that is resolved every reference, at whatever depth it stands, names a
definition, and every definition stands for a schema that is no reference. -/
theorem references_closed (h : resolveAll defs = .ok catalog) :
    (∀ d schema n, catalog.get? d = some schema → schema.RefersTo n → n ∈ defs.names) ∧
      ∀ n ∈ defs.names, ∃ schema, catalog.target? n = some schema ∧
        ∀ target, schema ≠ .reference target := by
  have hr := resolved_of_resolveAll h
  refine ⟨?_, fun n hn =>
    target?_of_checkAliasCycles (checkAliasCycles_of_resolveAll h) (hr.names_eq ▸ hn)⟩
  intro d schema n hget hrefers
  obtain ⟨answers, hall, _⟩ := resolvesAll_of_resolveAll h
  -- In the end nothing is being worked out, so what was started is finished.
  rcases hall.closed .start d schema n (hr.get?_eq d ▸ hget) hrefers with hactive | ⟨target, hdone⟩
  · cases hactive
  · exact hr.names_eq ▸ Table.mem_names_of_get? ((hr.get?_eq n).trans hdone)

/-! ### A description with cycles

A row of a sheet is a list of cells, and a cell is a list of rows again. Sheets follow upon each
other, a page is a sheet with a number, and the cover is a page. -/

namespace Sheets

def row : SchemaObject where
  type := some (.single "array")
  items := some { ref := "#/definitions/Cell" }

def cell : SchemaObject where
  type := some (.single "array")
  items := some { ref := "#/definitions/Row" }

def sheet : SchemaObject where
  properties :=
    [("rows", { type := some (.single "array"), items := some { ref := "#/definitions/Row" } }),
     ("title", { ref := "#/definitions/Title" }),
     ("next", { additionalProperties := some (.schema { ref := "#/definitions/Sheet" }) })]

def page : SchemaObject where
  allOf := [{ ref := "#/definitions/Sheet" },
    { properties := [("number", { type := some (.single "integer") })] }]

def definitions : Definitions := .ofList
  [("Row", row), ("Cell", cell), ("Sheet", sheet), ("Page", page),
   ("Cover", { allOf := [{ ref := "#/definitions/Page" }] }),
   ("Title", { type := some (.single "string") })]

/-- What a row is replaced by outside of itself. -/
def rowSchema : Schema := .array (.array (.reference "Row"))

/-- The fields of a sheet. -/
def sheetFields : List (Field Schema) :=
  [⟨"rows", .array rowSchema, false⟩, ⟨"title", .primitive .string, false⟩,
   ⟨"next", .map (.reference "Sheet"), false⟩]

def schemas : Catalog := .ofList
  [("Row", rowSchema), ("Cell", .array (.reference "Row")), ("Sheet", .object sheetFields),
   ("Page", .object (sheetFields ++ [⟨"number", .primitive .integer, false⟩])),
   ("Cover", .reference "Page"), ("Title", .primitive .string)]

/-- The definitions of the sheets resolve to `schemas`. -/
theorem resolveAll_definitions : resolveAll definitions = .ok schemas := by cbv

end Sheets

/-- A page refers to the rows, through the fields that it has from a sheet, and the cover stands for
an object. -/
theorem page_references_closed :
    resolveAll Sheets.definitions = .ok Sheets.schemas ∧ "Row" ∈ Sheets.definitions.names ∧
      ∃ schema, Sheets.schemas.target? "Cover" = some schema ∧
        ∀ target, schema ≠ .reference target := by
  obtain ⟨hnames, htargets⟩ := references_closed Sheets.resolveAll_definitions
  have hpage : Sheets.schemas.get? "Page"
      = some (.object (Sheets.sheetFields ++ [⟨"number", .primitive .integer, false⟩])) := by cbv
  have hrows : (⟨"rows", .array Sheets.rowSchema, false⟩ : Field Schema)
      ∈ Sheets.sheetFields ++ [⟨"number", .primitive .integer, false⟩] :=
    List.mem_append_left _ List.mem_cons_self
  have hrefers : (Schema.array Sheets.rowSchema).RefersTo "Row" :=
    .items (.items (.items .reference))
  exact ⟨Sheets.resolveAll_definitions, hnames "Page" _ "Row" hpage (.field hrows hrefers),
    htargets "Cover" (by decide)⟩

end Resolution

end ControllerTypes
