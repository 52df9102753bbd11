import ControllerTypes.Proofs.Compiles
import ControllerTypes.Proofs.Named
import ControllerTypes.Proofs.TypeDef.Leads

/-!
# `ControllerTypes.Proofs.TypeDef.Terminates`: the walk over types ends by itself

The walk of `ControllerTypes.TypeDef.Extract` ends because it raises `TypeFault.endlessAlias` where
it would begin to go round. This module takes that guard away. `Unguarded` is the same recursion
without `openers` and without the fault, so nothing in it says that it ends, and an answer of `none`
stands for a walk that goes on for ever.

There is one way to go on for ever: a definition that is no type of its own stands for an object
without a name, and a field of that object leads to the definition again. `Unfolds` follows a
definition into what it stands for and stops at each definition that is a type, and its flag tells if
an object was entered on the way. Where no definition comes back to itself with the flag up, the
guard has nothing to do and the walk without it ends with the same answer (`extract_terminates`).

The invariant is `Place.Opened`. Each definition in `openers` unfolds to the schema at hand, and if
no alias was passed since the last object, then that object is on the way. So a guard that fires
closes exactly the circle that the hypothesis rules out (`not_endless`).
-/

set_option autoImplicit false

namespace ControllerTypes.TypeDef

open Name

/-! ### The walk without the guard -/

namespace Unguarded

/-- A step of the walk that may go on for ever, and answers nothing then. -/
abbrev Step (α : Type) := StateT Walk (ExceptT Error Option) α

/-- Where the walk is. -/
structure Place where
  /-- The types that are being written. -/
  within : List String
  /-- The definitions passed through since the last object. -/
  aliases : List String

/-- The place inside a type, which may have a name of its own or not. -/
def Place.enter (p : Place) (name : String) : Place := ⟨name :: p.within, []⟩

/-- The place inside a definition that is no type. -/
def Place.pass (p : Place) (definition : String) : Place := ⟨p.within, definition :: p.aliases⟩

/-- A step that comes to an end, with an answer or a failure. -/
def ending {α : Type} (x : TypeDef.Step α) : Step α := fun w => some (x.run w)

mutual

/-- The type of a definition that has a name for one, and whether it is still being written. -/
def Place.visit (catalog : Catalog) (naming : Naming) (p : Place) (definition : String) :
    Step (String × Bool) := do
  match naming.types.get? definition with
  | none => throw (.unresolved definition)
  | some name =>
    if name ∈ p.within then return (name, true)
    else if name ∈ (← get).done then return (name, false)
    else
      match catalog.target? definition with
      | none => throw (.unresolved definition)
      | some schema =>
        p.enter name |>.emit catalog naming name definition schema
        return (name, false)
partial_fixpoint

/-- The schema is written as a type of this name, and the place is inside of it. -/
def Place.emit (catalog : Catalog) (naming : Naming) (p : Place) (name source : String)
    (schema : Schema) : Step Unit :=
  match schema with
  | .object fields => do
    let definitions ← p |>.structFields catalog naming name source [] fields
    ending (write ⟨name, source, .struct definitions⟩)
  | .enumeration literals =>
    ending (write ⟨name, source, .enumeration (enumValues literals)⟩)
  | other => throw (.typeShape name "" (.notNamed other.variantName))
partial_fixpoint

/-- The fields of a struct; `identifiers` are those in front of them. -/
def Place.structFields (catalog : Catalog) (naming : Naming) (p : Place) (owner source : String)
    (identifiers : List String) (fields : List (Field Schema)) : Step (List FieldDefinition) :=
  match fields with
  | [] => return []
  | field :: rest => do
    let (type, indirect) ← p |>.fieldType catalog naming owner source field.name field.schema
    let (identifier, identifiers) :=
      takeName (goIdentifier field.name "Field") identifiers .nothing
    let others ← p |>.structFields catalog naming owner source identifiers rest
    return ⟨identifier, field.name, type, field.required, indirect⟩ :: others
partial_fixpoint

/-- The type of a field of this schema, and whether it closes a cycle. -/
def Place.fieldType (catalog : Catalog) (naming : Naming) (p : Place) (owner source field : String)
    (schema : Schema) : Step (FieldType × Bool) :=
  match schema with
  | .primitive primitive => return (.ofPrimitive primitive, false)
  | .array items => do
    let (element, indirect) ← p |>.fieldType catalog naming owner source field items
    return (.list element, indirect)
  | .map values => do
    let (element, indirect) ← p |>.fieldType catalog naming owner source field values
    return (.map element, indirect)
  | .unsupported detail => throw (.typeShape owner field (.unsupported detail))
  | .reference target =>
    match catalog.get? target with
    | none => throw (.unresolved target)
    | some schema =>
      if schema.isNamed then do
        let (name, backward) ← p |>.visit catalog naming target
        return (.reference name, backward)
      else if target ∈ p.aliases then
        throw (.typeShape owner field (.recursiveAlias target))
      else
        p.pass target |>.fieldType catalog naming owner source field schema
  | schema => do
    let lifted ← ending (takeLifted owner field)
    p.enter lifted |>.emit catalog naming lifted (source ++ "." ++ field) schema
    return (.reference lifted, false)
partial_fixpoint

end

/-- The spec and the status of a resource are written. -/
def writeResource (catalog : Catalog) (naming : Naming) (r : Resource) : Step Unit := do
  discard <| Place.visit catalog naming ⟨[], []⟩ r.schemaName
  match r.statusSchemaName with
  | some status =>
    if naming.types.get? status = some r.statusType then
      discard <| Place.visit catalog naming ⟨[], []⟩ status
    else writeStatus
  | none => writeStatus
where
  writeStatus : Step Unit :=
    Place.emit catalog naming ⟨[r.statusType], []⟩ r.statusType (r.schemaName ++ ".status") r.status

/-- The types of a catalog and its resources, each behind the types of its fields. -/
def extract (catalog : Catalog) (resources : List Resource) :
    ExceptT Error Option (List TypeDef) := do
  let naming := Naming.of catalog resources
  let walk : Step Unit := do
    resources.forM (writeResource catalog naming)
    catalog.entries.forM fun (definition, schema) => do
      if schema.isNamed then discard <| Place.visit catalog naming ⟨[], []⟩ definition
  let (_, walked) ← walk.run { taken := naming.taken }
  return walked.written

end Unguarded

/-! ### Steps that end

What is put together from steps that end does so as well, and ends in the same way. -/

namespace Unguarded

section
variable {ε α β : Type}

/-- What follows a result that is there is run on it, or the failure stays. -/
theorem some_bind (x : Except ε α) (f : α → Except ε β) :
    (ExceptT.mk (some x) >>= fun a => ExceptT.mk (some (f a))) = ExceptT.mk (some (x >>= f)) := by
  cases x <;> rfl

/-- Two steps that end, one after the other, end as the two in one. -/
theorem ending_bind (x : TypeDef.Step α) (f : α → TypeDef.Step β) :
    ending (x >>= f) = ending x >>= fun a => ending (f a) :=
  funext fun w => (some_bind (x.run w) fun a => (f a.1).run a.2).symm

/-- A step that ends does so without its answer. -/
theorem ending_discard (x : TypeDef.Step α) : ending (discard x) = discard (ending x) :=
  ending_bind x fun _ => pure PUnit.unit

/-- A loop of steps that end is one that ends. -/
theorem ending_forM (f : α → TypeDef.Step PUnit) (xs : List α) :
    ending (xs.forM f) = xs.forM fun x => ending (f x) := by
  induction xs with
  | nil => rfl
  | cons x rest ih =>
    have hcons : (x :: rest).forM f = f x >>= fun _ => rest.forM f := rfl
    rw [hcons, ending_bind, ih]
    rfl

end

end Unguarded

/-- The place without what is remembered for the guard. -/
def Place.unguarded (p : Place) : Unguarded.Place := ⟨p.within, p.aliases⟩

/-! ### Definitions that unfold -/

/-- A definition that is no type unfolds to the schema: along items and values, into objects without
a name, and through other definitions that are no types. The flag tells if the schema is found inside
of such an object. -/
inductive Unfolds (catalog : Catalog) (d : String) : Bool → Schema → Prop where
  | definition {schema : Schema} (hget : catalog.get? d = some schema)
      (hnamed : schema.isNamed = false) : Unfolds catalog d false schema
  | items {inside : Bool} {items : Schema} (h : Unfolds catalog d inside (.array items)) :
      Unfolds catalog d inside items
  | values {inside : Bool} {values : Schema} (h : Unfolds catalog d inside (.map values)) :
      Unfolds catalog d inside values
  | field {inside : Bool} {fields : List (Field Schema)} {f : Field Schema}
      (h : Unfolds catalog d inside (.object fields)) (hf : f ∈ fields) :
      Unfolds catalog d true f.schema
  | passed {inside : Bool} {target : String} {schema : Schema}
      (h : Unfolds catalog d inside (.reference target)) (hget : catalog.get? target = some schema)
      (hnamed : schema.isNamed = false) : Unfolds catalog d inside schema

/-- Only a definition that is no type unfolds. -/
theorem Unfolds.not_named {catalog : Catalog} {d : String} {inside : Bool} {schema : Schema}
    (h : Unfolds catalog d inside schema) :
    ∃ schema, catalog.get? d = some schema ∧ schema.isNamed = false := by
  -- The definition that is unfolded stays the same along the way.
  induction h with
  | definition hget hnamed => exact ⟨_, hget, hnamed⟩
  | items _ ih | values _ ih | field _ _ ih | passed _ _ _ ih => exact ih

/-- Every opener unfolds to the schema, and does so inside of an object unless a chain of aliases has
begun since. -/
def Place.Opened (catalog : Catalog) (p : Place) (schema : Schema) : Prop :=
  ∀ o ∈ p.openers, ∃ inside, (p.aliases = [] → inside = true) ∧ Unfolds catalog o inside schema

section
variable {catalog : Catalog} {p : Place} {schema : Schema} {target : String}

/-- A definition that is passed through becomes an opener at the beginning of a chain, and unfolds to
its schema as every opener before it does. -/
theorem Place.Opened.pass (h : p.Opened catalog (.reference target))
    (hget : catalog.get? target = some schema) (hnamed : schema.isNamed = false) :
    (p.pass target).Opened catalog schema := by
  intro o ho
  have hunfolds : ∃ inside, Unfolds catalog o inside schema := by
    -- The openers are those from before, and `target` if a chain begins with it.
    have hmem : o = target ∨ o ∈ p.openers := by
      unfold Place.pass at ho
      dsimp only at ho
      split at ho
      · exact List.mem_cons.1 ho
      · exact .inr ho
    rcases hmem with rfl | hmem
    · exact ⟨false, .definition hget hnamed⟩
    · obtain ⟨inside, _, hbefore⟩ := h o hmem
      exact ⟨inside, hbefore.passed hget hnamed⟩
  obtain ⟨inside, hunfolds⟩ := hunfolds
  exact ⟨inside, fun hnil => absurd hnil (List.cons_ne_nil _ _), hunfolds⟩

/-- The guard does not fire where no definition comes back to itself inside of an object. -/
theorem Place.Opened.not_endless (hends : ∀ d, ¬ Unfolds catalog d true (.reference d))
    (h : p.Opened catalog (.reference target)) : ¬ (p.aliases = [] ∧ target ∈ p.openers) := by
  rintro ⟨hnil, hmem⟩
  obtain ⟨inside, hinside, hunfolds⟩ := h target hmem
  -- No alias was passed since the last object, so the opener was unfolded into an object on the way
  -- to its own reference.
  rw [hinside hnil] at hunfolds
  exact hends target hunfolds

end

/-! ### The guard has nothing to do -/

section
variable {catalog : Catalog} (hends : ∀ d, ¬ Unfolds catalog d true (.reference d))
include hends

/-- Each call ends without the guard as it does with it. -/
theorem unguarded_eq (naming : Naming) :
    (∀ p d, Unguarded.Place.visit catalog naming p.unguarded d =
      Unguarded.ending (visit catalog naming p d)) ∧
    (∀ p name source schema, (∀ o ∈ p.openers, ∃ inside, Unfolds catalog o inside schema) →
      Unguarded.Place.emit catalog naming p.unguarded name source schema =
        Unguarded.ending (emit catalog naming p name source schema)) ∧
    (∀ p owner source identifiers fields,
      (∀ o ∈ p.openers, ∀ f ∈ fields, Unfolds catalog o true f.schema) →
      Unguarded.Place.structFields catalog naming p.unguarded owner source identifiers fields =
        Unguarded.ending (structFields catalog naming p owner source identifiers fields)) ∧
    (∀ p owner source field schema, p.Opened catalog schema →
      Unguarded.Place.fieldType catalog naming p.unguarded owner source field schema =
        Unguarded.ending (fieldType catalog naming p owner source field schema)) := by
  -- The cases are those of the recursion with the guard, which is known to end.
  apply visit.mutual_induct catalog naming
  -- A visit enters a type afresh, where there are no openers.
  · intro p d hname
    rw [visit, Unguarded.Place.visit, hname]
    split
    · rfl
    · next hsome => cases hsome
  · intro p d name hname hwithin
    rw [visit_of_name hname, Unguarded.Place.visit, hname, if_pos hwithin]
    dsimp only
    rw [Place.unguarded, if_pos hwithin]
    rfl
  · intro p d name hname hwithin ih
    rw [visit_of_name hname, Unguarded.Place.visit, hname, if_neg hwithin]
    dsimp only
    rw [Place.unguarded, if_neg hwithin, Unguarded.ending_bind]
    apply bind_congr
    intro w
    split
    · rfl
    · cases htarget : catalog.target? d with
      | none => rfl
      | some schema =>
        dsimp only
        rw [Unguarded.ending_bind, ← ih schema (by simp [Place.enter])]
        rfl
  -- What is written is an object, an enumeration, or a failure.
  · intro p name source fields ih hopened
    rw [emit, Unguarded.Place.emit, Unguarded.ending_bind, ← ih ?_]
    intro o ho f hf
    obtain ⟨inside, hunfolds⟩ := hopened o ho
    exact hunfolds.field hf
  · intro p name source literals _
    rw [emit, Unguarded.Place.emit]
  · intro p name source other hobject henumeration _
    -- What is neither an object nor an enumeration is refused, with the guard or without it.
    cases other with
    | object fields => exact absurd rfl (hobject fields)
    | enumeration literals => exact absurd rfl (henumeration literals)
    | primitive | array | map | unsupported | reference =>
      rw [emit, Unguarded.Place.emit]
      · rfl
      all_goals
        intro _ heq
        cases heq
  -- Each field of an object is inside of it.
  · intro p owner source identifiers _
    rw [structFields, Unguarded.Place.structFields]
    rfl
  · intro p owner source identifiers field rest ihtype ihrest hopened
    rw [structFields, Unguarded.Place.structFields, Unguarded.ending_bind, ihtype ?_]
    · apply bind_congr
      rintro ⟨type, indirect⟩
      dsimp only
      rw [Unguarded.ending_bind, ihrest]
      · rfl
      · exact fun o ho f hf => hopened o ho f (List.mem_cons_of_mem _ hf)
    · exact fun o ho => ⟨true, fun _ => rfl, hopened o ho field List.mem_cons_self⟩
  -- The type of a field without a reference at its top.
  · intro p owner source field primitive _
    rw [fieldType, Unguarded.Place.fieldType]
    rfl
  · intro p owner source field items ih hopened
    rw [fieldType, Unguarded.Place.fieldType, Unguarded.ending_bind, ih ?_]
    · rfl
    · intro o ho
      obtain ⟨inside, hinside, hunfolds⟩ := hopened o ho
      exact ⟨inside, hinside, hunfolds.items⟩
  · intro p owner source field values ih hopened
    rw [fieldType, Unguarded.Place.fieldType, Unguarded.ending_bind, ih ?_]
    · rfl
    · intro o ho
      obtain ⟨inside, hinside, hunfolds⟩ := hopened o ho
      exact ⟨inside, hinside, hunfolds.values⟩
  · intro p owner source field detail _
    rw [fieldType, Unguarded.Place.fieldType]
    rfl
  -- A reference is visited, refused, or passed through; only here the two recursions differ.
  · intro p owner source field target hget _
    rw [fieldType, Unguarded.Place.fieldType, hget]
    split
    · rfl
    · next hsome => cases hsome
  · intro p owner source field target schema hget hnamed ih _
    rw [fieldType_of_get hget, Unguarded.Place.fieldType, hget, if_pos hnamed, Unguarded.ending_bind]
    dsimp only
    rw [if_pos hnamed, ih]
    rfl
  · intro p owner source field target schema hget hnamed halias _
    rw [fieldType_of_get hget, Unguarded.Place.fieldType, hget, if_neg hnamed, if_pos halias]
    dsimp only
    rw [if_neg hnamed, Place.unguarded, if_pos halias]
    rfl
  · intro p owner source field target schema hget hnamed halias hendless hopened
    exact absurd hendless (hopened.not_endless hends)
  · intro p owner source field target schema hget hnamed halias hendless ih hopened
    rw [fieldType_of_get hget, Unguarded.Place.fieldType, hget, if_neg hnamed, if_neg halias,
      if_neg hendless]
    dsimp only
    rw [if_neg hnamed, Place.unguarded, if_neg halias,
      ← ih (hopened.pass hget (by simpa using hnamed))]
    rfl
  -- An object without a name has the openers of the place it is found at.
  · intro p owner source field schema hprimitive harray hmap hunsupported hreference ih hopened
    rw [fieldType, Unguarded.Place.fieldType]
    · rw [Unguarded.ending_bind]
      apply bind_congr
      intro lifted
      rw [Unguarded.ending_bind, ← ih]
      · rfl
      · intro o ho
        obtain ⟨inside, _, hunfolds⟩ := hopened o ho
        exact ⟨inside, hunfolds⟩
    all_goals assumption

/-- The spec and the state of a resource are written from places without openers. -/
theorem unguarded_writeResource (naming : Naming) (r : Resource) :
    Unguarded.writeResource catalog naming r =
      Unguarded.ending (writeResource catalog naming r) := by
  obtain ⟨hvisit, hemit, -⟩ := unguarded_eq hends naming
  have hspec := hvisit ⟨[], [], []⟩
  have hstatus : Unguarded.writeResource.writeStatus catalog naming r =
      Unguarded.ending (writeResource.writeStatus catalog naming r) :=
    hemit ⟨[r.statusType], [], []⟩ _ _ _ (List.forall_mem_nil _)
  rw [Unguarded.writeResource, writeResource, Unguarded.ending_bind, Unguarded.ending_discard,
    ← hspec]
  apply bind_congr
  intro _
  cases r.statusSchemaName with
  | none => exact hstatus
  | some d =>
    dsimp only
    split
    · rw [Unguarded.ending_discard, ← hspec]
      rfl
    · exact hstatus

/-- If no definition that is no type comes back to itself inside of an object without a name, the
walk ends without a guard, whatever else the definitions refer to. -/
theorem extract_terminates (resources : List Resource) :
    Unguarded.extract catalog resources = some (extract catalog resources) := by
  obtain ⟨hvisit, -⟩ := unguarded_eq hends (.of catalog resources)
  have hresources : resources.forM (Unguarded.writeResource catalog (.of catalog resources)) =
      Unguarded.ending (resources.forM (writeResource catalog (.of catalog resources))) := by
    rw [Unguarded.ending_forM]
    congr
    funext r
    exact unguarded_writeResource hends _ r
  -- The definitions that are types are visited from places without openers as well.
  have hdefinitions : (catalog.entries.forM fun (definition, schema) => do
      if schema.isNamed then
        discard <| Unguarded.Place.visit catalog (.of catalog resources) ⟨[], []⟩ definition) =
      Unguarded.ending (catalog.entries.forM fun (definition, schema) => do
        if schema.isNamed then
          discard <| visit catalog (.of catalog resources) ⟨[], [], []⟩ definition) := by
    rw [Unguarded.ending_forM]
    congr
    funext ⟨d, schema⟩
    dsimp only
    split
    · rw [Unguarded.ending_discard, ← hvisit]
      rfl
    · rfl
  rw [Unguarded.extract, extract]
  dsimp only
  -- So the whole walk ends as the one with the guard does.
  rw [hresources, hdefinitions, ← Unguarded.ending_bind]
  exact Unguarded.some_bind _ fun walked : Unit × Walk => Except.ok walked.2.written

end

/-! ### Rows of a table

The rows are no type of their own, and the objects in them have no name. They refer to the table they
belong to, which is a type and refers to its rows. -/

namespace Table

/-- A row knows its table. -/
def row : Document.SchemaObject where
  properties := [("table", { ref := "#/definitions/Table" })]

/-- Rows and tables, which no operation creates. -/
def api : ApiDescription where
  info := ⟨"Tables", "1", none, []⟩
  definitions := .ofList
    [("Rows", { type := some (.single "array"), items := some row }),
     ("Table", { properties := [("rows", { ref := "#/definitions/Rows" })] })]
  operations := []

/-- A row without a name. -/
def rowSchema : Schema := .object [⟨"table", .reference "Table", false⟩]

/-- A table with its rows. -/
def tableSchema : Schema := .object [⟨"rows", .reference "Rows", false⟩]

/-- Rows are no type of their own, and tables are one. -/
def catalog : Catalog := .ofList [("Rows", .array rowSchema), ("Table", tableSchema)]

/-- The rows in a table are written for the field `rows`. -/
def types : List TypeDef :=
  [⟨"TableRows", "Table.rows", .struct [⟨"Table", "table", .reference "Table", false, true⟩]⟩,
   ⟨"Table", "Table", .struct [⟨"Rows", "rows", .list (.reference "TableRows"), false, false⟩]⟩]

/-- Tables compile. -/
theorem compiles : Compiles {} api catalog [] types where
  resolved := by cbv
  extracted := by cbv
  written := by cbv

/-- The table is the only definition that is a type. -/
theorem eq_of_get? {d : String} {schema : Schema} (hget : catalog.get? d = some schema)
    (hnamed : schema.isNamed = false) : d = "Rows" ∧ schema = .array rowSchema := by
  have hentries : catalog.entries = [("Rows", .array rowSchema), ("Table", tableSchema)] := by cbv
  have hmem := Named.Table.get?_eq_some_iff.1 hget
  rw [hentries] at hmem
  rcases List.mem_cons.1 hmem with heq | hmem
  · cases heq
    exact ⟨rfl, rfl⟩
  · cases List.mem_singleton.1 hmem
    cases hnamed

/-- What a definition unfolds to: the only thing inside of a row is a reference to the table. -/
theorem eq_of_unfolds {d : String} {inside : Bool} {schema : Schema}
    (h : Unfolds catalog d inside schema) :
    (inside = false ∧ (schema = .array rowSchema ∨ schema = rowSchema)) ∨
      schema = .reference "Table" := by
  induction h with
  | definition hget hnamed => exact .inl ⟨rfl, .inl (eq_of_get? hget hnamed).2⟩
  | items _ ih =>
    obtain ⟨hinside, harray | hrow⟩ | htable := ih
    · cases harray
      exact .inl ⟨hinside, .inr rfl⟩
    · cases hrow
    · cases htable
  | values _ ih => obtain ⟨_, harray | hrow⟩ | htable := ih <;> contradiction
  -- Only a row has fields, and its one field is a reference to the table.
  | field _ hf ih =>
    obtain ⟨_, harray | hrow⟩ | htable := ih
    · cases harray
    · cases hrow
      cases List.mem_singleton.1 hf
      exact .inr rfl
    · cases htable
  -- The only reference on the way is to the table, which is a type and so not passed through.
  | passed _ hget hnamed ih =>
    obtain ⟨_, harray | hrow⟩ | htable := ih
    · cases harray
    · cases hrow
    · cases htable
      exact absurd (eq_of_get? hget hnamed).1 (by decide)

end Table

/-- Rows and tables refer to each other, and the walk over them ends without a guard. -/
theorem table_terminates :
    Compiles {} Table.api Table.catalog [] Table.types ∧
    (∀ d, ¬ Unfolds Table.catalog d true (.reference d)) ∧
    Unguarded.extract Table.catalog [] = some (.ok Table.types) := by
  have hends (d : String) : ¬ Unfolds Table.catalog d true (.reference d) := by
    intro h
    -- Inside of an object only the table is referred to, and the table does not unfold.
    obtain ⟨hinside, _⟩ | htable := Table.eq_of_unfolds h
    · cases hinside
    · cases htable
      obtain ⟨_, hget, hnamed⟩ := h.not_named
      exact absurd (Table.eq_of_get? hget hnamed).1 (by decide)
  refine ⟨Table.compiles, hends, ?_⟩
  rw [extract_terminates hends [], Table.compiles.written]

end ControllerTypes.TypeDef
