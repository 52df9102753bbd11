import ControllerTypes.Proofs.TypeDef.Terminates

/-!
# `ControllerTypes.Proofs.TypeDef.Bounded`: a walk that comes to an end

The walk without the guard may go on for ever, and it comes to an end if it does so within some
number of calls inside of each other. `Bounded` is that walk with a bound on this number; an answer
of `none` stands for a walk that the bound is too small for. It is defined by recursion on the
bound, so a walk that ends can be followed from one call to the next.

What it answers is what the walk without a bound does (`unguarded_of_bounded`).
-/

set_option autoImplicit false

namespace ControllerTypes.TypeDef

open Name

/-! ### The walk within a depth -/

namespace Bounded

open Unguarded (ending)

/-- The step is deeper than is allowed. -/
def beyond {α : Type} : Unguarded.Step α := fun _ => none

mutual

/-- The type of a definition that has a name for one, and whether it is still being written. -/
def visit (catalog : Catalog) (naming : Naming) :
    Nat → Unguarded.Place → String → Unguarded.Step (String × Bool)
  | 0, _, _ => beyond
  | depth + 1, p, definition => do
    match naming.types.get? definition with
    | none => throw (.unresolved definition)
    | some name =>
      if name ∈ p.within then return (name, true)
      else if name ∈ (← get).done then return (name, false)
      else
        match catalog.target? definition with
        | none => throw (.unresolved definition)
        | some schema =>
          emit catalog naming depth (p.enter name) name definition schema
          return (name, false)

/-- The schema is written as a type of this name, and the place is inside of it. -/
def emit (catalog : Catalog) (naming : Naming) :
    Nat → Unguarded.Place → String → String → Schema → Unguarded.Step Unit
  | 0, _, _, _, _ => beyond
  | depth + 1, p, name, source, schema =>
    match schema with
    | .object fields => do
      let definitions ← structFields catalog naming depth p name source [] fields
      ending (write ⟨name, source, .struct definitions⟩)
    | .enumeration literals =>
      ending (write ⟨name, source, .enumeration (enumValues literals)⟩)
    | other => throw (.typeShape name "" (.notNamed other.variantName))

/-- The fields of a struct; `identifiers` are those in front of them. -/
def structFields (catalog : Catalog) (naming : Naming) :
    Nat → Unguarded.Place → String → String → List String → List (Field Schema) →
      Unguarded.Step (List FieldDefinition)
  | 0, _, _, _, _, _ => beyond
  | depth + 1, p, owner, source, identifiers, fields =>
    match fields with
    | [] => return []
    | field :: rest => do
      let (type, indirect) ← fieldType catalog naming depth p owner source field.name field.schema
      let (identifier, identifiers) :=
        takeName (goIdentifier field.name "Field") identifiers .nothing
      let others ← structFields catalog naming depth p owner source identifiers rest
      return ⟨identifier, field.name, type, field.required, indirect⟩ :: others

/-- The type of a field of this schema, and whether it closes a cycle. -/
def fieldType (catalog : Catalog) (naming : Naming) :
    Nat → Unguarded.Place → String → String → String → Schema → Unguarded.Step (FieldType × Bool)
  | 0, _, _, _, _, _ => beyond
  | depth + 1, p, owner, source, field, schema =>
    match schema with
    | .primitive primitive => return (.ofPrimitive primitive, false)
    | .array items => do
      let (element, indirect) ← fieldType catalog naming depth p owner source field items
      return (.list element, indirect)
    | .map values => do
      let (element, indirect) ← fieldType catalog naming depth p owner source field values
      return (.map element, indirect)
    | .unsupported detail => throw (.typeShape owner field (.unsupported detail))
    | .reference target =>
      match catalog.get? target with
      | none => throw (.unresolved target)
      | some schema =>
        if schema.isNamed then do
          let (name, backward) ← visit catalog naming depth p target
          return (.reference name, backward)
        else if target ∈ p.aliases then
          throw (.typeShape owner field (.recursiveAlias target))
        else fieldType catalog naming depth (p.pass target) owner source field schema
    | schema => do
      let lifted ← ending (takeLifted owner field)
      emit catalog naming depth (p.enter lifted) lifted (source ++ "." ++ field) schema
      return (.reference lifted, false)

end

/-- The spec and the status of a resource are written. -/
def writeResource (catalog : Catalog) (naming : Naming) (depth : Nat) (r : Resource) :
    Unguarded.Step Unit := do
  discard <| visit catalog naming depth ⟨[], []⟩ r.schemaName
  match r.statusSchemaName with
  | some status =>
    if naming.types.get? status = some r.statusType then
      discard <| visit catalog naming depth ⟨[], []⟩ status
    else writeStatus
  | none => writeStatus
where
  writeStatus : Unguarded.Step Unit :=
    emit catalog naming depth ⟨[r.statusType], []⟩ r.statusType (r.schemaName ++ ".status") r.status

/-- The types of a catalog and its resources, each behind the types of its fields. -/
def extract (catalog : Catalog) (resources : List Resource) (depth : Nat) :
    ExceptT Error Option (List TypeDef) := do
  let naming := Naming.of catalog resources
  let walk : Unguarded.Step Unit := do
    resources.forM (writeResource catalog naming depth)
    catalog.entries.forM fun (definition, schema) => do
      if schema.isNamed then discard <| visit catalog naming depth ⟨[], []⟩ definition
  let (_, walked) ← walk.run { taken := naming.taken }
  return walked.written

/-! ### Steps within a depth -/

section
variable {catalog : Catalog} {naming : Naming} {depth : Nat} {p : Unguarded.Place}
  {owner source field : String}

/-- A step in front of another fails, or ends and lets the other end. -/
theorem bind_eq_some {α β : Type} {x : Unguarded.Step α} {f : α → Unguarded.Step β} {w : Walk}
    {r : Except Error (β × Walk)} :
    ((x >>= f).run w).run = some r ↔
      (∃ e, (x.run w).run = some (.error e) ∧ r = .error e) ∨
        ∃ a w₁, (x.run w).run = some (.ok (a, w₁)) ∧ ((f a).run w₁).run = some r := by
  rw [StateT.run_bind, ExceptT.run_bind]
  rcases (x.run w).run with - | ⟨e | ⟨a, w₁⟩⟩
  · simp
  · simp [eq_comm]
  · simp

/-- If steps end, the first of them does. -/
theorem exists_first {α β : Type} {x : Unguarded.Step α} {f : α → Unguarded.Step β} {w : Walk}
    {r : Except Error (β × Walk)} (h : ((x >>= f).run w).run = some r) :
    ∃ r', (x.run w).run = some r' := by
  rcases bind_eq_some.1 h with ⟨_, hfirst, _⟩ | ⟨_, _, hfirst, _⟩
  · exact ⟨_, hfirst⟩
  · exact ⟨_, hfirst⟩

/-- The type of a reference to a definition that is there. -/
theorem fieldType_of_get {target : String} {schema : Schema}
    (hget : catalog.get? target = some schema) :
    fieldType catalog naming (depth + 1) p owner source field (.reference target) =
      if schema.isNamed then do
        let (name, backward) ← visit catalog naming depth p target
        return (.reference name, backward)
      else if target ∈ p.aliases then throw (.typeShape owner field (.recursiveAlias target))
      else fieldType catalog naming depth (p.pass target) owner source field schema := by
  rw [fieldType]
  dsimp only
  rw [hget]

/-- An object or an enumeration in a field is written under a name of its own. -/
theorem fieldType_of_isNamed {schema : Schema} (hnamed : schema.isNamed = true) :
    fieldType catalog naming (depth + 1) p owner source field schema = do
      let lifted ← Unguarded.ending (takeLifted owner field)
      emit catalog naming depth (p.enter lifted) lifted (source ++ "." ++ field) schema
      return (.reference lifted, false) := by
  cases schema with
  | object | enumeration => rfl
  | primitive | array | map | unsupported | reference => cases hnamed

variable (catalog depth p) in
/-- A type that was written or is being written is not written again. -/
theorem run_visit_of_mem {target name : String} {w : Walk}
    (hname : naming.types.get? target = some name) (hmem : name ∈ w.done ++ p.within) :
    ∃ backward, ((visit catalog naming (depth + 1) p target).run w).run
      = some (.ok ((name, backward), w)) := by
  by_cases hwithin : name ∈ p.within
  · refine ⟨true, ?_⟩
    rw [visit, hname]
    dsimp only
    rw [if_pos hwithin]
    rfl
  · have hdone : name ∈ w.done := (List.mem_append.1 hmem).resolve_right hwithin
    refine ⟨false, ?_⟩
    rw [visit, hname]
    dsimp only
    rw [if_neg hwithin]
    exact bind_eq_some.2 (.inr ⟨w, w, rfl, by rw [if_pos hdone]; rfl⟩)

end

end Bounded

/-! ### The bound is only a bound -/

section
variable {α β : Type}

/-- Where the first step ends, the other one does so in the same way. -/
def Below (x y : Unguarded.Step α) : Prop :=
  ∀ w r, (x.run w).run = some r → (y.run w).run = some r

namespace Below

/-- A step is below itself. -/
theorem refl (x : Unguarded.Step α) : Below x x := fun _ _ h => h

/-- A step without an answer is below every other. -/
theorem beyond (y : Unguarded.Step α) : Below Bounded.beyond y :=
  fun _ _ h => nomatch h

/-- Steps in a row are below steps in a row. -/
theorem bind {x y : Unguarded.Step α} {f g : α → Unguarded.Step β} (hx : Below x y)
    (hf : ∀ a, Below (f a) (g a)) : Below (x >>= f) (y >>= g) := by
  intro w r h
  rcases Bounded.bind_eq_some.1 h with ⟨e, hfirst, rfl⟩ | ⟨a, w₁, hfirst, hsecond⟩
  · exact Bounded.bind_eq_some.2 (.inl ⟨e, hx _ _ hfirst, rfl⟩)
  · exact Bounded.bind_eq_some.2 (.inr ⟨a, w₁, hx _ _ hfirst, hf a _ _ hsecond⟩)

/-- A step without its answer is below one without its answer, if that is so with the answers. -/
theorem discard {x y : Unguarded.Step α} (h : Below x y) : Below (discard x) (discard y) :=
  h.bind fun _ => .refl (Pure.pure _)

/-- A choice is below a choice with the same condition, if both branches are. -/
theorem ite {c : Prop} [Decidable c] {x x' y y' : Unguarded.Step α} (h : Below x y)
    (h' : Below x' y') : Below (if c then x else x') (if c then y else y') := by
  split
  · exact h
  · exact h'

/-- A loop is below a loop over the same list, if each of its rounds is. -/
theorem forM {f g : β → Unguarded.Step PUnit} {xs : List β} (h : ∀ x ∈ xs, Below (f x) (g x)) :
    Below (xs.forM f) (xs.forM g) := by
  induction xs with
  | nil => exact .refl _
  | cons x rest ih =>
    obtain ⟨hfirst, hrest⟩ := List.forall_mem_cons.1 h
    exact hfirst.bind fun _ => ih hrest

/-- The results of the walk are taken from both steps in the same way. -/
theorem result {x y : Unguarded.Step α} (hxy : Below x y) {w : Walk} {f : α × Walk → β}
    {r : Except Error β} (h : (x.run w >>= fun a => ExceptT.mk (some (.ok (f a)))).run = some r) :
    (y.run w >>= fun a => ExceptT.mk (some (.ok (f a)))).run = some r := by
  rw [ExceptT.run_bind] at h ⊢
  rcases hx : (x.run w).run with - | first
  · rw [hx] at h
    cases h
  · rw [hxy w first hx]
    rwa [hx] at h

end Below

end

section
variable (catalog : Catalog) (naming : Naming)

/-- Each call within a depth is below the one that has no bound. -/
theorem below (depth : Nat) :
    (∀ p d, Below (Bounded.visit catalog naming depth p d)
      (Unguarded.Place.visit catalog naming p d)) ∧
    (∀ p name source schema, Below (Bounded.emit catalog naming depth p name source schema)
      (Unguarded.Place.emit catalog naming p name source schema)) ∧
    (∀ p owner source identifiers fields,
      Below (Bounded.structFields catalog naming depth p owner source identifiers fields)
        (Unguarded.Place.structFields catalog naming p owner source identifiers fields)) ∧
    (∀ p owner source field schema,
      Below (Bounded.fieldType catalog naming depth p owner source field schema)
        (Unguarded.Place.fieldType catalog naming p owner source field schema)) := by
  induction depth with
  | zero =>
    exact ⟨fun _ _ => .beyond _, fun _ _ _ _ => .beyond _, fun _ _ _ _ _ => .beyond _,
      fun _ _ _ _ _ => .beyond _⟩
  | succ depth ih =>
    obtain ⟨hvisit, hemit, hfields, htype⟩ := ih
    refine ⟨?_, ?_, ?_, ?_⟩
    · intro p d
      rw [Bounded.visit, Unguarded.Place.visit]
      cases naming.types.get? d with
      | none => exact .refl _
      | some name =>
        refine .ite (.refl _) ((Below.refl _).bind fun w => .ite (.refl _) ?_)
        cases catalog.target? d with
        | none => exact .refl _
        | some schema => exact (hemit _ _ _ _).bind fun _ => .refl _
    · intro p name source schema
      rw [Bounded.emit.eq_def, Unguarded.Place.emit.eq_def]
      cases schema with
      | object fields => exact (hfields _ _ _ _ _).bind fun _ => .refl _
      | enumeration | primitive | array | map | unsupported | reference => exact .refl _
    · intro p owner source identifiers fields
      rw [Bounded.structFields.eq_def, Unguarded.Place.structFields.eq_def]
      cases fields with
      | nil => exact .refl _
      | cons f rest =>
        exact (htype _ _ _ _ _).bind fun _ => (hfields _ _ _ _ _).bind fun _ => .refl _
    · intro p owner source field schema
      rw [Bounded.fieldType.eq_def, Unguarded.Place.fieldType.eq_def]
      cases schema with
      | primitive | unsupported => exact .refl _
      | array items | map values => exact (htype _ _ _ _ _).bind fun _ => .refl _
      | object | enumeration =>
        exact (Below.refl _).bind fun _ => (hemit _ _ _ _).bind fun _ => .refl _
      | reference target =>
        dsimp only
        cases catalog.get? target with
        | none => exact .refl _
        | some schema =>
          exact .ite ((hvisit _ _).bind fun _ => .refl _) (.ite (.refl _) (htype _ _ _ _ _))

variable {catalog}

/-- A walk that ends within some depth ends without a bound, and in the same way. -/
theorem unguarded_of_bounded {resources : List Resource} {depth : Nat}
    {result : Except Error (List TypeDef)}
    (h : Bounded.extract catalog resources depth = some result) :
    Unguarded.extract catalog resources = some result := by
  obtain ⟨hvisit, hemit, -⟩ := below catalog (.of catalog resources) depth
  have hresource (r : Resource) :
      Below (Bounded.writeResource catalog (.of catalog resources) depth r)
        (Unguarded.writeResource catalog (.of catalog resources) r) := by
    have hstatus := hemit ⟨[r.statusType], []⟩ r.statusType (r.schemaName ++ ".status") r.status
    refine (hvisit _ _).discard.bind fun _ => ?_
    cases r.statusSchemaName with
    | none => exact hstatus
    | some d => exact .ite (hvisit _ _).discard hstatus
  have hdefinition (x : String × Schema) : Below
      (if x.2.isNamed then
        discard <| Bounded.visit catalog (.of catalog resources) depth ⟨[], []⟩ x.1 else pure ⟨⟩)
      (if x.2.isNamed then
        discard <| Unguarded.Place.visit catalog (.of catalog resources) ⟨[], []⟩ x.1
      else pure ⟨⟩) :=
    .ite (hvisit _ _).discard (.refl _)
  have hwalk := (Below.forM fun r (_ : r ∈ resources) => hresource r).bind fun _ =>
    Below.forM fun x (_ : x ∈ catalog.entries) => hdefinition x
  exact hwalk.result h

end

end ControllerTypes.TypeDef
