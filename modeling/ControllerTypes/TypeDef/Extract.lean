import ControllerTypes.Descent
import ControllerTypes.Error
import ControllerTypes.Resolution.Remaining
import ControllerTypes.TypeDef.Basic
import ControllerTypes.TypeDef.Naming

/-!
# `ControllerTypes.TypeDef.Extract`: from resolved schemas to types

The types are written in the order in which a walk leaves them, so a type stands behind the types of
its fields. The walk starts at each resource, spec before status, and then goes through the other
definitions in document order.

* A field that refers to an object or an enumeration refers to the type that was assigned to it. If
  that type is still being written, the reference closes a cycle and the field is indirect.
* A field that refers to any other definition gets the type of what the definition stands for.
* An object or enumeration without a name becomes a type named after its owner and its field.

Two things cannot be written. A definition that is no type of its own and stands for something that
contains it again is an error; so is a schema without a counterpart.

## Why the walk ends

`visit` enters each assigned name at most once on the way down. Between two such steps a field can
only pass through definitions that are no types. Those met since the last object are `aliases`, and
none of them is passed through twice. An object without a name starts `aliases` afresh, so each
definition that begins such a chain is remembered in `openers`: meeting it again as an opener means
the walk would go round for ever, writing the same objects under ever new names, and that is where
`TypeFault.endlessAlias` is raised. What is left goes down with the size of the schema.

`extract` is `extract_typedefs` and `Walk` the state of its `TypeDefExtractor`. `visit` is
`visit_named`, `emit` is `emit`, `structFields` is `struct_fields`, `fieldType` is `field_type`
together with `reference_type`, `enumValues` is `enum_values`, and `FieldType.ofPrimitive` is
`primitive_field_type`.
-/

set_option autoImplicit false

namespace ControllerTypes

open Name

/-- The type of a scalar. -/
def FieldType.ofPrimitive : Primitive → FieldType
  | .string => .string
  | .integer => .integer
  | .number => .number
  | .boolean => .boolean
  | .dateTime => .dateTime

namespace TypeDef

/-- What the walk has done so far. -/
structure Walk where
  /-- Every name that no further type may have. -/
  taken : List String
  /-- The names of the types that were written. -/
  done : List String := []
  /-- The types that were written, in order. -/
  written : List TypeDef := []

/-- A step of the walk. -/
abbrev Step (α : Type) := StateT Walk (Except Error) α

/-- Where the walk is. -/
structure Place where
  /-- The types that are being written. -/
  within : List String
  /-- The definitions that were passed through first after an object, since the last named one. -/
  openers : List String
  /-- The definitions passed through since the last object. -/
  aliases : List String

/-- Identifiers for the names, in order; a name that is taken gets a number. -/
def distinctIdentifiers (lead : String) (taken : List String) : List String → List String
  | [] => []
  | name :: rest =>
    let (identifier, taken) := takeName (goIdentifier name lead) taken .nothing
    identifier :: distinctIdentifiers lead taken rest

/-- The values of an enumeration with the names of their constants. -/
def enumValues (literals : List String) : List EnumValue :=
  List.zipWith EnumValue.mk literals (distinctIdentifiers "Value" [] literals)

/-- The name of a type without a definition, after its owner and the field it is found in. -/
def takeLifted (owner field : String) : Step String := do
  let (name, taken) := takeName (owner ++ pascalCase field) (← get).taken .types
  modify fun w => { w with taken }
  return name

/-- The type is written. -/
def write (type : TypeDef) : Step Unit :=
  modify fun w => { w with done := type.name :: w.done, written := w.written ++ [type] }

/-- The definitions that the chain of aliases can still pass through. -/
def Place.chain (p : Place) (catalog : Catalog) : Nat :=
  if p.aliases = [] then 0 else remaining catalog.names p.aliases + 1

/-- The place inside a named type. -/
def Place.enter (p : Place) (name : String) : Place := ⟨name :: p.within, [], []⟩

/-- The place inside an object without a name. -/
def Place.lift (p : Place) (name : String) : Place := ⟨name :: p.within, p.openers, []⟩

/-- The place inside a definition that is no type. -/
def Place.pass (p : Place) (definition : String) : Place :=
  ⟨p.within, if p.aliases = [] then definition :: p.openers else p.openers,
    definition :: p.aliases⟩

/-- Lifting an object leaves the chain of aliases no longer than it was. -/
theorem Place.chain_lift_le (p : Place) (name : String) (catalog : Catalog) :
    (p.lift name).chain catalog ≤ p.chain catalog := by
  simp [Place.chain, Place.lift]

/-- Passing through a definition shortens what is left of the chain, or opens a new one. -/
theorem Place.pass_lex {β : Type} {r : β → β → Prop} {p : Place} {definition : String}
    {catalog : Catalog} {b b' : β} (hmem : definition ∈ catalog.names)
    (halias : definition ∉ p.aliases) (hopener : ¬ (p.aliases = [] ∧ definition ∈ p.openers)) :
    Prod.Lex (· < ·) (Prod.Lex (· < ·) r)
      (remaining catalog.names (p.pass definition).openers, (p.pass definition).chain catalog, b)
      (remaining catalog.names p.openers, p.chain catalog, b') := by
  by_cases h : p.aliases = []
  · apply Prod.Lex.left
    rw [Place.pass, if_pos h]
    exact remaining_cons_lt hmem fun ho => hopener ⟨h, ho⟩
  · have hsame : (p.pass definition).openers = p.openers := by simp [Place.pass, h]
    rw [hsame]
    apply Prod.Lex.right
    apply Prod.Lex.left
    simp only [Place.chain, Place.pass, h, if_false, reduceCtorEq]
    exact Nat.succ_lt_succ (remaining_cons_lt hmem halias)

mutual

/-- The type of a definition that has a name for one, and whether it is still being written. -/
def visit (catalog : Catalog) (naming : Naming) (p : Place) (definition : String) :
    Step (String × Bool) := do
  match _hname : naming.types.get? definition with
  | none => throw (.unresolved definition)
  | some name =>
    if _hwithin : name ∈ p.within then return (name, true)
    else if name ∈ (← get).done then return (name, false)
    else
      match catalog.target? definition with
      | none => throw (.unresolved definition)
      | some schema =>
        emit catalog naming (p.enter name) name definition schema
        return (name, false)
termination_by (remaining naming.names p.within, 0, 0, 0, 0)
decreasing_by
  exact Prod.Lex.left _ _ (remaining_cons_lt (naming.mem_names _hname) _hwithin)

/-- The schema is written as a type of this name, whose place `p` is inside of it. -/
def emit (catalog : Catalog) (naming : Naming) (p : Place) (name source : String) :
    Schema → Step Unit
  | .object fields => do
    write ⟨name, source, .struct (← structFields catalog naming p name source [] fields)⟩
  | .enumeration literals => write ⟨name, source, .enumeration (enumValues literals)⟩
  | other => throw (.typeShape name "" (.notNamed other.variantName))
termination_by schema =>
  (remaining naming.names p.within, remaining catalog.names p.openers, p.chain catalog,
    sizeOf schema, 0)
decreasing_by
  exact Prod.Lex.right _ (Prod.Lex.right _ (Prod.Lex.right _ (Prod.Lex.left _ _ (by
    rw [Schema.object.sizeOf_spec]; omega))))

/-- The fields of a struct; `identifiers` are those in front of them. -/
def structFields (catalog : Catalog) (naming : Naming) (p : Place) (owner source : String)
    (identifiers : List String) : List (Field Schema) → Step (List FieldDefinition)
  | [] => return []
  | field :: rest => do
    -- The types of the field are written first, so they stand in front of the struct.
    let (type, indirect) ← fieldType catalog naming p owner source field.name field.schema
    let (identifier, identifiers) :=
      takeName (goIdentifier field.name "Field") identifiers .nothing
    let others ← structFields catalog naming p owner source identifiers rest
    return ⟨identifier, field.name, type, field.required, indirect⟩ :: others
termination_by fields =>
  (remaining naming.names p.within, remaining catalog.names p.openers, p.chain catalog,
    sizeOf fields, 0)
decreasing_by
  · refine Prod.Lex.right _ (Prod.Lex.right _ (Prod.Lex.right _ (Prod.Lex.left _ _ ?_)))
    have := field.sizeOf_schema_lt
    rw [List.cons.sizeOf_spec]
    omega
  · exact Prod.Lex.right _ (Prod.Lex.right _ (Prod.Lex.right _ (Prod.Lex.left _ _ (by
      rw [List.cons.sizeOf_spec]; omega))))

/-- The type of a field of this schema, and whether it closes a cycle. -/
def fieldType (catalog : Catalog) (naming : Naming) (p : Place) (owner source field : String) :
    Schema → Step (FieldType × Bool)
  | .primitive primitive => return (.ofPrimitive primitive, false)
  | .array items => do
    let (element, indirect) ← fieldType catalog naming p owner source field items
    return (.list element, indirect)
  | .map values => do
    let (element, indirect) ← fieldType catalog naming p owner source field values
    return (.map element, indirect)
  | .unsupported detail => throw (.typeShape owner field (.unsupported detail))
  | .reference target =>
    match _htarget : catalog.get? target with
    | none => throw (.unresolved target)
    | some schema =>
      if schema.isNamed then do
        -- A use of a named type starts neither a chain nor a type.
        let (name, backward) ← visit catalog naming p target
        return (.reference name, backward)
      else if _halias : target ∈ p.aliases then
        throw (.typeShape owner field (.recursiveAlias target))
      else if _hopener : p.aliases = [] ∧ target ∈ p.openers then
        throw (.typeShape owner field (.endlessAlias target))
      else fieldType catalog naming (p.pass target) owner source field schema
  | schema => do
    -- Only an object or an enumeration is left: `Schema.isNamed` without a name.
    let lifted ← takeLifted owner field
    emit catalog naming (p.lift lifted) lifted (source ++ "." ++ field) schema
    return (.reference lifted, false)
termination_by schema =>
  (remaining naming.names p.within, remaining catalog.names p.openers, p.chain catalog,
    sizeOf schema, 1)
decreasing_by
  · exact Prod.Lex.right _ (Prod.Lex.right _ (Prod.Lex.right _ (Prod.Lex.left _ _ (by
      rw [Schema.array.sizeOf_spec]; omega))))
  · exact Prod.Lex.right _ (Prod.Lex.right _ (Prod.Lex.right _ (Prod.Lex.left _ _ (by
      rw [Schema.map.sizeOf_spec]; omega))))
  · exact Prod.Lex.right _ (lex_of_le (Nat.zero_le _) (lex_of_le (Nat.zero_le _)
      (Prod.Lex.left _ _ (by rw [Schema.reference.sizeOf_spec]; omega))))
  · exact Prod.Lex.right _
      (Place.pass_lex (Named.Table.mem_names_of_get? _htarget) _halias _hopener)
  · exact lex_of_le (remaining_cons_le _ _ _) (Prod.Lex.right _
      (lex_of_le (p.chain_lift_le lifted catalog) (Prod.Lex.right _
        Nat.zero_lt_one)))

end

/-- The spec and the status of a resource are written. A status whose definition goes by another
name is written once more, under the name the resource has for it. -/
def writeResource (catalog : Catalog) (naming : Naming) (r : Resource) : Step Unit := do
  discard <| visit catalog naming ⟨[], [], []⟩ r.schemaName
  match r.statusSchemaName with
  | some status =>
    if naming.types.get? status = some r.statusType then
      discard <| visit catalog naming ⟨[], [], []⟩ status
    else writeStatus
  | none => writeStatus
where
  writeStatus : Step Unit :=
    emit catalog naming ⟨[r.statusType], [], []⟩ r.statusType (r.schemaName ++ ".status") r.status

/-- The types of a catalog and its resources, each behind the types of its fields. -/
def extract (catalog : Catalog) (resources : List Resource) : Except Error (List TypeDef) := do
  let naming := Naming.of catalog resources
  let walk : Step Unit := do
    resources.forM (writeResource catalog naming)
    catalog.entries.forM fun (definition, schema) => do
      if schema.isNamed then discard <| visit catalog naming ⟨[], [], []⟩ definition
  let (_, walked) ← walk.run { taken := naming.taken }
  return walked.written

end TypeDef

end ControllerTypes
