import ControllerTypes.Description.OfDocument
import ControllerTypes.Document.Form
import ControllerTypes.Error
import ControllerTypes.Resolution.Catalog
import ControllerTypes.Resolution.Merge
import ControllerTypes.Resolution.Remaining

/-!
# `ControllerTypes.Resolution.Resolver`: working out what definitions mean

`resolve` turns the definition of a name into a `Schema`. A name is worked out once: the `Memo`
keeps finished schemas, and it outlives a failure, so later calls profit from what earlier ones got
done.

* A reference to an object or an enumeration stays a reference, because these become types of their
  own. A reference to anything else is replaced by what it refers to.
* A reference back into a definition that is still being worked out stays a reference as well. The
  definitions being worked out are those the call is inside of; they are passed down as `active`.
* Compositions merge the fields of their members. A member that is being worked out has none yet.

Every step into a name makes `active` longer, every other step makes the schema smaller, and
together they end the recursion.

`resolve` is `resolve` of the `SchemaResolver`, and `Memo` the part of it that stays behind.
`convert` is `convert`, `convert_object` and `reference_to` in one; `convertProperties` is
`convert_properties`, `memberFields` is `member_fields`, `combineAll` is `merge_all_of`,
`combineVariants` is `flatten_variants`, and `literalTexts` is `enum_literals`.
-/

set_option autoImplicit false

namespace ControllerTypes.Resolution

open Document Text

/-- What a resolver remembers from call to call. -/
structure Memo where
  /-- The names that are worked out, with their schemas. -/
  done : Named.Table Schema := .empty
  /-- How many definitions were converted so far. -/
  conversions : Nat := 0

/-- A step of resolution: it may fail, and what was remembered stays remembered. -/
abbrev Resolve (α : Type) := ExceptT Error (StateM Memo) α

/-- The literals of an enumeration as texts: each once, and `null` never. -/
def literalTexts (literals : List Json) : List String :=
  let texts := literals.filterMap fun v =>
    match v with
    | .null => none
    | .string s => some s
    | other => some other.render
  texts.eraseDups

/-- The scalar type of a string. -/
def stringType (format : Option String) : Primitive :=
  if format = some "date-time" then .dateTime else .string

/-- The fields a resolved member gives to a composition. -/
def memberFields (memo : Memo) : Schema → Option (List (Field Schema))
  | .object fields => some fields
  -- A definition that is still being worked out is not among the finished ones.
  | .reference name => (memo.done.get? name).bind Schema.fields?
  | _ => none

/-- The schema of a type name that has no parts. -/
def convertScalar (raw : SchemaObject) : Schema :=
  match raw.typeName? with
  | none => .unsupported "schema without a type"
  | some "string" => .primitive (stringType raw.format)
  | some "integer" => .primitive .integer
  | some "number" => .primitive .number
  | some "boolean" => .primitive .boolean
  | some "array" => .unsupported "array without items"
  | some other => .unsupported ("type " ++ Quoting.text.quote other)

/-- The members of an `allOf` and the object's own fields in one schema. -/
def combineAll (parts : List Part) (own : List (Field Schema)) (required : List String) : Schema :=
  if !anyObject parts && own.isEmpty then
    (firstOther? parts).getD (.unsupported "allOf without object members")
  else .object (requireNamed required (mergeFields (partFields parts ++ own)))

/-- The variants of a `oneOf` or `anyOf` and the object's own fields in one schema. -/
def combineVariants (parts : List Part) (own : List (Field Schema)) : Schema :=
  if !anyObject parts && own.isEmpty then
    (firstOther? parts).getD (.unsupported "oneOf/anyOf without usable variants")
  else .object (mergeFields (partFields (parts.map Part.optional) ++ own))

mutual

/-- The schema of a definition; `active` are the definitions the call is inside of. A name in the
`Memo` is not worked out again, and one that is `active` is answered with a reference to it. -/
def resolve (defs : Definitions) (active : List String) (name : String) : Resolve Schema := do
  match (← get).done.get? name with
  | some schema => return schema
  | none =>
    if _hactive : name ∈ active then return .reference name
    else
      match _hraw : defs.get? name with
      | none => throw (.unresolved name)
      | some raw =>
        modify fun memo => { memo with conversions := memo.conversions + 1 }
        -- A failure leaves here, so a definition that did not work out has no schema afterwards.
        let schema ← convert defs (name :: active) raw
        modify fun memo => { memo with done := memo.done.insert name schema }
        return schema
termination_by (remaining defs.names active, 0)
decreasing_by
  exact Prod.Lex.left _ _ (remaining_cons_lt (Named.Table.mem_names_of_get? _hraw) _hactive)

/-- The schema that a schema object stands for, by the `form` it has. -/
def convert (defs : Definitions) (active : List String) (raw : SchemaObject) :
    Resolve Schema := do
  match _hform : raw.form with
  | .reference ref =>
    match definitionName? ref with
    | none => throw (.unresolved ref)
    | some name =>
      let target ← resolve defs active name
      return if target.isNamed then .reference name else target
  | .decorated only => convert defs active only
  | .all members =>
    let parts ← convertMembers defs active members
    let own ← convertProperties defs active raw.required raw.properties
    return combineAll parts own raw.required
  | .variants members =>
    let parts ← convertMembers defs active members
    let own ← convertProperties defs active raw.required raw.properties
    return combineVariants parts own
  | .enumeration literals => return .enumeration (literalTexts literals)
  | .map values => return .map (← convert defs active values)
  | .freeMap => return .map (.unsupported "free-form map values")
  | .object properties =>
    return .object (← convertProperties defs active raw.required properties)
  | .array items => return .array (← convert defs active items)
  | .scalar => return convertScalar raw
termination_by (remaining defs.names active, sizeOf raw)
decreasing_by
  -- The steps into a part of the form, and into the own properties of a composition.
  all_goals have hform := raw.form_below
  all_goals simp only [_hform] at hform
  · exact Prod.Lex.right _ raw.sizeOf_pos
  · exact Prod.Lex.right _ hform
  · exact Prod.Lex.right _ hform
  · exact Prod.Lex.right _ raw.sizeOf_properties_lt
  · exact Prod.Lex.right _ hform
  · exact Prod.Lex.right _ raw.sizeOf_properties_lt
  · exact Prod.Lex.right _ hform
  · exact Prod.Lex.right _ hform
  · exact Prod.Lex.right _ hform

/-- The members of a composition, each with the fields it gives to it. -/
def convertMembers (defs : Definitions) (active : List String) :
    List SchemaObject → Resolve (List Part)
  | [] => return []
  | raw :: rest => do
    let schema ← convert defs active raw
    -- The fields are those known now: converting the next member may finish more definitions.
    let part : Part := ⟨schema, memberFields (← get) schema⟩
    return part :: (← convertMembers defs active rest)
termination_by raws => (remaining defs.names active, sizeOf raws)
decreasing_by
  · exact Prod.Lex.right _ (by rw [List.cons.sizeOf_spec]; omega)
  · exact Prod.Lex.right _ (by have := raw.sizeOf_pos; rw [List.cons.sizeOf_spec]; omega)

/-- The properties of an object as fields, of which those in `required` have to be there. -/
def convertProperties (defs : Definitions) (active required : List String) :
    List (String × SchemaObject) → Resolve (List (Field Schema))
  | [] => return []
  | (name, raw) :: rest => do
    let schema ← convert defs active raw
    let others ← convertProperties defs active required rest
    return ⟨name, schema, required.contains name⟩ :: others
termination_by properties => (remaining defs.names active, sizeOf properties)
decreasing_by
  · exact Prod.Lex.right _ (by rw [List.cons.sizeOf_spec, Prod.mk.sizeOf_spec]; omega)
  · exact Prod.Lex.right _ (by rw [List.cons.sizeOf_spec, Prod.mk.sizeOf_spec]; omega)

end

/-- The schemas of the named definitions, one after the other. -/
def resolveEach (defs : Definitions) : List String → Resolve (List (String × Schema))
  | [] => return []
  | name :: rest => do
    let schema ← resolve defs [] name
    return (name, schema) :: (← resolveEach defs rest)

end ControllerTypes.Resolution
