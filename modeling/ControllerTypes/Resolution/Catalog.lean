import ControllerTypes.Named
import ControllerTypes.Schema

/-!
# `ControllerTypes.Resolution.Catalog`: the resolved definitions

A catalog holds the schema of every definition, in document order. A definition may resolve to a
reference when it only gives another one a second name; `Catalog.target?` follows such references to
the schema they stand for. A chain without a repetition has fewer steps than there are definitions,
so the walk gives up after that many. Proofs do not count the steps: `target?_induction` goes along
the chain from name to name.

`Catalog` is `ResolvedSchemas`, and `Catalog.target?` its `target`.
-/

set_option autoImplicit false

namespace ControllerTypes

/-- The resolved definitions, in document order. -/
abbrev Catalog := Named.Table Schema

namespace Catalog

/-- The schema at the end of a chain of at most so many references. -/
def follow (c : Catalog) : Nat → Schema → Option Schema
  | 0, _ => none
  | steps + 1, schema =>
    match schema with
    | .reference next => (c.get? next).bind (c.follow steps)
    | _ => some schema

/-- The schema a definition stands for. -/
def target? (c : Catalog) (name : String) : Option Schema :=
  (c.get? name).bind (c.follow (c.size + 1))

variable {c : Catalog} {name : String} {schema : Schema}

/-- A definition that stands for something is in the catalog. -/
theorem mem_names_of_target? (h : c.target? name = some schema) : name ∈ c.names := by
  obtain ⟨_, hget, _⟩ := Option.bind_eq_some_iff.1 h
  exact Named.Table.mem_names_of_get? hget

/-- What holds of every definition with the schema that `name` stands for, unless that is a
reference, and of every definition that is a reference to one of which it holds, holds of `name`. -/
theorem target?_induction {motive : String → Prop} (h : c.target? name = some schema)
    (here : ∀ d, c.get? d = some schema → (∀ n, schema ≠ .reference n) → motive d)
    (renamed : ∀ d next, c.get? d = some (.reference next) → motive next → motive d) :
    motive name := by
  rw [target?] at h
  -- On the number of references that may still be followed. How many those are does not matter.
  generalize c.size + 1 = steps at h
  induction steps generalizing name with
  | zero =>
    obtain ⟨_, _, hnone⟩ := Option.bind_eq_some_iff.1 h
    cases hnone
  | succ steps ih =>
    obtain ⟨first, hget, hfollow⟩ := Option.bind_eq_some_iff.1 h
    cases first with
    | reference next => exact renamed name next hget (ih hfollow)
    | object | array | map | enumeration | primitive | unsupported =>
      cases hfollow
      exact here name hget nofun

/-- A definition that is an object or an enumeration stands for itself. -/
theorem target?_of_isNamed (hget : c.get? name = some schema) (hnamed : schema.isNamed = true) :
    c.target? name = some schema := by
  rw [target?, hget, Option.bind_some]
  cases schema <;> first | rfl | cases hnamed

/-- A reference to an object or an enumeration stands for that. -/
theorem target?_of_reference {next : String} (hget : c.get? name = some (.reference next))
    (hnext : c.get? next = some schema) (hnamed : schema.isNamed = true) :
    c.target? name = some schema := by
  -- A catalog with a reference in it has room for one more step.
  have hsize : c.size ≠ 0 := by
    intro hzero
    have hnone : c.get? name = none := by
      rw [Named.Table.get?, List.eq_nil_of_length_eq_zero hzero]
      rfl
    rw [hnone] at hget
    cases hget
  obtain ⟨steps, hsteps⟩ := Nat.exists_eq_succ_of_ne_zero hsize
  rw [target?, hget, Option.bind_some, follow, hnext, Option.bind_some, hsteps]
  cases schema <;> first | rfl | cases hnamed

end Catalog

end ControllerTypes
