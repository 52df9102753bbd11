import ControllerTypes.Proofs.Named
import ControllerTypes.Proofs.Resolution.Resolves

/-!
# `ControllerTypes.Proofs.Resolution.Region`: what every step of a conversion has in common

`resolve`, `convert`, `convertMembers` and `convertProperties` are put together from a few steps:
they look at the memo, change it, answer, and give up at a reference to something that is not there.
So a property of steps that passes from two steps to one after the other (`Composable`) holds of all
four, as long as it holds where they give up. `Region.holds` is this induction, made once.

It is made inside of a `Region`: some definitions and schemas that conversion does not get out of.
Going from a definition to what it says, from a schema to its `parts`, and from a reference to the
definition it names, everything stays inside.
-/

set_option autoImplicit false

namespace ControllerTypes

open Document

/-- The schemas that the conversion of a schema goes on to. -/
def Document.SchemaObject.parts (raw : SchemaObject) : List SchemaObject :=
  match raw.form with
  | .decorated inner | .map inner | .array inner => [inner]
  | .all members | .variants members => members ++ raw.properties.map Prod.snd
  | .object properties => properties.map Prod.snd
  | .reference _ | .enumeration _ | .freeMap | .scalar => []

namespace Resolution

open Named Run

/-! ### References that name nothing -/

/-- The reference names a definition. -/
def Names (defs : Definitions) (ref : String) : Prop :=
  ∃ n, definitionName? ref = some n ∧ n ∈ defs.names

/-- The reference names no definition, and this is what the failure calls it. -/
inductive Broken (defs : Definitions) : String → String → Prop where
  | foreign {ref : String} (hname : definitionName? ref = none) : Broken defs ref ref
  | missing {ref n : String} (hname : definitionName? ref = some n) (hmissing : n ∉ defs.names) :
      Broken defs ref n

/-- A reference that `Names` a definition is not `Broken`. -/
theorem Names.not_broken {defs : Definitions} {ref x : String} (h : Names defs ref) :
    ¬ Broken defs ref x := by
  obtain ⟨n, hname, hmem⟩ := h
  intro hbroken
  cases hbroken with
  | foreign hnone => cases hname.symm.trans hnone
  | missing hname' hmissing =>
    cases hname.symm.trans hname'
    exact hmissing hmem

/-! ### Steps and where they lead -/

/-- The property holds of the simplest steps, and of steps one after the other. -/
structure Composable (K : {α : Type} → Resolve α → Prop) : Prop where
  pure {α : Type} (a : α) : K (Pure.pure a : Resolve α)
  bind {α β : Type} {x : Resolve α} {f : α → Resolve β} (hx : K x) (hf : ∀ a, K (f a)) :
    K (x >>= f)
  get : K (MonadState.get : Resolve Memo)
  modify (change : Memo → Memo) : K (modify change : Resolve PUnit)

/-- Definitions and schemas that conversion stays inside of. -/
structure Region (defs : Definitions) where
  names : String → Prop
  schemas : SchemaObject → Prop
  definition {d : String} {raw : SchemaObject} (hd : names d) (hraw : defs.get? d = some raw) :
    schemas raw
  part {raw part : SchemaObject} (hraw : schemas raw) (hpart : part ∈ raw.parts) : schemas part
  target {raw : SchemaObject} {ref n : String} (hraw : schemas raw)
    (hform : raw.form = .reference ref) (hname : definitionName? ref = some n)
    (hmem : n ∈ defs.names) : names n

/-- What passes from step to step, being `Composable`, holds of all that is converted in the region
`R`, if by `hbroken` it holds where the region has a broken reference. -/
theorem Region.holds {defs : Definitions} (R : Region defs) {K : {α : Type} → Resolve α → Prop}
    (hK : Composable K)
    (hbroken : ∀ raw ref x, R.schemas raw → raw.form = .reference ref → Broken defs ref x →
      K (throw (.unresolved x) : Resolve Schema)) :
    (∀ active name, (name ∈ defs.names → R.names name) →
      (name ∉ defs.names → K (throw (.unresolved name) : Resolve Schema)) →
      K (resolve defs active name)) ∧
    (∀ active raw, R.schemas raw → K (convert defs active raw)) ∧
    (∀ active required properties, (∀ part ∈ properties.map Prod.snd, R.schemas part) →
      K (convertProperties defs active required properties)) ∧
    (∀ active members, (∀ part ∈ members, R.schemas part) →
      K (convertMembers defs active members)) := by
  -- The recursion of the four functions gives one case for each branch in which one of them can
  -- end.
  apply resolve.mutual_induct defs
  -- `resolve`: the definition is remembered, being worked out, not there, or converted.
  · intro active name ih hname hmissing
    rw [resolve]
    refine hK.bind hK.get fun memo => ?_
    split
    · exact hK.pure _
    · split
      · exact hK.pure _
      · next hactive =>
        split
        · next hnone => exact hmissing (Named.get?_eq_none_iff.1 hnone)
        · next raw hraw =>
          have hinside := R.definition (hname (Table.mem_names_of_get? hraw)) hraw
          exact hK.bind (hK.modify _) fun _ => hK.bind (ih hactive raw hraw hinside)
            fun _ => hK.bind (hK.modify _) fun _ => hK.pure _
  -- `convert`, form by form.
  · intro active raw ref hform hname hraw
    rw [convert_eq]
    simp only [hform, hname]
    exact hbroken raw ref ref hraw hform (.foreign hname)
  · intro active raw ref hform name hname ih hraw
    rw [convert_eq]
    simp only [hform, hname]
    refine hK.bind (ih (R.target hraw hform hname) fun hmissing => ?_) fun _ => hK.pure _
    exact hbroken raw ref name hraw hform (.missing hname hmissing)
  · intro active raw only hform ih hraw
    rw [convert_eq]
    simp only [hform]
    exact ih (R.part hraw (by simp [SchemaObject.parts, hform]))
  · intro active raw members hform ihmembers ihown hraw
    have hparts : ∀ part ∈ raw.parts, R.schemas part := fun _ => R.part hraw
    simp only [SchemaObject.parts, hform, List.forall_mem_append] at hparts
    rw [convert_eq]
    simp only [hform]
    exact hK.bind (ihmembers hparts.1) fun _ => hK.bind (ihown hparts.2) fun _ => hK.pure _
  · intro active raw members hform ihmembers ihown hraw
    have hparts : ∀ part ∈ raw.parts, R.schemas part := fun _ => R.part hraw
    simp only [SchemaObject.parts, hform, List.forall_mem_append] at hparts
    rw [convert_eq]
    simp only [hform]
    exact hK.bind (ihmembers hparts.1) fun _ => hK.bind (ihown hparts.2) fun _ => hK.pure _
  · intro active raw literals hform _
    rw [convert_eq]
    simp only [hform]
    exact hK.pure _
  · intro active raw values hform ih hraw
    rw [convert_eq]
    simp only [hform]
    exact hK.bind (ih (R.part hraw (by simp [SchemaObject.parts, hform]))) fun _ => hK.pure _
  · intro active raw hform _
    rw [convert_eq]
    simp only [hform]
    exact hK.pure _
  · intro active raw properties hform ih hraw
    have hparts : ∀ part ∈ raw.parts, R.schemas part := fun _ => R.part hraw
    simp only [SchemaObject.parts, hform] at hparts
    rw [convert_eq]
    simp only [hform]
    exact hK.bind (ih hparts) fun _ => hK.pure _
  · intro active raw items hform ih hraw
    rw [convert_eq]
    simp only [hform]
    exact hK.bind (ih (R.part hraw (by simp [SchemaObject.parts, hform]))) fun _ => hK.pure _
  · intro active raw hform _
    rw [convert_eq]
    simp only [hform]
    exact hK.pure _
  -- `convertProperties`
  · intro active required _
    rw [convertProperties]
    exact hK.pure _
  · intro active required name raw rest ihschema ihrest hparts
    obtain ⟨hfirst, hothers⟩ := List.forall_mem_cons.1 hparts
    rw [convertProperties]
    exact hK.bind (ihschema hfirst) fun _ => hK.bind (ihrest hothers) fun _ => hK.pure _
  -- `convertMembers`
  · intro active _
    rw [convertMembers]
    exact hK.pure _
  · intro active raw rest ihschema ihrest hparts
    obtain ⟨hfirst, hothers⟩ := List.forall_mem_cons.1 hparts
    rw [convertMembers]
    exact hK.bind (ihschema hfirst) fun _ => hK.bind hK.get fun _ =>
      hK.bind (ihrest hothers) fun _ => hK.pure _

/-- What is `Composable` holds of a run over `names` if it holds of each. -/
theorem Composable.resolveEach {defs : Definitions} {K : {α : Type} → Resolve α → Prop}
    (hK : Composable K) {names : List String}
    (hnames : ∀ n ∈ names, K (resolve defs [] n)) : K (resolveEach defs names) := by
  induction names with
  | nil => exact hK.pure _
  | cons name rest ih =>
    obtain ⟨hname, hrest⟩ := List.forall_mem_cons.1 hnames
    exact hK.bind hname fun _ => hK.bind (ih hrest) fun _ => hK.pure _

/-! ### Steps that succeed, and steps that fail -/

/-- The step succeeds whatever is remembered. -/
def Total {α : Type} (x : Resolve α) : Prop := ∀ m, ∃ a m', x.run.run m = (.ok a, m')

/-- Steps that succeed whatever is remembered do so one after the other. -/
theorem Total.composable : Composable Total where
  pure a m := ⟨a, m, rfl⟩
  bind hx hf m := by
    obtain ⟨a, m₁, ha⟩ := hx m
    obtain ⟨b, m', hb⟩ := hf a m₁
    exact ⟨b, m', runExcept_bind_eq_ok.2 ⟨a, m₁, ha, hb⟩⟩
  get m := ⟨m, m, rfl⟩
  modify change m := ⟨⟨⟩, change m, rfl⟩

/-- Whenever the step fails, this is true of the failure. -/
def FailsOnly (P : Error → Prop) {α : Type} (x : Resolve α) : Prop :=
  ∀ m e m', x.run.run m = (.error e, m') → P e

/-- Of two steps one after the other, either may be the one that fails, and `P` is true of both
failures. -/
theorem FailsOnly.composable (P : Error → Prop) : Composable (FailsOnly P) where
  pure a m e m' h := nomatch h
  bind hx hf m e m' h := by
    rcases runExcept_bind_eq_error.1 h with hfirst | ⟨a, m₁, _, hsecond⟩
    · exact hx m e m' hfirst
    · exact hf a m₁ e m' hsecond
  get m e m' h := nomatch h
  modify change m e m' h := nomatch h

/-- Giving up with `e` fails only as `P` allows, if `P` is true of it. -/
theorem FailsOnly.throw {P : Error → Prop} {α : Type} {e : Error} (h : P e) :
    FailsOnly P (throw e : Resolve α) := by
  intro m e' m' hrun
  cases hrun
  exact h

end Resolution

end ControllerTypes
