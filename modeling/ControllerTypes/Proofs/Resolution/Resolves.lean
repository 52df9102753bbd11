import ControllerTypes.Proofs.Run
import ControllerTypes.Resolution.Basic

/-!
# `ControllerTypes.Proofs.Resolution.Resolves`: resolution as a relation

`resolve`, `convert`, `convertMembers` and `convertProperties` call each other and share a memo.
`Resolves defs active q m m'` says that the query `q`, made inside of the definitions `active`,
succeeds and turns the memo `m` into `m'`; what it answered is part of the `Query`. There is one
rule for each way in which a query can succeed, and `resolves_of_run` shows that there is no other
way.

`resolvesAll_of_resolveAll` says that resolving a description is the chain of queries for its names.
-/

set_option autoImplicit false

namespace ControllerTypes.Resolution

open Document Run

/-- A query of the resolver, with its arguments first and what it answered behind them. -/
inductive Query where
  | name (name : String) (answer : Schema)
  | schema (raw : SchemaObject) (answer : Schema)
  | members (raws : List SchemaObject) (parts : List Part)
  | properties (required : List String) (properties : List (String × SchemaObject))
      (fields : List (Field Schema))

/-- The memo while one more definition is converted. -/
def Memo.count (m : Memo) : Memo := { m with conversions := m.conversions + 1 }

/-- The memo with one more definition worked out. -/
def Memo.finish (m : Memo) (name : String) (schema : Schema) : Memo :=
  { m with done := m.done.insert name schema }

/-- Counting a conversion finishes nothing. -/
@[simp] theorem Memo.done_count (m : Memo) : m.count.done = m.done := rfl

/-- Finishing a definition puts it among the `done` ones. -/
@[simp] theorem Memo.done_finish (m : Memo) (name : String) (schema : Schema) :
    (m.finish name schema).done = m.done.insert name schema := rfl

/-- What stands for a reference to a definition with this schema. -/
def referenceTo (name : String) (target : Schema) : Schema :=
  if target.isNamed then .reference name else target

/-- The ways in which a query succeeds. -/
inductive Resolves (defs : Definitions) : List String → Query → Memo → Memo → Prop where
  | done {active : List String} {name : String} {schema : Schema} {m : Memo}
      (hdone : m.done.get? name = some schema) : Resolves defs active (.name name schema) m m
  | active {active : List String} {name : String} {m : Memo} (hnone : m.done.get? name = none)
      (hactive : name ∈ active) : Resolves defs active (.name name (.reference name)) m m
  | enter {active : List String} {name : String} {raw : SchemaObject} {schema : Schema}
      {m m' : Memo} (hnone : m.done.get? name = none) (hactive : name ∉ active)
      (hraw : defs.get? name = some raw)
      (hconvert : Resolves defs (name :: active) (.schema raw schema) m.count m') :
      Resolves defs active (.name name schema) m (m'.finish name schema)
  | reference {active : List String} {raw : SchemaObject} {ref name : String} {target : Schema}
      {m m' : Memo} (hform : raw.form = .reference ref) (hname : definitionName? ref = some name)
      (htarget : Resolves defs active (.name name target) m m') :
      Resolves defs active (.schema raw (referenceTo name target)) m m'
  | decorated {active : List String} {raw only : SchemaObject} {schema : Schema} {m m' : Memo}
      (hform : raw.form = .decorated only)
      (honly : Resolves defs active (.schema only schema) m m') :
      Resolves defs active (.schema raw schema) m m'
  | all {active : List String} {raw : SchemaObject} {members : List SchemaObject}
      {parts : List Part} {own : List (Field Schema)} {m m₁ m' : Memo}
      (hform : raw.form = .all members) (hmembers : Resolves defs active (.members members parts) m m₁)
      (hown : Resolves defs active (.properties raw.required raw.properties own) m₁ m') :
      Resolves defs active (.schema raw (combineAll parts own raw.required)) m m'
  | variants {active : List String} {raw : SchemaObject} {members : List SchemaObject}
      {parts : List Part} {own : List (Field Schema)} {m m₁ m' : Memo}
      (hform : raw.form = .variants members)
      (hmembers : Resolves defs active (.members members parts) m m₁)
      (hown : Resolves defs active (.properties raw.required raw.properties own) m₁ m') :
      Resolves defs active (.schema raw (combineVariants parts own)) m m'
  | enumeration {active : List String} {raw : SchemaObject} {literals : List Json} {m : Memo}
      (hform : raw.form = .enumeration literals) :
      Resolves defs active (.schema raw (.enumeration (literalTexts literals))) m m
  | map {active : List String} {raw values : SchemaObject} {schema : Schema} {m m' : Memo}
      (hform : raw.form = .map values)
      (hvalues : Resolves defs active (.schema values schema) m m') :
      Resolves defs active (.schema raw (.map schema)) m m'
  | freeMap {active : List String} {raw : SchemaObject} {m : Memo} (hform : raw.form = .freeMap) :
      Resolves defs active (.schema raw (.map (.unsupported "free-form map values"))) m m
  | object {active : List String} {raw : SchemaObject}
      {properties : List (String × SchemaObject)} {fields : List (Field Schema)} {m m' : Memo}
      (hform : raw.form = .object properties)
      (hfields : Resolves defs active (.properties raw.required properties fields) m m') :
      Resolves defs active (.schema raw (.object fields)) m m'
  | array {active : List String} {raw items : SchemaObject} {schema : Schema} {m m' : Memo}
      (hform : raw.form = .array items)
      (hitems : Resolves defs active (.schema items schema) m m') :
      Resolves defs active (.schema raw (.array schema)) m m'
  | scalar {active : List String} {raw : SchemaObject} {m : Memo} (hform : raw.form = .scalar) :
      Resolves defs active (.schema raw (convertScalar raw)) m m
  | noMembers {active : List String} {m : Memo} : Resolves defs active (.members [] []) m m
  | member {active : List String} {raw : SchemaObject} {rest : List SchemaObject}
      {schema : Schema} {parts : List Part} {m m₁ m' : Memo}
      (hschema : Resolves defs active (.schema raw schema) m m₁)
      (hrest : Resolves defs active (.members rest parts) m₁ m') :
      Resolves defs active (.members (raw :: rest) (⟨schema, memberFields m₁ schema⟩ :: parts)) m m'
  | noProperties {active required : List String} {m : Memo} :
      Resolves defs active (.properties required [] []) m m
  | property {active required : List String} {name : String} {raw : SchemaObject}
      {rest : List (String × SchemaObject)} {schema : Schema} {others : List (Field Schema)}
      {m m₁ m' : Memo} (hschema : Resolves defs active (.schema raw schema) m m₁)
      (hrest : Resolves defs active (.properties required rest others) m₁ m') :
      Resolves defs active
        (.properties required ((name, raw) :: rest)
          (⟨name, schema, required.contains name⟩ :: others)) m m'

/-- The rule by which a schema was converted is that of its `form`. -/
theorem Resolves.of_form {defs : Definitions} {active : List String} {raw : SchemaObject}
    {schema : Schema} {m m' : Memo} (h : Resolves defs active (.schema raw schema) m m') :
    match raw.form with
    | .reference ref => ∃ name target, definitionName? ref = some name ∧
        schema = referenceTo name target ∧ Resolves defs active (.name name target) m m'
    | .decorated only => Resolves defs active (.schema only schema) m m'
    | .all members => ∃ parts own m₁, schema = combineAll parts own raw.required ∧
        Resolves defs active (.members members parts) m m₁ ∧
        Resolves defs active (.properties raw.required raw.properties own) m₁ m'
    | .variants members => ∃ parts own m₁, schema = combineVariants parts own ∧
        Resolves defs active (.members members parts) m m₁ ∧
        Resolves defs active (.properties raw.required raw.properties own) m₁ m'
    | .enumeration literals => schema = .enumeration (literalTexts literals) ∧ m' = m
    | .map values => ∃ value, schema = .map value ∧ Resolves defs active (.schema values value) m m'
    | .freeMap => schema = .map (.unsupported "free-form map values") ∧ m' = m
    | .object properties => ∃ fields, schema = .object fields ∧
        Resolves defs active (.properties raw.required properties fields) m m'
    | .array items => ∃ item, schema = .array item ∧ Resolves defs active (.schema items item) m m'
    | .scalar => schema = convertScalar raw ∧ m' = m := by
  cases h with
  | reference hform hname htarget => rw [hform]; exact ⟨_, _, hname, rfl, htarget⟩
  | decorated hform honly => rw [hform]; exact honly
  | all hform hmembers hown | variants hform hmembers hown =>
    rw [hform]
    exact ⟨_, _, _, rfl, hmembers, hown⟩
  | map hform hschema | array hform hschema | object hform hschema =>
    rw [hform]
    exact ⟨_, rfl, hschema⟩
  | enumeration hform | freeMap hform | scalar hform => rw [hform]; exact ⟨rfl, rfl⟩

/-! ### The functions follow the rules -/

/-- Converting a schema goes by its `form`, with `referenceTo` in the place of the case distinction.
-/
theorem convert_eq (defs : Definitions) (active : List String) (raw : SchemaObject) :
    convert defs active raw =
      match raw.form with
      | .reference ref =>
        match definitionName? ref with
        | none => throw (.unresolved ref)
        | some name => do
          let target ← resolve defs active name
          return referenceTo name target
      | .decorated only => convert defs active only
      | .all members => do
        let parts ← convertMembers defs active members
        let own ← convertProperties defs active raw.required raw.properties
        return combineAll parts own raw.required
      | .variants members => do
        let parts ← convertMembers defs active members
        let own ← convertProperties defs active raw.required raw.properties
        return combineVariants parts own
      | .enumeration literals => return .enumeration (literalTexts literals)
      | .map values => do return .map (← convert defs active values)
      | .freeMap => return .map (.unsupported "free-form map values")
      | .object properties => do
        return .object (← convertProperties defs active raw.required properties)
      | .array items => do return .array (← convert defs active items)
      | .scalar => return convertScalar raw := by
  rw [convert]
  split <;> next h => rw [h]; try rfl

/-- Every query that succeeds does so by one of the rules of `Resolves`. -/
theorem resolves_of_run (defs : Definitions) :
    (∀ active name m schema m',
      (resolve defs active name).run.run m = (.ok schema, m') →
      Resolves defs active (.name name schema) m m') ∧
    (∀ active raw m schema m',
      (convert defs active raw).run.run m = (.ok schema, m') →
      Resolves defs active (.schema raw schema) m m') ∧
    (∀ active required properties m fields m',
      (convertProperties defs active required properties).run.run m = (.ok fields, m') →
      Resolves defs active (.properties required properties fields) m m') ∧
    (∀ active members m parts m',
      (convertMembers defs active members).run.run m = (.ok parts, m') →
      Resolves defs active (.members members parts) m m') := by
  -- The recursion of the four functions gives one case for each branch in which one of them can
  -- end.
  apply resolve.mutual_induct defs
  -- `resolve`: what is done, what is being worked out, and what has to be converted.
  · intro active name ih m schema m' h
    rw [resolve, runExcept_bind_eq_ok] at h
    obtain ⟨memo, m₁, hget, h⟩ := h
    cases hget
    split at h
    · next hdone =>
      cases h
      exact .done hdone
    · next hnone =>
      split at h
      · next hactive =>
        cases h
        exact .active hnone hactive
      · next hactive =>
        split at h
        · cases h
        · next raw hraw =>
          rw [runExcept_bind_eq_ok] at h
          obtain ⟨⟨⟩, m₁, hcount, h⟩ := h
          cases hcount
          rw [runExcept_bind_eq_ok] at h
          obtain ⟨schema', m₂, hconvert, h⟩ := h
          cases h
          exact .enter hnone hactive hraw (ih hactive raw hraw _ _ _ hconvert)
  -- `convert`, form by form.
  · intro active raw ref hform hname m schema m' h
    rw [convert_eq] at h
    simp only [hform, hname] at h
    cases h
  · intro active raw ref hform name hname ih m schema m' h
    rw [convert_eq] at h
    simp only [hform, hname, runExcept_bind_eq_ok] at h
    obtain ⟨target, m₁, htarget, h⟩ := h
    cases h
    exact .reference hform hname (ih _ _ _ htarget)
  · intro active raw only hform ih m schema m' h
    rw [convert_eq] at h
    simp only [hform] at h
    exact .decorated hform (ih _ _ _ h)
  · intro active raw members hform ihmembers ihown m schema m' h
    rw [convert_eq] at h
    simp only [hform, runExcept_bind_eq_ok] at h
    obtain ⟨parts, m₁, hparts, own, m₂, hown, h⟩ := h
    cases h
    exact .all hform (ihmembers _ _ _ hparts) (ihown _ _ _ hown)
  · intro active raw members hform ihmembers ihown m schema m' h
    rw [convert_eq] at h
    simp only [hform, runExcept_bind_eq_ok] at h
    obtain ⟨parts, m₁, hparts, own, m₂, hown, h⟩ := h
    cases h
    exact .variants hform (ihmembers _ _ _ hparts) (ihown _ _ _ hown)
  · intro active raw literals hform m schema m' h
    rw [convert_eq] at h
    simp only [hform] at h
    cases h
    exact .enumeration hform
  · intro active raw values hform ih m schema m' h
    rw [convert_eq] at h
    simp only [hform, runExcept_bind_eq_ok] at h
    obtain ⟨schema', m₁, hvalues, h⟩ := h
    cases h
    exact .map hform (ih _ _ _ hvalues)
  · intro active raw hform m schema m' h
    rw [convert_eq] at h
    simp only [hform] at h
    cases h
    exact .freeMap hform
  · intro active raw properties hform ih m schema m' h
    rw [convert_eq] at h
    simp only [hform, runExcept_bind_eq_ok] at h
    obtain ⟨fields, m₁, hfields, h⟩ := h
    cases h
    exact .object hform (ih _ _ _ hfields)
  · intro active raw items hform ih m schema m' h
    rw [convert_eq] at h
    simp only [hform, runExcept_bind_eq_ok] at h
    obtain ⟨schema', m₁, hitems, h⟩ := h
    cases h
    exact .array hform (ih _ _ _ hitems)
  · intro active raw hform m schema m' h
    rw [convert_eq] at h
    simp only [hform] at h
    cases h
    exact .scalar hform
  -- `convertProperties`
  · intro active required m fields m' h
    rw [convertProperties] at h
    cases h
    exact .noProperties
  · intro active required name raw rest ihschema ihrest m fields m' h
    simp only [convertProperties, runExcept_bind_eq_ok] at h
    obtain ⟨schema, m₁, hschema, others, m₂, hrest, h⟩ := h
    cases h
    exact .property (ihschema _ _ _ hschema) (ihrest _ _ _ hrest)
  -- `convertMembers`
  · intro active m parts m' h
    rw [convertMembers] at h
    cases h
    exact .noMembers
  · intro active raw rest ihschema ihrest m parts m' h
    simp only [convertMembers, runExcept_bind_eq_ok] at h
    obtain ⟨schema, m₁, hschema, memo, m₂, hget, others, m₃, hrest, h⟩ := h
    cases hget
    cases h
    exact .member (ihschema _ _ _ hschema) (ihrest _ _ _ hrest)

/-! ### A description -/

/-- Queries for the names succeed one after the other, each from outside of all definitions. -/
inductive ResolvesAll (defs : Definitions) : List (String × Schema) → Memo → Memo → Prop where
  | nil {m : Memo} : ResolvesAll defs [] m m
  | cons {name : String} {schema : Schema} {rest : List (String × Schema)} {m m₁ m' : Memo}
      (hfirst : Resolves defs [] (.name name schema) m m₁)
      (hrest : ResolvesAll defs rest m₁ m') :
      ResolvesAll defs ((name, schema) :: rest) m m'

/-- Resolving names with `resolveEach` is the chain of queries for them. -/
theorem resolvesAll_of_resolveEach {defs : Definitions} {names : List String}
    {answers : List (String × Schema)} {m m' : Memo}
    (h : (resolveEach defs names).run.run m = (.ok answers, m')) :
    ResolvesAll defs answers m m' ∧ Named.names answers = names := by
  induction names generalizing answers m with
  | nil =>
    cases h
    exact ⟨.nil, rfl⟩
  | cons name rest ih =>
    simp only [resolveEach, runExcept_bind_eq_ok] at h
    obtain ⟨schema, m₁, hfirst, others, m₂, hrest, h⟩ := h
    cases h
    obtain ⟨hall, hnames⟩ := ih hrest
    exact ⟨.cons ((resolves_of_run defs).1 _ _ _ _ _ hfirst) hall, congrArg (name :: ·) hnames⟩

/-- What is remembered when all definitions of a description are worked out. -/
def finalMemo (defs : Definitions) : Memo := ((resolveEach defs defs.names).run {}).2

/-- The definitions were worked out one after the other, and this is what became of them. Nothing is
said of definitions that only point at each other. -/
def WorkedOut (defs : Definitions) (catalog : Catalog) : Prop :=
  ∃ answers, (resolveEach defs defs.names).run.run {} = (.ok answers, finalMemo defs) ∧
    catalog = .ofList answers

/-- A description is resolved if its definitions are `WorkedOut` and each arrives at a schema. -/
theorem resolveAll_eq_ok_iff {defs : Definitions} {catalog : Catalog} :
    resolveAll defs = .ok catalog ↔
      WorkedOut defs catalog ∧ checkAliasCycles catalog = .ok () := by
  rw [resolveAll, WorkedOut, finalMemo]
  -- If working out the definitions failed, there is no catalog to check.
  rcases hrun : (resolveEach defs defs.names).run {} with ⟨_ | answers, m⟩
  · constructor
    · intro h
      cases h
    · rintro ⟨⟨answers, hanswers, _⟩, _⟩
      cases hrun.symm.trans hanswers
  · simp only [bind_eq_ok]
    constructor
    · rintro ⟨_, hanswers, ⟨⟩, hcheck, h⟩
      cases hanswers
      cases h
      exact ⟨⟨answers, hrun, rfl⟩, hcheck⟩
    · rintro ⟨⟨_, hanswers, rfl⟩, hcheck⟩
      cases hrun.symm.trans hanswers
      exact ⟨answers, rfl, ⟨⟩, hcheck, rfl⟩

/-- Working out the definitions is the chain of queries for their names, which `ResolvesAll` is. -/
theorem WorkedOut.resolvesAll {defs : Definitions} {catalog : Catalog} (h : WorkedOut defs catalog) :
    ∃ answers, ResolvesAll defs answers {} (finalMemo defs) ∧
      Named.names answers = defs.names ∧ catalog.entries = answers := by
  obtain ⟨answers, hrun, rfl⟩ := h
  obtain ⟨hall, hnames⟩ := resolvesAll_of_resolveEach hrun
  exact ⟨answers, hall, hnames, Named.ofList_of_nodup (hnames ▸ defs.nodup)⟩

/-- A description that is resolved has the answers of the queries for its names, in the order of the
document. -/
theorem resolvesAll_of_resolveAll {defs : Definitions} {catalog : Catalog}
    (h : resolveAll defs = .ok catalog) :
    ∃ answers, ResolvesAll defs answers {} (finalMemo defs) ∧
      Named.names answers = defs.names ∧ catalog.entries = answers :=
  (resolveAll_eq_ok_iff.1 h).1.resolvesAll

end ControllerTypes.Resolution
