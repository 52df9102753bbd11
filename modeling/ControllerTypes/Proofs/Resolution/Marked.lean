import ControllerTypes.Proofs.Resolution.History
import Mathlib.Data.List.Perm.Subperm

/-!
# `ControllerTypes.Proofs.Resolution.Marked`: one table for what is finished and what is not

The resolver is told which definitions it is inside of. It might as well look that up: in `Marked`
a definition is marked in the table of the finished ones when its conversion begins, the mark makes
way for the schema when the conversion ends, and it is taken out when the conversion fails. Nothing
is passed down, and nothing in this recursion says that it ends; an answer of `none` stands for one
that goes on for ever.

`follows` says that both are the same, call by call. The table holds what the memo does, with a mark
for each definition the call is inside of (`Holds`), and every call leaves it so, whether it succeeds
or fails. The recursion without marks is known to end, so this one ends as well.

`resolver_state` says what this means for a resolver that is called again and again: no mark is left
behind, a definition that was worked out once stays as it is, and as long as no call fails, every
definition in the table was converted once.
-/

set_option autoImplicit false

namespace ControllerTypes.Resolution

open Document Named Run

/-- The answers of one resolver to calls with these names, and what it remembers after them. -/
def session (defs : Definitions) : List String → Memo → List (Except Error Schema) × Memo
  | [], m => ([], m)
  | name :: rest, m =>
    let (outcome, m₁) := (resolve defs [] name).run.run m
    let (outcomes, m') := session defs rest m₁
    (outcome :: outcomes, m')

/-- A call by name goes by what is remembered of it. -/
theorem run_resolve (defs : Definitions) (active : List String) (name : String) (m : Memo) :
    (resolve defs active name).run.run m =
      match m.done.get? name with
      | some schema => (.ok schema, m)
      | none =>
        if name ∈ active then (.ok (.reference name), m)
        else
          match defs.get? name with
          | none => (.error (.unresolved name), m)
          | some raw =>
            match (convert defs (name :: active) raw).run.run m.count with
            | (.ok schema, m') => (.ok schema, m'.finish name schema)
            | (.error e, m') => (.error e, m') := by
  have hget : (MonadState.get : Resolve Memo).run.run m = (.ok m, m) := rfl
  rw [resolve, runExcept_bind, hget]
  dsimp only
  cases m.done.get? name with
  | some schema => rfl
  | none =>
    dsimp only
    split
    · rfl
    · split
      · next hraw =>
        rw [hraw]
        rfl
      · next raw hraw =>
        simp only [hraw]
        show (convert defs (name :: active) raw >>= _).run.run m.count = _
        rw [runExcept_bind]
        -- What is remembered of the definition depends on how its conversion ended.
        rcases (convert defs (name :: active) raw).run.run m.count with ⟨e | schema, m'⟩ <;> rfl

namespace Marked

/-! ### The resolver with marks -/

/-- What the table has for a definition. -/
inductive Slot where
  /-- The definition is being worked out. -/
  | inProgress
  | done (schema : Schema)

/-- What the resolver remembers. -/
structure Cache where
  slots : Table Slot := .empty
  /-- How many definitions were converted so far. -/
  conversions : Nat := 0

/-- The cache when the conversion of a definition begins. -/
def Cache.mark (c : Cache) (name : String) : Cache :=
  ⟨c.slots.insert name .inProgress, c.conversions + 1⟩

/-- The cache when it is over. -/
def Cache.finish (c : Cache) (name : String) (schema : Schema) : Cache :=
  { c with slots := c.slots.insert name (.done schema) }

/-- The cache when it failed. -/
def Cache.unmark (c : Cache) (name : String) : Cache :=
  { c with slots := c.slots.erase name }

/-- A step that may go on for ever, and answers nothing then. -/
abbrev Step (α : Type) := ExceptT Error (StateT Cache Option) α

/-- The fields a converted member gives to a composition. -/
def memberFields (c : Cache) : Schema → Option (List (Field Schema))
  | .object fields => some fields
  | .reference name =>
    match c.slots.get? name with
    | some (.done schema) => schema.fields?
    | some .inProgress | none => none
  | _ => none

/-- What a resolver is made for. -/
abbrev Source := Definitions

mutual

/-- The schema of a definition. -/
def Source.resolve (defs : Source) (name : String) : Step Schema := fun c =>
  match c.slots.get? name with
  | some (.done schema) => some (.ok schema, c)
  | some .inProgress => some (.ok (.reference name), c)
  | none =>
    match defs.get? name with
    | none => some (.error (.unresolved name), c)
    | some raw => do
      let (outcome, c') ← defs |>.convert raw (c.mark name)
      match outcome with
      | .ok schema => return (.ok schema, c'.finish name schema)
      | .error e => return (.error e, c'.unmark name)
partial_fixpoint

/-- The schema that a schema object stands for. -/
def Source.convert (defs : Source) (raw : SchemaObject) : Step Schema := do
  match raw.form with
  | .reference ref =>
    match definitionName? ref with
    | none => throw (.unresolved ref)
    | some name =>
      let target ← defs |>.resolve name
      return referenceTo name target
  | .decorated only => defs |>.convert only
  | .all members =>
    let parts ← defs |>.convertMembers members
    let own ← defs |>.convertProperties raw.required raw.properties
    return combineAll parts own raw.required
  | .variants members =>
    let parts ← defs |>.convertMembers members
    let own ← defs |>.convertProperties raw.required raw.properties
    return combineVariants parts own
  | .enumeration literals => return .enumeration (literalTexts literals)
  | .map values => return .map (← defs |>.convert values)
  | .freeMap => return .map (.unsupported "free-form map values")
  | .object properties => return .object (← defs |>.convertProperties raw.required properties)
  | .array items => return .array (← defs |>.convert items)
  | .scalar => return convertScalar raw
partial_fixpoint

/-- The members of a composition. -/
def Source.convertMembers (defs : Source) (raws : List SchemaObject) : Step (List Part) := do
  match raws with
  | [] => return []
  | raw :: rest =>
    let schema ← defs |>.convert raw
    let part : Part := ⟨schema, memberFields (← get) schema⟩
    return part :: (← defs |>.convertMembers rest)
partial_fixpoint

/-- The properties of an object as fields. -/
def Source.convertProperties (defs : Source) (required : List String)
    (properties : List (String × SchemaObject)) : Step (List (Field Schema)) := do
  match properties with
  | [] => return []
  | (name, raw) :: rest =>
    let schema ← defs |>.convert raw
    let others ← defs |>.convertProperties required rest
    return ⟨name, schema, required.contains name⟩ :: others
partial_fixpoint

end

/-- The answers of one resolver to calls with these names, and what it remembers after them. -/
def session (defs : Definitions) :
    List String → Cache → Option (List (Except Error Schema) × Cache)
  | [], c => some ([], c)
  | name :: rest, c => do
    let (outcome, c₁) ← (Source.resolve defs name).run.run c
    let (outcomes, c') ← session defs rest c₁
    return (outcome :: outcomes, c')

/-! ### What the table holds -/

variable {active : List String} {m : Memo} {c : Cache} {name : String}

/-- The table holds what the memo does, and a mark for each definition that is being worked out. -/
structure Holds (active : List String) (m : Memo) (c : Cache) : Prop where
  apart : m.Apart active
  slots (n : String) :
    c.slots.get? n = if n ∈ active then some .inProgress else (m.done.get? n).map .done
  conversions : c.conversions = m.conversions

namespace Holds

/-- At first `Holds` is true of an empty memo and an empty table. -/
theorem start : Holds [] {} {} where
  apart := .nil _
  slots _ := rfl
  conversions := rfl

/-- What is finished by the memo has its schema in the table. -/
theorem done {schema : Schema} (h : Holds active m c) (hdone : m.done.get? name = some schema) :
    c.slots.get? name = some (.done schema) := by
  rw [h.slots, if_neg (h.apart.not_mem hdone), hdone]
  rfl

/-- A conversion begins with a mark, which stands for the definition that is entered. -/
theorem mark (h : Holds active m c) (hnone : m.done.get? name = none) :
    Holds (name :: active) m.count (c.mark name) where
  apart := h.apart.cons hnone
  slots n := by
    show (c.slots.insert name _).get? n = _
    rw [Table.get?_insert, h.slots]
    -- The new definition has the mark, and every other one has what it had.
    by_cases hn : n = name
    · rw [if_pos hn, if_pos (List.mem_cons.2 (.inl hn))]
    · simp only [hn, List.mem_cons, if_false, false_or, Memo.done_count]
  conversions := congrArg (· + 1) h.conversions

/-- When the conversion ends, the mark makes way for the schema. -/
theorem finish (h : Holds (name :: active) m c) (hactive : name ∉ active) (schema : Schema) :
    Holds active (m.finish name schema) (c.finish name schema) where
  apart := h.apart.finish hactive schema
  slots n := by
    show (c.slots.insert name _).get? n = _
    rw [Table.get?_insert, Memo.done_finish, Table.get?_insert, h.slots]
    by_cases hn : n = name
    · rw [if_pos hn, if_pos hn, if_neg (hn ▸ hactive)]
      rfl
    · simp only [hn, List.mem_cons, if_false, false_or]
  conversions := h.conversions

/-- When it fails, the mark is taken out. -/
theorem unmark (h : Holds (name :: active) m c) (hactive : name ∉ active) :
    Holds active m (c.unmark name) where
  apart := fun n hn => h.apart n (List.mem_cons_of_mem _ hn)
  slots n := by
    show (c.slots.erase name).get? n = _
    rw [Table.get?_erase, h.slots]
    -- The definition was not finished while it was being worked out, so nothing is left of it.
    by_cases hn : n = name
    · rw [if_pos hn, if_neg (hn ▸ hactive), hn, h.apart name List.mem_cons_self]
      rfl
    · simp only [hn, List.mem_cons, if_false, false_or]
  conversions := h.conversions

/-- A member gives the same fields by the table as it does by the memo: a mark counts as nothing. -/
theorem memberFields_eq (h : Holds active m c) (schema : Schema) :
    memberFields c schema = Resolution.memberFields m schema := by
  cases schema with
  | reference name =>
    rw [memberFields, Resolution.memberFields, h.slots]
    by_cases hactive : name ∈ active
    · rw [if_pos hactive, h.apart name hactive]
      rfl
    · rw [if_neg hactive]
      cases m.done.get? name <;> rfl
  | _ => rfl

end Holds

/-! ### Both resolvers step by step -/

/-- The step with marks does what the other one does, and leaves the table as the other one leaves
the memo, which has only grown. -/
def Follows (active : List String) {α : Type} (x : Resolve α) (y : Step α) : Prop :=
  ∀ m c, Holds active m c →
    ∃ c', y.run.run c = some ((x.run.run m).1, c') ∧ Holds active (x.run.run m).2 c' ∧
      m.Extends (x.run.run m).2

namespace Follows

variable {α β : Type}

/-- A step that only answers does so with marks. -/
theorem pure (a : α) : Follows active (Pure.pure a) (Pure.pure a) :=
  fun _ c h => ⟨c, rfl, h, .refl _⟩

/-- A step that fails at once does so with marks. -/
theorem throw (e : Error) : Follows active (throw e : Resolve α) (throw e) :=
  fun _ c h => ⟨c, rfl, h, .refl _⟩

/-- Steps that follow each other one by one follow each other in a row. A failure of the first step
is one of both, and leaves the state of the first step. -/
theorem bind {x : Resolve α} {y : Step α} {f : α → Resolve β} {g : α → Step β}
    (hx : Follows active x y) (hf : ∀ a, Follows active (f a) (g a)) :
    Follows active (x >>= f) (y >>= g) := by
  intro m c h
  obtain ⟨c₁, hy, h₁, he₁⟩ := hx m c h
  rw [runExcept_bind, ExceptT.run_bind, StateT.run_bind, hy]
  -- The second step is only made if the first one has not failed.
  rcases hrun : x.run.run m with ⟨e | a, m₁⟩
  · rw [hrun] at h₁ he₁
    exact ⟨c₁, rfl, h₁, he₁⟩
  · rw [hrun] at h₁ he₁
    obtain ⟨c', hg, h', he'⟩ := hf a m₁ c₁ h₁
    exact ⟨c', hg, h', he₁.trans he'⟩

/-- A step that looks at what is remembered sees the same. -/
theorem get {f : Memo → Resolve β} {g : Cache → Step β}
    (hf : ∀ m c, Holds active m c → Follows active (f m) (g c)) :
    Follows active (MonadState.get >>= f) (MonadState.get >>= g) :=
  fun m c h => hf m c h m c h

end Follows

/-- A call by name goes by what the table has for it. -/
theorem run_resolve (defs : Definitions) (name : String) (c : Cache) :
    (Source.resolve defs name).run.run c =
      match c.slots.get? name with
      | some (.done schema) => some (.ok schema, c)
      | some .inProgress => some (.ok (.reference name), c)
      | none =>
        match defs.get? name with
        | none => some (.error (.unresolved name), c)
        | some raw =>
          ((Source.convert defs raw).run.run (c.mark name)).map fun (outcome, c') =>
            match outcome with
            | .ok schema => (.ok schema, c'.finish name schema)
            | .error e => (.error e, c'.unmark name) := by
  show Source.resolve defs name c = _
  rw [Source.resolve]
  rcases c.slots.get? name with - | - | schema
  · cases defs.get? name with
    | none => rfl
    | some raw =>
      show (Source.convert defs raw (c.mark name)).bind _ =
        (Source.convert defs raw (c.mark name)).map _
      rcases Source.convert defs raw (c.mark name) with - | ⟨e | schema, c'⟩ <;> rfl
  · rfl
  · rfl

/-- Every call with marks `Follows` the call that is told what it is inside of. -/
theorem follows (defs : Definitions) :
    (∀ active name,
      Follows active (Resolution.resolve defs active name) (Source.resolve defs name)) ∧
    (∀ active raw, Follows active (Resolution.convert defs active raw) (Source.convert defs raw)) ∧
    (∀ active required properties,
      Follows active (Resolution.convertProperties defs active required properties)
        (Source.convertProperties defs required properties)) ∧
    (∀ active raws,
      Follows active (Resolution.convertMembers defs active raws)
        (Source.convertMembers defs raws)) := by
  -- The recursion without marks is known to end, so the induction goes along that one.
  apply resolve.mutual_induct defs
  -- `resolve`: the table has a schema, a mark, or nothing.
  · intro active name ih m c h
    rw [Resolution.run_resolve, run_resolve]
    cases hdone : m.done.get? name with
    | some schema =>
      rw [h.done hdone]
      exact ⟨c, rfl, h, .refl _⟩
    | none =>
      rw [h.slots, hdone]
      dsimp only
      by_cases hactive : name ∈ active
      · rw [if_pos hactive, if_pos hactive]
        exact ⟨c, rfl, h, .refl _⟩
      · rw [if_neg hactive, if_neg hactive]
        cases hraw : defs.get? name with
        | none => exact ⟨c, rfl, h, .refl _⟩
        | some raw =>
          obtain ⟨c', hconvert, h', he⟩ := ih hactive raw hraw m.count (c.mark name) (h.mark hdone)
          dsimp only [Option.map_none]
          rw [hconvert]
          -- A failure takes out the mark, and a success puts the schema in its place.
          rcases hrun : (Resolution.convert defs (name :: active) raw).run.run m.count with
            ⟨e | schema, m'⟩ <;> rw [hrun] at h' he
          · exact ⟨_, rfl, h'.unmark hactive, he⟩
          · have hnone' := h'.apart name List.mem_cons_self
            exact ⟨_, rfl, h'.finish hactive schema, he.trans (Memo.extends_finish hnone' schema)⟩
  -- `convert`, form by form.
  · intro active raw ref hform hname
    rw [convert_eq, Source.convert]
    simp only [hform, hname]
    exact .throw _
  · intro active raw ref hform name hname ih
    rw [convert_eq, Source.convert]
    simp only [hform, hname]
    exact ih.bind fun _ => .pure _
  · intro active raw only hform ih
    rw [convert_eq, Source.convert]
    simp only [hform]
    exact ih
  · intro active raw members hform ihmembers ihown
    rw [convert_eq, Source.convert]
    simp only [hform]
    exact ihmembers.bind fun _ => ihown.bind fun _ => .pure _
  · intro active raw members hform ihmembers ihown
    rw [convert_eq, Source.convert]
    simp only [hform]
    exact ihmembers.bind fun _ => ihown.bind fun _ => .pure _
  · intro active raw literals hform
    rw [convert_eq, Source.convert]
    simp only [hform]
    exact .pure _
  · intro active raw values hform ih
    rw [convert_eq, Source.convert]
    simp only [hform]
    exact ih.bind fun _ => .pure _
  · intro active raw hform
    rw [convert_eq, Source.convert]
    simp only [hform]
    exact .pure _
  · intro active raw properties hform ih
    rw [convert_eq, Source.convert]
    simp only [hform]
    exact ih.bind fun _ => .pure _
  · intro active raw items hform ih
    rw [convert_eq, Source.convert]
    simp only [hform]
    exact ih.bind fun _ => .pure _
  · intro active raw hform
    rw [convert_eq, Source.convert]
    simp only [hform]
    exact .pure _
  -- `convertProperties`
  · intro active required
    rw [Resolution.convertProperties, Source.convertProperties]
    exact .pure _
  · intro active required name raw rest ihschema ihrest
    rw [Resolution.convertProperties, Source.convertProperties]
    exact ihschema.bind fun _ => ihrest.bind fun _ => .pure _
  -- `convertMembers`
  · intro active
    rw [Resolution.convertMembers, Source.convertMembers]
    exact .pure _
  · intro active raw rest ihschema ihrest
    rw [Resolution.convertMembers, Source.convertMembers]
    refine ihschema.bind fun schema => .get fun m c h => ?_
    rw [h.memberFields_eq]
    exact ihrest.bind fun _ => .pure _

end Marked

/-! ### Counting -/

variable {defs : Definitions} {active : List String} {q : Query} {m m' : Memo}

/-- Finishing one more definition makes the memo longer by one, since by `hnone` it was not there.
-/
theorem Memo.size_finish {name : String} (hnone : m.done.get? name = none) (schema : Schema) :
    (m.finish name schema).done.size = m.done.size + 1 := by
  rw [Table.size, Memo.entries_finish hnone, List.length_append]
  rfl

/-- A query that succeeds finishes as many definitions as it begins to convert. -/
theorem Resolves.conversions_add (h : Resolves defs active q m m') (ha : m.Apart active) :
    m'.conversions + m.done.size = m.conversions + m'.done.size := by
  induction h with
  | done | active | enumeration | freeMap | scalar | noMembers | noProperties => rfl
  | @enter active name raw schema m m' hnone _ _ hconvert ih =>
    have ha' := ha.cons hnone
    have hsize := Memo.size_finish (hconvert.apart ha' name List.mem_cons_self) schema
    -- The conversion that was begun here is counted once, and so is the definition that it
    -- finished.
    have hcount : m'.conversions + m.done.size = m.conversions + 1 + m'.done.size := ih ha'
    show m'.conversions + m.done.size = m.conversions + (m'.finish name schema).done.size
    omega
  | reference _ _ _ ih | decorated _ _ ih | map _ _ ih | object _ _ ih | array _ _ ih => exact ih ha
  | all _ hmembers _ ihmembers ihown | variants _ hmembers _ ihmembers ihown =>
    have hfirst := ihmembers ha
    have hsecond := ihown (hmembers.apart ha)
    omega
  | member hschema _ ihschema ihrest | property hschema _ ihschema ihrest =>
    have hfirst := ihschema ha
    have hsecond := ihrest (hschema.apart ha)
    omega

/-- Only definitions are finished. -/
theorem Resolves.names_subset (h : Resolves defs active q m m') (hm : m.done.names ⊆ defs.names) :
    m'.done.names ⊆ defs.names := by
  induction h with
  | done | active | enumeration | freeMap | scalar | noMembers | noProperties => exact hm
  | @enter active name raw schema m m' _ _ hraw _ ih =>
    intro n hn
    obtain ⟨s, hdone⟩ := Table.mem_names_iff.1 hn
    rcases Memo.get?_finish_cases hdone with ⟨rfl, _⟩ | hdone
    · exact Table.mem_names_of_get? hraw
    · exact ih hm (Table.mem_names_of_get? hdone)
  | reference _ _ _ ih | decorated _ _ ih | map _ _ ih | object _ _ ih | array _ _ ih => exact ih hm
  | all _ _ _ ihmembers ihown | variants _ _ _ ihmembers ihown => exact ihown (ihmembers hm)
  | member _ _ ihschema ihrest | property _ _ ihschema ihrest => exact ihrest (ihschema hm)

/-- Every definition that was converted is finished, and no others are. -/
structure Memo.Counted (defs : Definitions) (m : Memo) : Prop where
  conversions : m.conversions = m.done.size
  names : m.done.names ⊆ defs.names

/-- There are no more of them than there are definitions. -/
theorem Memo.Counted.size_le (h : m.Counted defs) : m.done.size ≤ defs.size := by
  have hle := (m.done.nodup.subperm h.names).length_le
  rwa [Named.names, Table.names, Named.names, List.length_map, List.length_map] at hle

/-- A call that succeeds leaves the memo `Counted`. -/
theorem Resolves.counted (h : Resolves defs [] q m m') (hm : m.Counted defs) : m'.Counted defs where
  conversions := by
    have hadd := h.conversions_add (.nil m)
    have hconversions := hm.conversions
    omega
  names := h.names_subset hm.names

/-! ### Calls one after the other -/

/-- A definition that is finished is answered from the memo, which stays as it is. -/
theorem run_resolve_of_done {name : String} {schema : Schema}
    (hdone : m.done.get? name = some schema) :
    (resolve defs active name).run.run m = (.ok schema, m) := by
  rw [run_resolve, hdone]

/-- A call that succeeds leaves the definition finished with its answer. -/
theorem done_of_run {name : String} {schema : Schema}
    (h : (resolve defs [] name).run.run m = (.ok schema, m')) :
    m'.done.get? name = some schema :=
  ((resolves_of_run defs).1 _ _ _ _ _ h).name_cases.resolve_right fun ⟨hmem, _⟩ => nomatch hmem

/-- A `session` has one answer for each call. -/
theorem length_session (names : List String) (m : Memo) :
    (session defs names m).1.length = names.length := by
  induction names generalizing m with
  | nil => rfl
  | cons name rest ih => exact congrArg (· + 1) (ih _)

/-- Calls that all succeed leave the memo `Counted`. -/
theorem session_counted {names : List String}
    (hok : ∀ outcome ∈ (session defs names m).1, ∃ schema, outcome = .ok schema)
    (hm : m.Counted defs) : (session defs names m).2.Counted defs := by
  induction names generalizing m with
  | nil => exact hm
  | cons name rest ih =>
    obtain ⟨⟨schema, hfirst⟩, hrest⟩ := List.forall_mem_cons.1 hok
    have hrun : (resolve defs [] name).run.run m
        = (.ok schema, ((resolve defs [] name).run.run m).2) := Prod.ext hfirst rfl
    exact ih hrest (((resolves_of_run defs).1 _ _ _ _ _ hrun).counted hm)

namespace Marked

variable {c : Cache}

/-- Outside of all definitions the table has the names that the memo has. -/
theorem Holds.size_eq (h : Holds [] m c) : c.slots.size = m.done.size := by
  -- Without marks a name has a slot exactly if it is finished.
  have hperm : c.slots.names.Perm m.done.names := by
    refine (List.perm_ext_iff_of_nodup c.slots.nodup m.done.nodup).2 fun n => ?_
    show n ∈ c.slots.names ↔ n ∈ m.done.names
    rw [Table.mem_names_iff, Table.mem_names_iff, h.slots, if_neg List.not_mem_nil]
    cases m.done.get? n <;> simp
  have hlength := hperm.length_eq
  rwa [Table.names, Table.names, Named.names, Named.names, List.length_map, List.length_map]
    at hlength

/-- Calls with marks follow the calls without them, one after the other. -/
theorem session_follows (defs : Definitions) (names : List String) (h : Holds [] m c) :
    ∃ c', session defs names c = some ((Resolution.session defs names m).1, c') ∧
      Holds [] (Resolution.session defs names m).2 c' := by
  induction names generalizing m c with
  | nil => exact ⟨c, rfl, h⟩
  | cons name rest ih =>
    obtain ⟨c₁, hfirst, h₁, _⟩ := (follows defs).1 [] name m c h
    obtain ⟨c', hrest, h'⟩ := ih h₁
    refine ⟨c', ?_, h'⟩
    rw [session, hfirst]
    show (session defs rest c₁).bind _ = _
    rw [hrest]
    rfl

/-- A definition that is finished is answered by its schema in all calls of a `session`. -/
theorem session_of_done (h : Holds [] m c) {name : String} {schema : Schema}
    (hdone : m.done.get? name = some schema) {names : List String} :
    ∀ call ∈ names.zip (Resolution.session defs names m).1, call.1 = name →
      call.2 = .ok schema := by
  induction names generalizing m c with
  | nil => exact List.forall_mem_nil _
  | cons first rest ih =>
    obtain ⟨c₁, _, h₁, he⟩ := (follows defs).1 [] first m c h
    refine List.forall_mem_cons.2 ⟨?_, ih h₁ (he.get? hdone)⟩
    rintro rfl
    exact congrArg Prod.fst (run_resolve_of_done hdone)

/-- Calls with the same name agree, once one of them has succeeded. -/
theorem session_pairwise (h : Holds [] m c) (names : List String) :
    (names.zip (Resolution.session defs names m).1).Pairwise fun earlier later =>
      later.1 = earlier.1 → ∀ schema, earlier.2 = .ok schema → later.2 = .ok schema := by
  induction names generalizing m c with
  | nil => exact .nil
  | cons name rest ih =>
    obtain ⟨c₁, _, h₁, _⟩ := (follows defs).1 [] name m c h
    refine .cons (fun later hlater hname schema hok => ?_) (ih h₁)
    -- The call has left its answer in the memo, from where all later ones take it.
    have hdone : ((Resolution.resolve defs [] name).run.run m).2.done.get? name = some schema :=
      done_of_run (Prod.ext hok rfl)
    exact session_of_done h₁ hdone later hlater hname

end Marked

/-- However often a resolver is called, and whether its calls succeed or fail: every call comes to an
end, with the answer that the resolver without marks gives. No definition is marked afterwards. Once
a call has succeeded, all later calls with its name answer the same. And as long as no call fails,
as many definitions were converted as there are names in the table, which are no more than there are
definitions. -/
theorem resolver_state (defs : Definitions) (names : List String) :
    ∃ outcomes cache, Marked.session defs names {} = some (outcomes, cache) ∧
      outcomes = (session defs names {}).1 ∧ outcomes.length = names.length ∧
      (∀ n, cache.slots.get? n ≠ some .inProgress) ∧
      ((names.zip outcomes).Pairwise fun earlier later =>
        later.1 = earlier.1 → ∀ schema, earlier.2 = .ok schema → later.2 = .ok schema) ∧
      ((∀ outcome ∈ outcomes, ∃ schema, outcome = .ok schema) →
        cache.conversions = cache.slots.size ∧ cache.conversions ≤ defs.size) := by
  obtain ⟨cache, hsession, h⟩ := Marked.session_follows defs names .start
  refine ⟨_, cache, hsession, rfl, ?_, ?_, Marked.session_pairwise .start names, ?_⟩
  · exact length_session names {}
  · -- Outside of all definitions the table has schemas only.
    intro n hmarked
    rw [h.slots, if_neg List.not_mem_nil] at hmarked
    cases hdone : (session defs names {}).2.done.get? n <;> rw [hdone] at hmarked <;> cases hmarked
  · intro hok
    have hcounted := session_counted hok ⟨rfl, List.nil_subset _⟩
    have hsize := h.size_eq
    have hconversions := h.conversions.trans hcounted.conversions
    exact ⟨hconversions.trans hsize.symm, hconversions ▸ hcounted.size_le⟩

end ControllerTypes.Resolution
