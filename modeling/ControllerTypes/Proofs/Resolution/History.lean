import ControllerTypes.Proofs.Named
import ControllerTypes.Proofs.Resolution.Refers

/-!
# `ControllerTypes.Proofs.Resolution.History`: what the memo remembers

A definition is put into the memo once, when its conversion is over, and stays there as it is. So
the memo is a history: the names stand in it in the order in which the definitions were finished,
and what stood in it at some moment is a prefix of what stands in it at the end
(`Resolves.extends`).

Two things hold between any two queries. No definition that is being worked out is finished
(`Memo.Apart`), and a definition that is finished as a reference refers to one that is finished or
being worked out (`Memo.Known`). With them every entry leads back to the conversion it came from
(`Memo.Entered`, `Resolves.converted`).

`resolved_of_resolveAll` sums up what this means for a description: the catalog is the memo at the
end, and each of its schemas is the answer of a conversion.
-/

set_option autoImplicit false

namespace ControllerTypes.Resolution

open Document Named

variable {defs : Definitions} {active : List String} {q : Query} {m m' : Memo}

/-! ### Definitions that are being worked out -/

/-- No definition that is being worked out is finished. -/
def Memo.Apart (active : List String) (m : Memo) : Prop := ∀ n ∈ active, m.done.get? n = none

namespace Memo.Apart

/-- Outside of all definitions nothing is being worked out. -/
theorem nil (m : Memo) : m.Apart [] := fun _ h => absurd h List.not_mem_nil

/-- A definition that is entered is not finished, by `hnone`. -/
theorem cons {name : String} (h : m.Apart active) (hnone : m.done.get? name = none) :
    m.Apart (name :: active) :=
  List.forall_mem_cons.2 ⟨hnone, h⟩

/-- A definition that is finished is not being worked out. -/
theorem not_mem (h : m.Apart active) {name : String} {schema : Schema}
    (hdone : m.done.get? name = some schema) : name ∉ active := by
  intro hmem
  rw [h name hmem] at hdone
  cases hdone

/-- The innermost of the definitions that are being worked out is finished, and the others are as
far as they were. By `hactive` it is not one of them a second time. -/
theorem finish {name : String} (h : m.Apart (name :: active)) (hactive : name ∉ active)
    (schema : Schema) : (m.finish name schema).Apart active := by
  intro n hn
  have hne : n ≠ name := fun heq => hactive (heq ▸ hn)
  rw [Memo.done_finish, Table.get?_insert, if_neg hne]
  exact h n (List.mem_cons_of_mem _ hn)

end Memo.Apart

/-- No query finishes a definition that is being worked out: what `Memo.Apart` says before, it says
afterwards. -/
theorem Resolves.apart (h : Resolves defs active q m m') (ha : m.Apart active) :
    m'.Apart active := by
  induction h with
  | done | active | enumeration | freeMap | scalar | noMembers | noProperties => exact ha
  -- The only rule that finishes a definition is the one that entered it.
  | enter hnone hactive _ _ ih => exact (ih (ha.cons hnone)).finish hactive _
  | reference _ _ _ ih | decorated _ _ ih | map _ _ ih | object _ _ ih | array _ _ ih => exact ih ha
  | all _ _ _ ihmembers ihown | variants _ _ _ ihmembers ihown => exact ihown (ihmembers ha)
  | member _ _ ihschema ihrest | property _ _ ihschema ihrest => exact ihrest (ihschema ha)

/-! ### The memo only grows -/

/-- What one memo holds stands at the front of the other. -/
def Memo.Extends (m m' : Memo) : Prop := m.done.entries <+: m'.done.entries

namespace Memo.Extends

/-- A memo stands at its own front. -/
theorem refl (m : Memo) : m.Extends m := List.prefix_rfl

/-- What stands at the front of a front stands at the front. -/
theorem trans {m₁ m₂ m₃ : Memo} (h : m₁.Extends m₂) (h' : m₂.Extends m₃) : m₁.Extends m₃ :=
  List.IsPrefix.trans h h'

/-- A definition that is finished stays as it is. -/
theorem get? (h : m.Extends m') {name : String} {schema : Schema}
    (hdone : m.done.get? name = some schema) : m'.done.get? name = some schema := by
  obtain ⟨added, hadded⟩ := h
  show Named.get? m'.done.entries name = some schema
  rw [← hadded, Named.get?_append, show Named.get? m.done.entries name = some schema from hdone]
  rfl

end Memo.Extends

/-- A definition that is finished goes to the end. -/
theorem Memo.entries_finish {name : String} (hnone : m.done.get? name = none) (schema : Schema) :
    (m.finish name schema).done.entries = m.done.entries ++ [(name, schema)] :=
  if_neg (Named.get?_eq_none_iff.1 hnone)

/-- Finishing a definition adds to the memo. -/
theorem Memo.extends_finish {name : String} (hnone : m.done.get? name = none) (schema : Schema) :
    m.Extends (m.finish name schema) := by
  rw [Memo.Extends, Memo.entries_finish hnone]
  exact List.prefix_append _ _

/-- The definition that was finished has its schema. -/
theorem Memo.get?_finish_self (m : Memo) (name : String) (schema : Schema) :
    (m.finish name schema).done.get? name = some schema := by
  rw [Memo.done_finish, Table.get?_insert, if_pos rfl]

/-- What is finished afterwards is what was finished last, or was finished before. -/
theorem Memo.get?_finish_cases {name n : String} {schema s : Schema}
    (h : (m.finish name schema).done.get? n = some s) :
    n = name ∧ s = schema ∨ m.done.get? n = some s := by
  rw [Memo.done_finish, Table.get?_insert] at h
  split at h
  · next heq => exact .inl ⟨heq, (Option.some.inj h).symm⟩
  · exact .inr h

/-- Every query only adds to the memo. -/
theorem Resolves.extends (h : Resolves defs active q m m') (ha : m.Apart active) :
    m.Extends m' := by
  induction h with
  | done | active | enumeration | freeMap | scalar | noMembers | noProperties => exact .refl _
  | enter hnone _ _ hconvert ih =>
    have ha' := ha.cons hnone
    -- What the conversion finished is added first, and behind it the definition itself, which it
    -- has left alone.
    exact (ih ha').trans (Memo.extends_finish (hconvert.apart ha' _ List.mem_cons_self) _)
  | reference _ _ _ ih | decorated _ _ ih | map _ _ ih | object _ _ ih | array _ _ ih => exact ih ha
  | all _ hmembers _ ihmembers ihown | variants _ hmembers _ ihmembers ihown =>
    exact (ihmembers ha).trans (ihown (hmembers.apart ha))
  | member hschema _ ihschema ihrest | property hschema _ ihschema ihrest =>
    exact (ihschema ha).trans (ihrest (hschema.apart ha))

/-! ### References to definitions -/

/-- The definition is finished or being worked out. -/
def Memo.Started (active : List String) (m : Memo) (name : String) : Prop :=
  name ∈ active ∨ ∃ schema, m.done.get? name = some schema

/-- What was `Started` stays so when the memo grows. -/
theorem Memo.Started.mono {name : String} (h : m.Started active name) (he : m.Extends m') :
    m'.Started active name :=
  h.imp_right fun hdone => hdone.imp fun _ hdone => he.get? hdone

/-- When the innermost of the definitions is finished, all that was started still is. -/
theorem Memo.Started.finish {name target : String} (h : m.Started (name :: active) target)
    (hnone : m.done.get? name = none) (schema : Schema) :
    (m.finish name schema).Started active target := by
  rcases h with hactive | hdone
  · rcases List.mem_cons.1 hactive with rfl | hactive
    · exact .inr ⟨schema, m.get?_finish_self target schema⟩
    · exact .inl hactive
  · exact .inr (hdone.imp fun _ hdone => (Memo.extends_finish hnone schema).get? hdone)

/-- A definition that is finished as a reference refers to one that was started. -/
def Memo.Known (active : List String) (m : Memo) : Prop :=
  ∀ n target, m.done.get? n = some (.reference target) → m.Started active target

/-- Nothing is finished at first, so nothing is finished as a reference. -/
theorem Memo.Known.start : ({} : Memo).Known active := by
  intro n target hdone
  cases hdone

/-- The schemas a query answers. -/
def Query.answers : Query → List Schema
  | name _ answer | schema _ answer => [answer]
  | members _ parts => parts.map Part.schema
  | properties _ _ _ => []

/-- What is asked for by name is answered by what is finished under it, or by a reference to what is
being worked out. -/
theorem Resolves.name_cases {name : String} {schema : Schema}
    (h : Resolves defs active (.name name schema) m m') :
    m'.done.get? name = some schema ∨ name ∈ active ∧ schema = .reference name := by
  cases h with
  | done hdone => exact .inl hdone
  | active _ hactive => exact .inr ⟨hactive, rfl⟩
  | enter => exact .inl (Memo.get?_finish_self _ _ _)

/-- What is asked for by name was `Started` afterwards. -/
theorem Resolves.started {name : String} {schema : Schema}
    (h : Resolves defs active (.name name schema) m m') : m'.Started active name :=
  h.name_cases.elim (fun hdone => .inr ⟨schema, hdone⟩) fun hactive => .inl hactive.1

/-- A composition without objects among its parts is one of them, or `default` if there are none. -/
theorem schema_mem_of_firstOther? {parts : List Part} {schema default : Schema}
    (h : (firstOther? parts).getD default = schema) :
    schema = default ∨ ∃ part ∈ parts, part.fields = none ∧ part.schema = schema := by
  unfold firstOther? at h
  cases hfind : parts.find? fun p => p.fields.isNone with
  | none =>
    rw [hfind] at h
    exact .inl h.symm
  | some part =>
    rw [hfind] at h
    have hnone := List.find?_some hfind
    exact .inr ⟨part, List.mem_of_find?_eq_some hfind, Option.isNone_iff_eq_none.1 hnone, h⟩

/-- An `allOf` that comes to a reference has it as one of its parts. -/
theorem mem_of_combineAll {parts : List Part} {own : List (Field Schema)}
    {required : List String} {target : String}
    (h : combineAll parts own required = .reference target) :
    .reference target ∈ parts.map Part.schema := by
  unfold combineAll at h
  split at h
  · rcases schema_mem_of_firstOther? h with heq | ⟨part, hpart, _, heq⟩
    · cases heq
    · exact heq ▸ List.mem_map_of_mem hpart
  · cases h

/-- Variants that come to a reference have it as one of their parts. -/
theorem mem_of_combineVariants {parts : List Part} {own : List (Field Schema)} {target : String}
    (h : combineVariants parts own = .reference target) :
    .reference target ∈ parts.map Part.schema := by
  unfold combineVariants at h
  split at h
  · rcases schema_mem_of_firstOther? h with heq | ⟨part, hpart, _, heq⟩
    · cases heq
    · exact heq ▸ List.mem_map_of_mem hpart
  · cases h

/-- What `referenceTo` answers is a reference to the definition, or what the definition itself
stands for. -/
theorem referenceTo_cases {name n : String} {target : Schema}
    (h : referenceTo name target = .reference n) :
    n = name ∧ target.isNamed = true ∨ target = .reference n := by
  rw [referenceTo] at h
  split at h
  · next hnamed =>
    cases h
    exact .inl ⟨rfl, hnamed⟩
  · exact .inr h

/-- A scalar is never a reference. -/
theorem convertScalar_ne_reference (raw : SchemaObject) (target : String) :
    convertScalar raw ≠ .reference target := by
  intro h
  unfold convertScalar at h
  split at h <;> cases h

/-- Every query keeps the references of the memo `Known`, and answers known ones. -/
theorem Resolves.known (h : Resolves defs active q m m') (ha : m.Apart active)
    (hk : m.Known active) :
    m'.Known active ∧ ∀ target, .reference target ∈ q.answers → m'.Started active target := by
  induction h with
  -- An answer from the memo is known because the memo is.
  | done hdone =>
    refine ⟨hk, ?_⟩
    intro target hmem
    rw [← List.mem_singleton.1 hmem] at hdone
    exact hk _ target hdone
  | active _ hactive =>
    refine ⟨hk, ?_⟩
    intro target hmem
    cases List.mem_singleton.1 hmem
    exact .inl hactive
  | @enter active name raw schema m m' hnone hactive _ hconvert ih =>
    have ha' := ha.cons hnone
    obtain ⟨hknown, hanswer⟩ := ih ha' fun n target hdone =>
      (hk n target hdone).imp_left (List.mem_cons_of_mem _)
    have hnone' := hconvert.apart ha' name List.mem_cons_self
    refine ⟨?_, fun target hmem => (hanswer target hmem).finish hnone' schema⟩
    intro n target hdone
    -- The entry is the new one, whose reference is the answer of the conversion, or an older one.
    rcases Memo.get?_finish_cases hdone with ⟨rfl, rfl⟩ | hdone
    · exact (hanswer target (List.mem_singleton.2 rfl)).finish hnone' _
    · exact (hknown n target hdone).finish hnone' schema
  | @reference _ _ _ name target _ _ _ _ htarget ih =>
    obtain ⟨hknown, hanswer⟩ := ih ha hk
    refine ⟨hknown, ?_⟩
    intro target' hmem
    -- The reference is to the name that was asked for, or is the answer for it.
    rcases referenceTo_cases (List.mem_singleton.1 hmem).symm with ⟨rfl, _⟩ | heq
    · exact htarget.started
    · exact hanswer target' (List.mem_singleton.2 heq.symm)
  | decorated _ _ ih => exact ih ha hk
  | all _ hmembers hown ihmembers ihown =>
    obtain ⟨hknown, hanswer⟩ := ihmembers ha hk
    refine ⟨(ihown (hmembers.apart ha) hknown).1, ?_⟩
    intro target hmem
    -- A composition is a reference only if one of its members is.
    have hpart := mem_of_combineAll (List.mem_singleton.1 hmem).symm
    exact (hanswer target hpart).mono (hown.extends (hmembers.apart ha))
  | variants _ hmembers hown ihmembers ihown =>
    obtain ⟨hknown, hanswer⟩ := ihmembers ha hk
    refine ⟨(ihown (hmembers.apart ha) hknown).1, ?_⟩
    intro target hmem
    have hpart := mem_of_combineVariants (List.mem_singleton.1 hmem).symm
    exact (hanswer target hpart).mono (hown.extends (hmembers.apart ha))
  | enumeration | freeMap => exact ⟨hk, by simp [Query.answers]⟩
  | map _ _ ih | object _ _ ih | array _ _ ih =>
    exact ⟨(ih ha hk).1, by simp [Query.answers]⟩
  | @scalar _ raw =>
    refine ⟨hk, ?_⟩
    intro target hmem
    exact absurd (List.mem_singleton.1 hmem).symm (convertScalar_ne_reference raw target)
  | noMembers | noProperties => exact ⟨hk, by simp [Query.answers]⟩
  | member hschema hrest ihschema ihrest =>
    obtain ⟨hknown, hanswer⟩ := ihschema ha hk
    obtain ⟨hknown', hothers⟩ := ihrest (hschema.apart ha) hknown
    refine ⟨hknown', ?_⟩
    intro target hmem
    rcases List.mem_cons.1 hmem with heq | hmem
    · exact (hanswer target (List.mem_singleton.2 heq)).mono (hrest.extends (hschema.apart ha))
    · exact hothers target hmem
  | property hschema _ ihschema ihrest =>
    obtain ⟨hknown, _⟩ := ihschema ha hk
    exact ⟨(ihrest (hschema.apart ha) hknown).1, by simp [Query.answers]⟩

/-! ### Where finished definitions come from -/

/-- The conversion that a finished definition comes from: it was made inside of other definitions,
which lead to it, at a time when none of them was finished, and its answer went into the memo right
behind it. -/
structure Memo.Entered (defs : Definitions) (final : Memo) (name : String) (schema : Schema)
    (raw : SchemaObject) (active : List String) (m m' : Memo) : Prop where
  raw_eq : defs.get? name = some raw
  path : ∀ d ∈ active, Relation.TransGen (Refers defs) d name
  apart : m.Apart (name :: active)
  known : m.Known (name :: active)
  converted : Resolves defs (name :: active) (.schema raw schema) m m'
  /-- The definitions that are finished in front of it are those of the memo it left. -/
  finished : m'.done.entries ++ [(name, schema)] <+: final.done.entries

/-- What is finished comes from a conversion. -/
def Memo.Converted (defs : Definitions) (final : Memo) (name : String) (schema : Schema) : Prop :=
  ∃ raw active m m', final.Entered defs name schema raw active m m'

/-- What came from a conversion still does when more is finished behind it. -/
theorem Memo.Converted.mono {name : String} {schema : Schema}
    (h : m.Converted defs name schema) (he : m.Extends m') : m'.Converted defs name schema := by
  obtain ⟨raw, active, m₀, m₁, hentered⟩ := h
  exact ⟨raw, active, m₀, m₁, { hentered with finished := hentered.finished.trans he }⟩

/-- What is finished after a query was finished before it, or comes from a conversion that the query
made. -/
theorem Resolves.converted (h : Resolves defs active q m m') (hp : Ahead defs active q)
    (ha : m.Apart active) (hk : m.Known active) {name : String} {schema : Schema}
    (hdone : m'.done.get? name = some schema) :
    m.done.get? name = some schema ∨ m'.Converted defs name schema := by
  -- Of two queries in a row, either may have finished it.
  have hchain {m m₁ m' : Memo}
      (hfirst : m₁.done.get? name = some schema →
        m.done.get? name = some schema ∨ m₁.Converted defs name schema) (he : m₁.Extends m')
      (hsecond : m₁.done.get? name = some schema ∨ m'.Converted defs name schema) :
      m.done.get? name = some schema ∨ m'.Converted defs name schema := by
    rcases hsecond with hdone | hnew
    · exact (hfirst hdone).imp_right fun hnew => hnew.mono he
    · exact .inr hnew
  induction h with
  | done | active | enumeration | freeMap | scalar | noMembers | noProperties => exact .inl hdone
  | @enter active other raw schema' m m' hnone hactive hraw hconvert ih =>
    have ha' := ha.cons hnone
    have hk' : m.count.Known (other :: active) := fun n target hdone =>
      (hk n target hdone).imp_left (List.mem_cons_of_mem _)
    have hnone' := hconvert.apart ha' _ List.mem_cons_self
    -- Here is the conversion: the definition that is finished now comes from the one just made.
    rcases Memo.get?_finish_cases hdone with ⟨rfl, rfl⟩ | hdone
    · exact .inr ⟨raw, active, m.count, m', hraw, fun d hd => hp d hd _ rfl, ha', hk', hconvert,
        Memo.entries_finish hnone' _ ▸ List.prefix_rfl⟩
    · exact (ih (hp.enter hraw _) ha' hk' hdone).imp_right fun hnew =>
        hnew.mono (Memo.extends_finish hnone' schema')
  -- Elsewhere the query only hands on what lies ahead of it.
  | reference hform hname _ ih =>
    refine ih (hp.mono ?_) ha hk hdone
    rintro n rfl
    exact .reference hform hname
  | decorated hform _ ih => exact ih (hp.mono fun _ => .decorated hform) ha hk hdone
  | map hform _ ih => exact ih (hp.mono fun _ => .values hform) ha hk hdone
  | object hform _ ih => exact ih (hp.mono fun _ => .of_properties hform) ha hk hdone
  | array hform _ ih => exact ih (hp.mono fun _ => .items hform) ha hk hdone
  | all hform hmembers hown ihmembers ihown =>
    have ha' := hmembers.apart ha
    exact hchain (ihmembers (hp.mono fun _ => .of_members (.inl hform)) ha hk) (hown.extends ha')
      (ihown (hp.mono fun _ => .of_own (.inl hform)) ha' (hmembers.known ha hk).1 hdone)
  | variants hform hmembers hown ihmembers ihown =>
    have ha' := hmembers.apart ha
    exact hchain (ihmembers (hp.mono fun _ => .of_members (.inr hform)) ha hk) (hown.extends ha')
      (ihown (hp.mono fun _ => .of_own (.inr hform)) ha' (hmembers.known ha hk).1 hdone)
  | member hschema hrest ihschema ihrest =>
    have ha' := hschema.apart ha
    exact hchain (ihschema (hp.mono fun _ => Query.asks_member) ha hk) (hrest.extends ha')
      (ihrest (hp.mono fun _ => Query.asks_members) ha' (hschema.known ha hk).1 hdone)
  | property hschema hrest ihschema ihrest =>
    have ha' := hschema.apart ha
    exact hchain (ihschema (hp.mono fun _ => Query.asks_property) ha hk) (hrest.extends ha')
      (ihrest (hp.mono fun _ => Query.asks_properties) ha' (hschema.known ha hk).1 hdone)

/-! ### A description -/

/-- What all queries for names leave behind. -/
structure ResolvesAll.History (defs : Definitions) (answers : List (String × Schema))
    (m m' : Memo) : Prop where
  known : m'.Known []
  grown : m.Extends m'
  answered : ∀ x ∈ answers, m'.done.get? x.1 = some x.2
  converted : ∀ name schema, m'.done.get? name = some schema →
    m.done.get? name = some schema ∨ m'.Converted defs name schema

/-- Queries from outside of all definitions leave their answers in the memo. -/
theorem ResolvesAll.history {answers : List (String × Schema)} (h : ResolvesAll defs answers m m')
    (hk : m.Known []) : ResolvesAll.History defs answers m m' := by
  induction h with
  | nil => exact ⟨hk, .refl _, by simp, fun _ _ => .inl⟩
  | @cons name schema rest m m₁ m' hfirst _ ih =>
    obtain ⟨hknown, hgrown, hanswered, hconverted⟩ := ih (hfirst.known (.nil m) hk).1
    refine ⟨hknown, (hfirst.extends (.nil m)).trans hgrown, ?_, ?_⟩
    · refine List.forall_mem_cons.2 ⟨?_, hanswered⟩
      -- From outside there is nothing that is being worked out, so the answer is finished.
      rcases hfirst.name_cases with hdone | ⟨hactive, _⟩
      · exact hgrown.get? hdone
      · cases hactive
    · intro n s hdone
      -- What the other queries found finished was finished by the first one or before it.
      rcases hconverted n s hdone with hdone | hnew
      · exact (hfirst.converted (.outside _) (.nil m) hk hdone).imp_right fun hnew =>
          hnew.mono hgrown
      · exact .inr hnew

/-- How a catalog comes from the memo at the end. -/
structure Resolved (defs : Definitions) (catalog : Catalog) : Prop where
  names_eq : catalog.names = defs.names
  get?_eq : ∀ name, catalog.get? name = (finalMemo defs).done.get? name
  converted : ∀ name schema, catalog.get? name = some schema →
    (finalMemo defs).Converted defs name schema

/-- When all definitions are `WorkedOut`, the memo at the end is the catalog. -/
theorem WorkedOut.resolved {catalog : Catalog} (h : WorkedOut defs catalog) :
    Resolved defs catalog := by
  obtain ⟨answers, hall, hnames, hentries⟩ := h.resolvesAll
  obtain ⟨_, _, hanswered, hconverted⟩ := hall.history .start
  -- Since nothing is finished at first, all that is finished comes from a conversion.
  have hcome (name : String) (schema : Schema)
      (hdone : (finalMemo defs).done.get? name = some schema) :
      (finalMemo defs).Converted defs name schema :=
    (hconverted name schema hdone).resolve_left (by rintro ⟨⟩)
  have hget (name : String) (schema : Schema) (hsome : catalog.get? name = some schema) :
      (finalMemo defs).done.get? name = some schema :=
    hanswered (name, schema) (hentries ▸ Table.get?_eq_some_iff.1 hsome)
  have hdefs : catalog.names = defs.names := by rw [Table.names, hentries, hnames]
  refine ⟨hdefs, ?_, fun name schema hsome => hcome name schema (hget name schema hsome)⟩
  intro name
  cases hdone : (finalMemo defs).done.get? name with
  | none =>
    cases hsome : catalog.get? name with
    | none => rfl
    | some schema => exact absurd (hget name schema hsome) (by rw [hdone]; simp)
  | some schema =>
    -- What is finished has a definition, and every definition was asked for.
    obtain ⟨raw, _, _, _, hnew⟩ := hcome name schema hdone
    have hmem := Table.mem_names_of_get? hnew.raw_eq
    obtain ⟨schema', hsome⟩ := Table.mem_names_iff.1 (hdefs ▸ hmem)
    rw [hsome, ← hdone, hget name schema' hsome]

/-- A description that is resolved is `Resolved`: the memo at the end is its catalog. -/
theorem resolved_of_resolveAll {catalog : Catalog} (h : resolveAll defs = .ok catalog) :
    Resolved defs catalog :=
  (resolveAll_eq_ok_iff.1 h).1.resolved

/-! ### The order in which definitions are finished -/

/-- The definitions that are finished before another one. -/
def finishedBefore (defs : Definitions) (name : String) : List String :=
  (finalMemo defs).done.names.takeWhile (· != name)

/-- The definitions that are finished before one are those in the memo which its conversion left. -/
theorem Memo.Entered.mem_finishedBefore {name : String} {schema : Schema} {raw : SchemaObject}
    (h : (finalMemo defs).Entered defs name schema raw active m m') {other : String} :
    other ∈ finishedBefore defs name ↔ ∃ schema, m'.done.get? other = some schema := by
  have hapart : m'.done.get? name = none := h.converted.apart h.apart name List.mem_cons_self
  have hnames : finishedBefore defs name = m'.done.names := by
    -- The final memo has these in front, then the definition, then what was finished later.
    obtain ⟨later, hlater⟩ := h.finished
    rw [finishedBefore, Table.names, ← hlater, Named.names, List.map_append, List.map_append,
      List.append_assoc, List.takeWhile_append_of_pos]
    · show m'.done.entries.map Prod.fst ++ ((name :: later.map Prod.fst).takeWhile _) = _
      rw [List.takeWhile_cons_of_neg (by simp), List.append_nil]
      rfl
    · intro n hn
      have hne : n ≠ name := fun heq => Named.get?_eq_none_iff.1 hapart (heq ▸ hn)
      simpa using hne
  rw [hnames, Table.mem_names_iff]

/-- What is finished earlier has less in front of it. -/
theorem length_finishedBefore_lt {d n : String} (h : n ∈ finishedBefore defs d) :
    (finishedBefore defs n).length < (finishedBefore defs d).length := by
  unfold finishedBefore at h ⊢
  generalize (finalMemo defs).done.names = names at h ⊢
  induction names with
  | nil => cases h
  | cons first rest ih =>
    -- The first name in the memo is `d`, and then nothing is before it, or it is `n`, or neither.
    by_cases hd : first = d
    · rw [List.takeWhile_cons_of_neg (by simpa using hd)] at h
      cases h
    · have hskip : (first :: rest).takeWhile (· != d) = first :: rest.takeWhile (· != d) :=
        List.takeWhile_cons_of_pos (by simpa using hd)
      rw [hskip] at h ⊢
      by_cases hn : first = n
      · rw [List.takeWhile_cons_of_neg (by simpa using hn)]
        exact Nat.succ_pos _
      · rw [List.takeWhile_cons_of_pos (by simpa using hn)]
        exact Nat.succ_lt_succ (ih ((List.mem_cons.1 h).resolve_left fun heq => hn heq.symm))

end ControllerTypes.Resolution
