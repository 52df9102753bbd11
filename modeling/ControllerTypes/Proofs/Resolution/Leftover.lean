import ControllerTypes.Proofs.Resolution.Acyclic
import ControllerTypes.Proofs.Resolution.Complete
import ControllerTypes.Proofs.Resolution.Marked

/-!
# `ControllerTypes.Proofs.Resolution.Leftover`: what a failed call leaves behind

A call that fails takes back the definition it was made for, but not those that were finished while
that was being worked out. One of these may refer back to it, and so it stands on what failed. A
later call finds it finished and succeeds, although a resolver that has never been called would fail
(`door_leaves_trace`).

A definition is `Founded` if it and all that it leads to are complete. A resolver that remembers
nothing succeeds on the founded definitions and on no others (`answers_start_iff`). So failures
leave no trace as long as everything that is finished is founded, and not longer
(`leaves_no_trace_iff`). It takes a failure to leave one: what calls finish that succeed is founded.

The invariant behind this is `Memo.Justified`: a finished definition is founded, or it was finished
by the call that is under way. In the latter case it is complete, and what it mentions is started,
which comes to the same once the call has succeeded.
-/

set_option autoImplicit false

namespace ControllerTypes.Resolution

open Document Named Relation Run

variable {defs : Definitions} {active : List String} {q : Query} {m m' : Memo} {d n : String}
  {raw : SchemaObject}

/-- A call with the name succeeds on a resolver that remembers this. -/
def Answers (defs : Definitions) (m : Memo) (name : String) : Prop :=
  ∃ schema m', (resolve defs [] name).run.run m = (.ok schema, m')

/-! ### Definitions without a broken reference ahead -/

/-- The definition and all that it leads to are complete. -/
structure Founded (defs : Definitions) (n : String) : Prop where
  defined : n ∈ defs.names
  complete (k : String) (raw : SchemaObject) (hpath : ReflTransGen (Refers defs) n k)
    (hraw : defs.get? k = some raw) : Complete defs raw

/-- What a schema `Mentions` is its own reference or stands in one of its `parts`. -/
theorem Mentions.reference_or_part (h : Mentions raw n) :
    (∃ ref, raw.form = .reference ref ∧ definitionName? ref = some n) ∨
      ∃ part ∈ raw.parts, Mentions part n := by
  have hrule := h.of_form
  unfold SchemaObject.parts
  cases hform : raw.form with
  | reference ref =>
    simp only [hform] at hrule
    exact .inl ⟨ref, rfl, hrule⟩
  | decorated inner | map inner | array inner =>
    simp only [hform] at hrule
    exact .inr ⟨inner, List.mem_singleton_self inner, hrule⟩
  | all members | variants members =>
    simp only [hform] at hrule
    rcases hrule with ⟨member, hmember, hn⟩ | ⟨x, hx, hn⟩
    · exact .inr ⟨member, List.mem_append_left _ hmember, hn⟩
    · exact .inr ⟨x.2, List.mem_append_right _ (List.mem_map_of_mem hx), hn⟩
  | object properties =>
    simp only [hform] at hrule
    obtain ⟨x, hx, hn⟩ := hrule
    exact .inr ⟨x.2, List.mem_map_of_mem hx, hn⟩
  | enumeration | freeMap | scalar =>
    simp only [hform] at hrule

/-- A schema that is `Complete` mentions nothing but definitions. -/
theorem Complete.mem_names (h : Complete defs raw) (hn : Mentions raw n) : n ∈ defs.names := by
  induction h with
  | intro hnamed _ ih =>
    rcases hn.reference_or_part with ⟨ref, hform, hname⟩ | ⟨part, hpart, hn⟩
    · obtain ⟨n', hname', hmem⟩ := hnamed ref hform
      cases hname.symm.trans hname'
      exact hmem
    · exact ih part hpart hn

/-- A schema with complete `parts` is complete, unless it is a reference. -/
theorem Complete.of_parts (hform : ∀ ref, raw.form ≠ .reference ref)
    (hparts : ∀ part ∈ raw.parts, Complete defs part) : Complete defs raw :=
  ⟨fun ref href => absurd href (hform ref), hparts⟩

/-- What a `Founded` definition refers to is founded. -/
theorem Founded.step (h : Founded defs d) (hn : Refers defs d n) : Founded defs n where
  defined := by
    obtain ⟨raw, hraw, hmentions⟩ := hn
    exact (h.complete d raw .refl hraw).mem_names hmentions
  complete k raw hpath hraw := h.complete k raw (.head hn hpath) hraw

/-- Calls with the name of a `Founded` definition succeed, whatever is remembered. -/
theorem Founded.total (h : Founded defs n) (active : List String) :
    Total (resolve defs active n) := by
  -- Conversion stays with what the definition leads to.
  let region : Region defs :=
    { names := ReflTransGen (Refers defs) n
      schemas := fun raw =>
        Complete defs raw ∧ ∀ k, Mentions raw k → ReflTransGen (Refers defs) n k
      definition := fun hpath hraw =>
        ⟨h.complete _ _ hpath hraw, fun k hk => hpath.tail ⟨_, hraw, hk⟩⟩
      part := fun ⟨⟨_, hparts⟩, hahead⟩ hpart =>
        ⟨hparts _ hpart, fun k hk => hahead k (hk.of_mem_parts hpart)⟩
      target := fun ⟨_, hahead⟩ hform hname _ => hahead _ (.reference hform hname) }
  refine (region.holds Total.composable fun raw ref x ⟨hcomplete, _⟩ hform hbroken => ?_).1 active n
    (fun _ => .refl) fun hmissing => absurd h.defined hmissing
  obtain ⟨hnamed, _⟩ := hcomplete
  exact absurd hbroken (Names.not_broken (hnamed ref hform))

/-- So they do in particular on a resolver that remembers `m`. -/
theorem Founded.answers (h : Founded defs n) (m : Memo) : Answers defs m n :=
  h.total [] m

/-! ### What a call that succeeds finishes -/

/-- The definition is founded, or complete with nothing ahead of it that was not started. -/
def Memo.Justifies (defs : Definitions) (active : List String) (m : Memo) (d : String) : Prop :=
  Founded defs d ∨
    ∃ raw, defs.get? d = some raw ∧ Complete defs raw ∧ ∀ k, Mentions raw k → m.Started active k

/-- What is being worked out is defined, and what is finished is justified. -/
structure Memo.Justified (defs : Definitions) (active : List String) (m : Memo) : Prop where
  defined (a : String) (ha : a ∈ active) : a ∈ defs.names
  finished (d : String) (schema : Schema) (hdone : m.done.get? d = some schema) :
    m.Justifies defs active d

namespace Memo.Justified

/-- Whatever was `Started` is defined. -/
theorem mem_names (h : m.Justified defs active) (hstarted : m.Started active n) :
    n ∈ defs.names := by
  rcases hstarted with hactive | ⟨schema, hdone⟩
  · exact h.defined n hactive
  · rcases h.finished n schema hdone with hfounded | ⟨raw, hraw, _⟩
    · exact hfounded.defined
    · exact Table.mem_names_of_get? hraw

/-- A definition that is entered is started, so nothing that was justified by what was started is
lost. -/
theorem enter {name : String} (h : m.Justified defs active) (hraw : defs.get? name = some raw) :
    m.count.Justified defs (name :: active) where
  defined := List.forall_mem_cons.2 ⟨Table.mem_names_of_get? hraw, h.defined⟩
  finished d schema hdone := by
    refine (h.finished d schema hdone).imp_right fun ⟨raw, hraw, hcomplete, hstarted⟩ =>
      ⟨raw, hraw, hcomplete, fun k hk => ?_⟩
    exact (hstarted k hk).imp_left (List.mem_cons_of_mem _)

/-- A definition is justified when it is finished, if by `hself` it is complete and all that it
mentions was started. -/
theorem finish {name : String} {schema : Schema} (h : m.Justified defs (name :: active))
    (hnone : m.done.get? name = none) (hself : m.Justifies defs (name :: active) name) :
    (m.finish name schema).Justified defs active where
  defined a ha := h.defined a (List.mem_cons_of_mem _ ha)
  finished d schema' hdone := by
    -- The definition itself, or one that was finished before it.
    have hjustifies : m.Justifies defs (name :: active) d := by
      rcases Memo.get?_finish_cases hdone with ⟨rfl, _⟩ | hdone
      · exact hself
      · exact h.finished d schema' hdone
    exact hjustifies.imp_right fun ⟨raw, hraw, hcomplete, hstarted⟩ =>
      ⟨raw, hraw, hcomplete, fun k hk => (hstarted k hk).finish hnone schema⟩

end Memo.Justified

/-- The schemas that the query asks for are complete. -/
def Query.AsksComplete (defs : Definitions) : Query → Prop
  | .name _ _ => True
  | .schema raw _ => Resolution.Complete defs raw
  | .members raws _ => ∀ raw ∈ raws, Resolution.Complete defs raw
  | .properties _ asked _ => ∀ part ∈ asked.map Prod.snd, Resolution.Complete defs part

/-- A query that succeeds asks for what is complete, and keeps the memo `Justified`. -/
theorem Resolves.justified (h : Resolves defs active q m m') (ha : m.Apart active)
    (hj : m.Justified defs active) : m'.Justified defs active ∧ q.AsksComplete defs := by
  induction h with
  | done | active => exact ⟨hj, trivial⟩
  | @enter active name raw schema m m' hnone _ hraw hconvert ih =>
    have ha' := ha.cons hnone
    obtain ⟨hj', hcomplete⟩ := ih ha' (hj.enter hraw)
    -- The conversion has shown the schema to be complete, and has started what it mentions.
    have hself : m'.Justifies defs (name :: active) name :=
      .inr ⟨raw, hraw, hcomplete, fun k hk => hconvert.started_of_asks ha' hk⟩
    exact ⟨hj'.finish (hconvert.apart ha' name List.mem_cons_self) hself, trivial⟩
  | @reference _ raw ref name _ _ _ hform hname htarget ih =>
    obtain ⟨hj', _⟩ := ih ha hj
    refine ⟨hj', ?_, by simp [SchemaObject.parts, hform]⟩
    -- The reference names what was asked for, and that was started, so it is defined.
    intro ref' hform'
    cases hform.symm.trans hform'
    exact ⟨name, hname, hj'.mem_names htarget.started⟩
  | decorated hform _ ih | map hform _ ih | array hform _ ih =>
    obtain ⟨hj', hcomplete⟩ := ih ha hj
    refine ⟨hj', .of_parts (by simp [hform]) ?_⟩
    simp only [SchemaObject.parts, hform, List.forall_mem_singleton]
    exact hcomplete
  | all hform hmembers _ ihmembers ihown | variants hform hmembers _ ihmembers ihown =>
    obtain ⟨hj₁, hcomplete⟩ := ihmembers ha hj
    obtain ⟨hj', hproperties⟩ := ihown (hmembers.apart ha) hj₁
    refine ⟨hj', .of_parts (by simp [hform]) ?_⟩
    simp only [SchemaObject.parts, hform, List.forall_mem_append]
    exact ⟨hcomplete, hproperties⟩
  | object hform _ ih =>
    obtain ⟨hj', hproperties⟩ := ih ha hj
    refine ⟨hj', .of_parts (by simp [hform]) ?_⟩
    simp only [SchemaObject.parts, hform]
    exact hproperties
  | enumeration hform | freeMap hform | scalar hform =>
    exact ⟨hj, .of_parts (by simp [hform]) (by simp [SchemaObject.parts, hform])⟩
  | noMembers | noProperties => exact ⟨hj, List.forall_mem_nil _⟩
  | member hschema _ ihschema ihrest | property hschema _ ihschema ihrest =>
    obtain ⟨hj₁, hcomplete⟩ := ihschema ha hj
    obtain ⟨hj', hothers⟩ := ihrest (hschema.apart ha) hj₁
    exact ⟨hj', List.forall_mem_cons.2 ⟨hcomplete, hothers⟩⟩

/-- Once a call has succeeded, everything ahead of what is finished is `Founded` or finished too. -/
theorem Memo.Justified.ahead (h : m.Justified defs []) {schema : Schema} {k : String}
    (hdone : m.done.get? d = some schema) (hpath : ReflTransGen (Refers defs) d k) :
    Founded defs k ∨ ∃ schema, m.done.get? k = some schema := by
  -- Step by step along the references, since with nothing being worked out what was started is
  -- finished.
  induction hpath with
  | refl => exact .inr ⟨schema, hdone⟩
  | @tail k next _ hstep ih =>
    rcases ih with hfounded | ⟨s, hdone⟩
    · exact .inl (hfounded.step hstep)
    · rcases h.finished k s hdone with hfounded | ⟨raw, hraw, _, hstarted⟩
      · exact .inl (hfounded.step hstep)
      · obtain ⟨raw', hraw', hmentions⟩ := hstep
        cases hraw.symm.trans hraw'
        exact .inr ((hstarted next hmentions).resolve_left List.not_mem_nil)

/-- So what is finished then is `Founded`. -/
theorem Memo.Justified.founded (h : m.Justified defs []) (hd : d ∈ m.done.names) :
    Founded defs d := by
  obtain ⟨schema, hdone⟩ := Table.mem_names_iff.1 hd
  refine ⟨h.mem_names (.inr ⟨schema, hdone⟩), fun k raw hpath hraw => ?_⟩
  rcases h.ahead hdone hpath with hfounded | ⟨s, hdone⟩
  · exact hfounded.complete k raw .refl hraw
  · rcases h.finished k s hdone with hfounded | ⟨raw', hraw', hcomplete, _⟩
    · exact hfounded.complete k raw .refl hraw
    · cases hraw.symm.trans hraw'
      exact hcomplete

/-- If all that is remembered is `Founded`, so is all that is remembered after a call that succeeds.
-/
theorem founded_of_run (hm : ∀ d ∈ m.done.names, Founded defs d) {schema : Schema}
    (hrun : (resolve defs [] n).run.run m = (.ok schema, m')) :
    ∀ d ∈ m'.done.names, Founded defs d := by
  have hj : m.Justified defs [] :=
    ⟨fun a ha => absurd ha List.not_mem_nil,
      fun d s hdone => .inl (hm d (Table.mem_names_of_get? hdone))⟩
  have hresolves := (resolves_of_run defs).1 _ _ _ _ _ hrun
  exact fun d => (hresolves.justified (.nil m) hj).1.founded

/-- In particular what the call was made for is `Founded`. -/
theorem founded_of_answers (hm : ∀ d ∈ m.done.names, Founded defs d) (h : Answers defs m n) :
    Founded defs n := by
  obtain ⟨schema, m', hrun⟩ := h
  exact founded_of_run hm hrun n (Table.mem_names_of_get? (done_of_run hrun))

/-- A resolver that remembers nothing answers for the `Founded` definitions and no others. -/
theorem answers_start_iff : Answers defs {} n ↔ Founded defs n :=
  ⟨founded_of_answers fun _ hd => absurd hd List.not_mem_nil, fun h => h.answers {}⟩

/-! ### Calls after a failure -/

/-- As long as no call of a `session` fails, everything that is finished is `Founded`. -/
theorem founded_of_session {names : List String}
    (hok : ∀ outcome ∈ (session defs names m).1, ∃ schema, outcome = .ok schema)
    (hm : ∀ d ∈ m.done.names, Founded defs d) :
    ∀ d ∈ (session defs names m).2.done.names, Founded defs d := by
  induction names generalizing m with
  | nil => exact hm
  | cons name rest ih =>
    obtain ⟨⟨schema, hfirst⟩, hrest⟩ := List.forall_mem_cons.1 hok
    exact ih hrest (founded_of_run hm (Prod.ext hfirst rfl))

/-- After any calls, a resolver answers for no other names than one that was never called, if and
only if everything it has finished is founded. So it is as long as no call has failed. -/
theorem leaves_no_trace_iff (defs : Definitions) (names : List String) :
    ((∀ n, Answers defs (session defs names {}).2 n → Answers defs {} n) ↔
      ∀ d ∈ (session defs names {}).2.done.names, Founded defs d) ∧
    ((∀ outcome ∈ (session defs names {}).1, ∃ schema, outcome = .ok schema) →
      ∀ d ∈ (session defs names {}).2.done.names, Founded defs d) := by
  refine ⟨⟨?_, ?_⟩, fun hok => founded_of_session hok fun d hd => absurd hd List.not_mem_nil⟩
  · intro h d hd
    -- What is finished is answered without a look at what it leads to.
    obtain ⟨schema, hdone⟩ := Table.mem_names_iff.1 hd
    exact answers_start_iff.1 (h d ⟨schema, _, run_resolve_of_done hdone⟩)
  · intro h n hanswers
    exact answers_start_iff.2 (founded_of_answers h hanswers)

/-! ### A description in which a failure leaves a trace

A door has a lock and a frame, and there is no frame. The lock belongs to a door. -/

namespace Door

def door : SchemaObject where
  properties :=
    [("lock", { ref := "#/definitions/Lock" }), ("frame", { ref := "#/definitions/Frame" })]

def lock : SchemaObject where
  properties := [("door", { ref := "#/definitions/Door" })]

def definitions : Definitions := .ofList [("Door", door), ("Lock", lock)]

end Door

/-- The call for the door fails and leaves the lock behind, which no resolver would finish that had
not been called for the door. -/
theorem door_leaves_trace :
    ¬ ∀ (defs : Definitions) (names : List String) (n : String),
      Answers defs (session defs names {}).2 n → Answers defs {} n := by
  intro h
  -- The lock was finished while the door was being worked out.
  have hdone : (session Door.definitions ["Door"] {}).2.done.get? "Lock"
      = some (.object [⟨"door", .reference "Door", false⟩]) := by cbv
  obtain ⟨schema, m', hfresh⟩ :=
    h Door.definitions ["Door"] "Lock" ⟨_, _, run_resolve_of_done hdone⟩
  -- Without it the call for the lock comes to the door, and from there to the frame.
  have hfails : ((resolve Door.definitions [] "Lock").run.run {}).1
      = .error (.unresolved "Frame") := by cbv
  rw [hfresh] at hfails
  cases hfails

end ControllerTypes.Resolution
