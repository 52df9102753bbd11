import ControllerTypes.Proofs.Resolution.Composition

/-!
# `ControllerTypes.Proofs.Resolution.Acyclic`: nothing is lost where there are no cycles

A composition can only miss the fields of a member if that is being worked out at the time, or was
finished as a reference to something that is no object. Both take a cycle of references. A
definition that is being worked out leads to all that is converted inside of it, and a definition
that is finished as a reference leads to its target, which is an object or an enumeration by then,
or leads back to itself (`Memo.Rooted`, `Resolves.rooted`).

So `member_fields_kept` needs no word about orders: a composition has all fields of a member if that
leads to no cycle.
-/

set_option autoImplicit false

namespace ControllerTypes.Resolution

open Document Named Relation

variable {defs : Definitions} {active : List String} {q : Query} {m m' : Memo}

/-! ### All that is asked for is started -/

/-- What a query asks for was `Started` afterwards. -/
theorem Resolves.started_of_asks (h : Resolves defs active q m m') (ha : m.Apart active)
    {n : String} (hn : q.Asks n) : m'.Started active n := by
  induction h with
  | done hdone =>
    rw [show n = _ from hn]
    exact .inr ⟨_, hdone⟩
  | active _ hactive =>
    rw [show n = _ from hn]
    exact .inl hactive
  | enter hnone hactive hraw hconvert _ =>
    rw [show n = _ from hn]
    exact (Resolves.enter hnone hactive hraw hconvert).started
  | reference hform hname htarget _ =>
    have hmentions := Mentions.of_form hn
    simp only [hform, hname, Option.some.injEq] at hmentions
    exact hmentions ▸ htarget.started
  | decorated hform _ ih =>
    have hmentions := Mentions.of_form hn
    simp only [hform] at hmentions
    exact ih ha hmentions
  -- It stands in a member, which was converted first, or in an own property.
  | all hform hmembers hown ihmembers ihown | variants hform hmembers hown ihmembers ihown =>
    have hmentions := Mentions.of_form hn
    simp only [hform] at hmentions
    have ha₁ := hmembers.apart ha
    rcases hmentions with hmember | hproperty
    · exact (ihmembers ha hmember).mono (hown.extends ha₁)
    · exact ihown ha₁ hproperty
  | enumeration hform | freeMap hform | scalar hform =>
    have hmentions := Mentions.of_form hn
    simp only [hform] at hmentions
  | map hform _ ih | object hform _ ih | array hform _ ih =>
    have hmentions := Mentions.of_form hn
    simp only [hform] at hmentions
    exact ih ha hmentions
  | noMembers | noProperties =>
    obtain ⟨_, hmem, _⟩ := hn
    cases hmem
  | member hschema hrest ihschema ihrest | property hschema hrest ihschema ihrest =>
    have ha₁ := hschema.apart ha
    obtain ⟨x, hx, hmentions⟩ := hn
    rcases List.mem_cons.1 hx with rfl | hx
    · exact (ihschema ha hmentions).mono (hrest.extends ha₁)
    · exact ihrest ha₁ ⟨x, hx, hmentions⟩

/-! ### Where references lead -/

/-- The definition is finished as an object or an enumeration. -/
def Memo.Names (m : Memo) (name : String) : Prop :=
  ∃ schema, m.done.get? name = some schema ∧ schema.isNamed = true

/-- What was finished as an object or an enumeration stays one when the memo grows. -/
theorem Memo.Names.mono {name : String} (h : m.Names name) (he : m.Extends m') : m'.Names name := by
  obtain ⟨schema, hdone, hnamed⟩ := h
  exact ⟨schema, he.get? hdone, hnamed⟩

/-- A reference to the target says that it is finished as an object or an enumeration, or that it
lies on a cycle. -/
def Memo.Sure (defs : Definitions) (m : Memo) (target : String) : Prop :=
  m.Names target ∨ TransGen (Refers defs) target target

/-- A definition that is finished as a reference leads to the target, of which it is sure. -/
def Memo.Rooted (defs : Definitions) (m : Memo) : Prop :=
  ∀ n target, m.done.get? n = some (.reference target) →
    TransGen (Refers defs) n target ∧ m.Sure defs target

/-- Nothing is finished at first, so nothing is finished as a reference. -/
theorem Memo.Rooted.start : ({} : Memo).Rooted defs := by
  intro n target hdone
  cases hdone

/-- One more definition keeps the memo `Rooted`, if it leads to whatever it is a reference to, as
`hself` says. -/
theorem Memo.Rooted.finish {name : String} {schema : Schema} (h : m.Rooted defs)
    (hnone : m.done.get? name = none)
    (hself : ∀ target, schema = .reference target →
      TransGen (Refers defs) name target ∧ (m.finish name schema).Sure defs target) :
    (m.finish name schema).Rooted defs := by
  intro n target hdone
  rcases Memo.get?_finish_cases hdone with ⟨rfl, heq⟩ | hdone
  · exact hself target heq.symm
  · obtain ⟨hpath, hsure⟩ := h n target hdone
    exact ⟨hpath, hsure.imp_left fun hnames => hnames.mono (Memo.extends_finish hnone schema)⟩

/-- Something the query asks for leads to the target of a reference, which is sure. -/
def Query.Roots (defs : Definitions) (q : Query) (m : Memo) (target : String) : Prop :=
  (∃ n, q.Asks n ∧ ReflTransGen (Refers defs) n target) ∧ m.Sure defs target

/-- What a part of the query leads to, the query leads to, by `hsub`. -/
theorem Query.Roots.mono {q q' : Query} {target : String} (h : q'.Roots defs m target)
    (hsub : ∀ n, q'.Asks n → q.Asks n) (he : m.Extends m') : q.Roots defs m' target := by
  obtain ⟨⟨n, hn, hpath⟩, hsure⟩ := h
  exact ⟨⟨n, hsub n hn, hpath⟩, hsure.imp_left fun hnames => hnames.mono he⟩

/-- Every query keeps the memo `Rooted`, and answers only references to which something it asked for
leads. -/
theorem Resolves.rooted (h : Resolves defs active q m m') (hp : Ahead defs active q)
    (ha : m.Apart active) (hr : m.Rooted defs) :
    m'.Rooted defs ∧ ∀ target, .reference target ∈ q.answers → q.Roots defs m' target := by
  induction h with
  | @done _ name _ _ hdone =>
    refine ⟨hr, ?_⟩
    intro target hmem
    rw [← List.mem_singleton.1 hmem] at hdone
    obtain ⟨hpath, hsure⟩ := hr name target hdone
    exact ⟨⟨name, rfl, hpath.to_reflTransGen⟩, hsure⟩
  | @active _ name _ _ hactive =>
    refine ⟨hr, ?_⟩
    intro target hmem
    cases List.mem_singleton.1 hmem
    -- Here is the cycle: the definition is being worked out, and leads to what is asked for, which
    -- is itself.
    exact ⟨⟨name, rfl, .refl⟩, .inr (hp name hactive name rfl)⟩
  | @enter active name raw schema m m' hnone hactive hraw hconvert ih =>
    have ha' := ha.cons hnone
    obtain ⟨hrooted, hanswer⟩ := ih (hp.enter hraw _) ha' hr
    have hnone' := hconvert.apart ha' name List.mem_cons_self
    -- What the conversion asked for is one step away from the definition.
    have hself (target : String) (heq : schema = .reference target) :
        TransGen (Refers defs) name target ∧ (m'.finish name schema).Sure defs target := by
      obtain ⟨⟨n, hn, hpath⟩, hsure⟩ := hanswer target (List.mem_singleton.2 heq.symm)
      exact ⟨.head' ⟨raw, hraw, hn⟩ hpath,
        hsure.imp_left fun hnames => hnames.mono (Memo.extends_finish hnone' schema)⟩
    refine ⟨hrooted.finish hnone' hself, ?_⟩
    intro target hmem
    obtain ⟨hpath, hsure⟩ := hself target (List.mem_singleton.1 hmem).symm
    exact ⟨⟨name, rfl, hpath.to_reflTransGen⟩, hsure⟩
  | @reference _ raw ref name target _ _ hform hname htarget ih =>
    have hmentions : Mentions raw name := .reference hform hname
    have hsub : ∀ n, (Query.name name target).Asks n → Mentions raw n := by
      rintro _ rfl
      exact hmentions
    obtain ⟨hrooted, hanswer⟩ := ih (hp.mono hsub) ha hr
    refine ⟨hrooted, ?_⟩
    intro target' hmem
    rcases referenceTo_cases (List.mem_singleton.1 hmem).symm with ⟨rfl, hnamed⟩ | heq
    · refine ⟨⟨target', hmentions, .refl⟩, .inl ?_⟩
      -- The target is finished as an object or an enumeration, since a reference to what is being
      -- worked out is neither.
      rcases htarget.name_cases with hdone | ⟨_, rfl⟩
      · exact ⟨target, hdone, hnamed⟩
      · cases hnamed
    · exact (hanswer target' (List.mem_singleton.2 heq.symm)).mono hsub (.refl _)
  | decorated hform _ ih =>
    obtain ⟨hrooted, hanswer⟩ := ih (hp.mono fun _ => .decorated hform) ha hr
    exact ⟨hrooted, fun target hmem =>
      (hanswer target hmem).mono (fun _ => .decorated hform) (.refl _)⟩
  | all hform hmembers hown ihmembers ihown =>
    have ha₁ := hmembers.apart ha
    obtain ⟨hrooted, hanswer⟩ := ihmembers (hp.mono fun _ => .of_members (.inl hform)) ha hr
    refine ⟨(ihown (hp.mono fun _ => .of_own (.inl hform)) ha₁ hrooted).1, ?_⟩
    intro target hmem
    exact (hanswer target (mem_of_combineAll (List.mem_singleton.1 hmem).symm)).mono
      (fun _ => .of_members (.inl hform)) (hown.extends ha₁)
  | variants hform hmembers hown ihmembers ihown =>
    have ha₁ := hmembers.apart ha
    obtain ⟨hrooted, hanswer⟩ := ihmembers (hp.mono fun _ => .of_members (.inr hform)) ha hr
    refine ⟨(ihown (hp.mono fun _ => .of_own (.inr hform)) ha₁ hrooted).1, ?_⟩
    intro target hmem
    exact (hanswer target (mem_of_combineVariants (List.mem_singleton.1 hmem).symm)).mono
      (fun _ => .of_members (.inr hform)) (hown.extends ha₁)
  | enumeration | freeMap => exact ⟨hr, by simp [Query.answers]⟩
  | map hform _ ih =>
    exact ⟨(ih (hp.mono fun _ => .values hform) ha hr).1, by simp [Query.answers]⟩
  | object hform _ ih =>
    exact ⟨(ih (hp.mono fun _ => .of_properties hform) ha hr).1, by simp [Query.answers]⟩
  | array hform _ ih =>
    exact ⟨(ih (hp.mono fun _ => .items hform) ha hr).1, by simp [Query.answers]⟩
  | @scalar _ raw =>
    refine ⟨hr, ?_⟩
    intro target hmem
    exact absurd (List.mem_singleton.1 hmem).symm (convertScalar_ne_reference raw target)
  | noMembers | noProperties => exact ⟨hr, by simp [Query.answers]⟩
  | member hschema hrest ihschema ihrest =>
    have ha₁ := hschema.apart ha
    obtain ⟨hrooted, hanswer⟩ := ihschema (hp.mono fun _ => Query.asks_member) ha hr
    obtain ⟨hrooted', hothers⟩ := ihrest (hp.mono fun _ => Query.asks_members) ha₁ hrooted
    refine ⟨hrooted', ?_⟩
    intro target hmem
    rcases List.mem_cons.1 hmem with heq | hmem
    · exact (hanswer target (List.mem_singleton.2 heq)).mono (fun _ => Query.asks_member)
        (hrest.extends ha₁)
    · exact (hothers target hmem).mono (fun _ => Query.asks_members) (.refl _)
  | property hschema _ ihschema ihrest =>
    obtain ⟨hrooted, _⟩ := ihschema (hp.mono fun _ => Query.asks_property) ha hr
    exact ⟨(ihrest (hp.mono fun _ => Query.asks_properties) (hschema.apart ha) hrooted).1,
      by simp [Query.answers]⟩

/-- All queries together leave the memo `Rooted`. -/
theorem ResolvesAll.rooted {answers : List (String × Schema)} (h : ResolvesAll defs answers m m')
    (hr : m.Rooted defs) : m'.Rooted defs := by
  induction h with
  | nil => exact hr
  | cons hfirst _ ih => exact ih (hfirst.rooted (.outside _) (.nil _) hr).1

/-! ### A composition without cycles -/

variable {catalog : Catalog} {raw : SchemaObject} {members : List SchemaObject}
  {own : List (String × SchemaObject)} {d n : String} {fields : List (Field Schema)}

/-- A composition `Mentions` what its members mention. -/
theorem Composes.mentions (h : Composes raw members own) {member : SchemaObject}
    (hmember : member ∈ members) (hn : Mentions member n) : Mentions raw n := by
  induction h with
  | all hform => exact .member (.inl hform) hmember hn
  | variants hform => exact .member (.inr hform) hmember hn
  | decorated hform _ ih => exact .decorated hform (ih hmember)

/-- A definition that leads to no cycle, by `hacyclic`, shows its fields to all that refer to it. -/
theorem shown_of_acyclic (h : resolveAll defs = .ok catalog) (hraw : defs.get? d = some raw)
    (hmentions : Mentions raw n) (htarget : catalog.target? n = some (.object fields))
    (hacyclic : ∀ x, ReflTransGen (Refers defs) n x → ¬ TransGen (Refers defs) x x) :
    shown catalog (finishedBefore defs d) n = some fields := by
  have hr := resolved_of_resolveAll h
  obtain ⟨schema, hget⟩ := Table.mem_names_iff.1 (hr.names_eq ▸ Table.mem_names_of_get? hraw)
  obtain ⟨raw', active, m, m', hentered⟩ := hr.converted d schema hget
  cases hraw.symm.trans hentered.raw_eq
  have hview := hentered.view hr
  have hstep : Refers defs d n := ⟨raw, hraw, hmentions⟩
  -- All that is being worked out leads to the member, so what that leads to is not among it.
  have hbefore {x : String} (hx : ReflTransGen (Refers defs) n x)
      (hstarted : m'.Started (d :: active) x) : x ∈ finishedBefore defs d := by
    refine (hview.finished x).2 (hstarted.resolve_left fun hactive => ?_)
    have hback : ReflTransGen (Refers defs) x d := by
      rcases List.mem_cons.1 hactive with rfl | hactive
      · exact .refl
      · exact (hentered.path x hactive).to_reflTransGen
    exact hacyclic x hx ((TransGen.tail' hback hstep).trans_left hx)
  have hn := hbefore .refl (hentered.converted.started_of_asks hentered.apart hmentions)
  rw [shown, if_pos hn]
  obtain ⟨w, hdone⟩ := (hview.finished n).1 hn
  have hw := hview.agrees n w hdone
  rw [hw]
  cases w with
  | object =>
    cases (Catalog.target?_of_isNamed hw rfl).symm.trans htarget
    rfl
  | reference next =>
    -- The definition was finished as a reference, and what it refers to is no reference any more.
    obtain ⟨answers, hall, _⟩ := resolvesAll_of_resolveAll h
    obtain ⟨hpath, hsure⟩ := hall.rooted .start n next
      ((hr.get?_eq n).symm.trans hw)
    have hpath := hpath.to_reflTransGen
    obtain ⟨schema', hnext, hnamed⟩ := hsure.resolve_right (hacyclic next hpath)
    have hnext := (hr.get?_eq next).trans hnext
    have hknown := (hentered.converted.known hentered.apart hentered.known).1
    cases (Catalog.target?_of_reference hw hnext hnamed).symm.trans htarget
    simp only [if_pos (hbefore hpath (hknown n next hdone)), hnext]
    rfl
  | enumeration | array | map | primitive | unsupported =>
    rw [Catalog.target?, hw] at htarget
    cases htarget

/-- A composition has all fields of a member that leads to no cycle, whatever the order of the
definitions. -/
theorem member_fields_kept (h : resolveAll defs = .ok catalog) {ref : String}
    {member : SchemaObject} (hraw : defs.get? d = some raw)
    (hcomposes : Composes raw members own) (hmember : member ∈ members)
    (hform : member.form = .reference ref) (hname : definitionName? ref = some n)
    (htarget : catalog.target? n = some (.object fields))
    (hacyclic : ∀ x, ReflTransGen (Refers defs) n x → ¬ TransGen (Refers defs) x x) :
    ∃ all, catalog.get? d = some (.object all) ∧ ∀ f ∈ fields, f.name ∈ all.map Field.name := by
  have hmentions : Mentions raw n := hcomposes.mentions hmember (.reference hform hname)
  -- Without a cycle the definition of the member is finished first, and shows all that it has.
  have hshown := shown_of_acyclic h hraw hmentions htarget hacyclic
  exact fields_kept_of_shown h hraw hcomposes hmember hform hname hshown

end ControllerTypes.Resolution
