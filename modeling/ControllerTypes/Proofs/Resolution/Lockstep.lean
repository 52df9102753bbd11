import ControllerTypes.Proofs.Resolution.Steady

/-!
# `ControllerTypes.Proofs.Resolution.Lockstep`: definitions that are worked out in the same order

Take two descriptions with the same definitions, and a set of definitions that no reference leads
out of. Say that the others come in the same order in both. Then they are worked out in the same
way: a query for one of the set, made while others are worked out, leaves the others alone
(`Resolves.frame`), and if both descriptions have the same schemas for the set, it answers the same.
So the two memos agree outside of the set all along (`InStep`, `Resolves.inStep`), wherever the
definitions of the set stand.

`WorkedOut.agree_of_order` puts this together with what is known of the set itself: two descriptions
have the same catalog if the definitions that change their places lead to steady ones only.
-/

set_option autoImplicit false

namespace ControllerTypes.Resolution

open Document Named Relation

variable {defs defs' : Definitions} {catalog catalog' : Catalog} {U : String → Prop}
  {active : List String} {q q' : Query} {m m' m₁ m₁' v v' : Memo} {schema : Schema} {d n : String}

/-- No reference leads out of the set. -/
def Sealed (defs : Definitions) (U : String → Prop) : Prop := ∀ d n, U d → Refers defs d n → U n

/-- Queries that ask for definitions of the set `U` finish no others. By `hU` what these ask for is
in the set again. -/
theorem Resolves.frame (h : Resolves defs active q m m₁) (hU : Sealed defs U)
    (hasks : ∀ n, q.Asks n → U n) (hn : ¬ U n) : m₁.done.get? n = m.done.get? n := by
  induction h with
  | done | active | enumeration | freeMap | scalar | noMembers | noProperties => rfl
  -- The only definition that is finished here is in the set, so it is another one.
  | @enter _ name raw schema m m' _ _ hraw _ ih =>
    have hname := hasks name rfl
    have hne : n ≠ name := fun heq => hn (heq ▸ hname)
    rw [Memo.done_finish, Table.get?_insert, if_neg hne]
    exact ih fun k hk => hU name k hname ⟨raw, hraw, hk⟩
  | reference hform hname _ ih =>
    refine ih fun k hk => hasks k ?_
    rw [show k = _ from hk]
    exact .reference hform hname
  | decorated hform _ ih => exact ih fun k hk => hasks k (.decorated hform hk)
  | map hform _ ih => exact ih fun k hk => hasks k (.values hform hk)
  | array hform _ ih => exact ih fun k hk => hasks k (.items hform hk)
  | object hform _ ih => exact ih fun k hk => hasks k (.of_properties hform hk)
  | all hform _ _ ihmembers ihown =>
    rw [ihown fun k hk => hasks k (.of_own (.inl hform) hk),
      ihmembers fun k hk => hasks k (.of_members (.inl hform) hk)]
  | variants hform _ _ ihmembers ihown =>
    rw [ihown fun k hk => hasks k (.of_own (.inr hform) hk),
      ihmembers fun k hk => hasks k (.of_members (.inr hform) hk)]
  | member _ _ ihschema ihrest =>
    rw [ihrest fun k hk => hasks k (Query.asks_members hk),
      ihschema fun k hk => hasks k (Query.asks_member hk)]
  | property _ _ ihschema ihrest =>
    rw [ihrest fun k hk => hasks k (Query.asks_properties hk),
      ihschema fun k hk => hasks k (Query.asks_property hk)]

/-! ### Two memos in step -/

/-- Two memos between queries inside of the same definitions, which have the same definitions
finished outside of the set. -/
structure InStep (U : String → Prop) (active : List String) (m m' : Memo) : Prop where
  apart : m.Apart active
  apart' : m'.Apart active
  known : m.Known active
  known' : m'.Known active
  same : ∀ n, ¬ U n → m.done.get? n = m'.done.get? n

namespace InStep

/-- Two queries leave the memos in step if they finish the same outside of the set. -/
theorem after (hs : InStep U active m m') (h : Resolves defs active q m m₁)
    (h' : Resolves defs' active q' m' m₁')
    (hsame : ∀ n, ¬ U n → m₁.done.get? n = m₁'.done.get? n) : InStep U active m₁ m₁' :=
  -- Each of the two keeps its own invariants.
  ⟨h.apart hs.apart, h'.apart hs.apart', (h.known hs.apart hs.known).1,
    (h'.known hs.apart' hs.known').1, hsame⟩

/-- Entering a definition keeps the memos in step. -/
theorem enter (hs : InStep U active m m') (hnone : m.done.get? n = none)
    (hnone' : m'.done.get? n = none) : InStep U (n :: active) m.count m'.count where
  apart := hs.apart.cons hnone
  apart' := hs.apart'.cons hnone'
  known := fun d k hdone => (hs.known d k hdone).imp_left (List.mem_cons_of_mem _)
  known' := fun d k hdone => (hs.known' d k hdone).imp_left (List.mem_cons_of_mem _)
  same := hs.same

/-- Memos that are in step, and agree on the set in the end, show the same to a composition. -/
theorem memberFields_eq (hs : InStep U active m m') (hactive : ∀ n ∈ active, ¬ U n)
    (he : m.Extends v) (he' : m'.Extends v') (hset : ∀ n, U n → v.done.get? n = v'.done.get? n)
    (hstarted : ∀ n, schema = .reference n → m.Started active n ∧ m'.Started active n) :
    memberFields m schema = memberFields m' schema := by
  cases schema with
  | reference n =>
    rw [memberFields, memberFields]
    -- A definition of the set is finished on both sides, with the schema it has in the end. Any
    -- other is the same on both sides.
    by_cases hn : U n
    · obtain ⟨hstart, hstart'⟩ := hstarted n rfl
      obtain ⟨s, hs⟩ := hstart.resolve_left fun hmem => hactive n hmem hn
      obtain ⟨s', hs'⟩ := hstart'.resolve_left fun hmem => hactive n hmem hn
      have heq := hset n hn
      rw [he.get? hs, he'.get? hs'] at heq
      rw [hs, hs', Option.some.inj heq]
    · rw [hs.same n hn]
  | _ => rfl

end InStep

/-- The two queries ask the same. -/
inductive Query.Same : Query → Query → Prop where
  | name {n : String} {answer answer' : Schema} : Same (.name n answer) (.name n answer')
  | schema {raw : SchemaObject} {answer answer' : Schema} :
      Same (.schema raw answer) (.schema raw answer')
  | members {raws : List SchemaObject} {parts parts' : List Part} :
      Same (.members raws parts) (.members raws parts')
  | properties {required : List String} {asked : List (String × SchemaObject)}
      {fields fields' : List (Field Schema)} :
      Same (.properties required asked fields) (.properties required asked fields')

/-- Queries that ask the `Same` of memos that are `InStep` answer the same, and leave memos in step.
-/
theorem Resolves.inStep (hsame : ∀ n, defs.get? n = defs'.get? n) (hU : Sealed defs U)
    (hset : ∀ n, U n → v.done.get? n = v'.done.get? n) (h : Resolves defs active q m m₁)
    (h' : Resolves defs' active q' m' m₁') (hq : q.Same q') (hs : InStep U active m m')
    (hactive : ∀ n ∈ active, ¬ U n) (he : m₁.Extends v) (he' : m₁'.Extends v') :
    q = q' ∧ InStep U active m₁ m₁' := by
  -- A definition of the set answers with its schema, and nothing outside of the set is finished.
  have hname {active : List String} {n : String} {answer answer' : Schema} {m m' m₁ m₁' : Memo}
      (hn : U n) (h : Resolves defs active (.name n answer) m m₁)
      (h' : Resolves defs' active (.name n answer') m' m₁') (hs : InStep U active m m')
      (hactive : ∀ n ∈ active, ¬ U n) (he : m₁.Extends v) (he' : m₁'.Extends v') :
      Query.name n answer = .name n answer' ∧ InStep U active m₁ m₁' := by
    have hdone := h.name_cases.resolve_right fun hmem => hactive n hmem.1 hn
    have hdone' := h'.name_cases.resolve_right fun hmem => hactive n hmem.1 hn
    have heq := hset n hn
    rw [he.get? hdone, he'.get? hdone'] at heq
    have hU' : Sealed defs' U := fun d k hd hk => hU d k hd (refers_congr hsame ▸ hk)
    refine ⟨by rw [Option.some.inj heq], hs.after h h' fun k hk => ?_⟩
    rw [h.frame hU (fun _ hasks => hasks ▸ hn) hk, h'.frame hU' (fun _ hasks => hasks ▸ hn) hk]
    exact hs.same k hk
  -- On the first query. The second one has the same form, and wherever a name is asked for there is
  -- the choice between the set and the rest.
  induction h generalizing q' m' m₁' with
  | @done active n answer m hdone =>
    cases hq
    by_cases hn : U n
    · exact hname hn (.done hdone) h' hs hactive he he'
    · have hboth := hs.same n hn
      cases h' with
      | done hdone' =>
        rw [hdone, hdone'] at hboth
        exact ⟨by rw [Option.some.inj hboth], hs⟩
      | active hnone' | enter hnone' =>
        rw [hdone, hnone'] at hboth
        cases hboth
  | @active active n m hnone hmem =>
    cases hq
    have hboth := hs.same n (hactive n hmem)
    cases h' with
    | done hdone' =>
      rw [hnone, hdone'] at hboth
      cases hboth
    | active => exact ⟨rfl, hs⟩
    | enter _ hnot => exact absurd hmem hnot
  | @enter active n raw answer m m₁ hnone hnot hraw hconvert ih =>
    cases hq
    by_cases hn : U n
    · exact hname hn (.enter hnone hnot hraw hconvert) h' hs hactive he he'
    · have hboth := hs.same n hn
      cases h' with
      | done hdone' =>
        rw [hnone, hdone'] at hboth
        cases hboth
      | active _ hmem => exact absurd hmem hnot
      | @enter _ _ raw' _ _ m₁' hnone' hnot' hraw' hconvert' =>
        cases hraw.symm.trans ((hsame n).trans hraw')
        -- Both enter the same definition, which is outside of the set.
        have hs₀ := hs.enter hnone hnone'
        have hnone₁ := hconvert.apart hs₀.apart n List.mem_cons_self
        have hnone₁' := hconvert'.apart hs₀.apart' n List.mem_cons_self
        obtain ⟨heq, hs₁⟩ := ih hconvert' .schema hs₀ (List.forall_mem_cons.2 ⟨hn, hactive⟩)
          ((Memo.extends_finish hnone₁ answer).trans he)
          ((Memo.extends_finish hnone₁' _).trans he')
        cases heq
        refine ⟨rfl, hs.after (.enter hnone hnot hraw hconvert)
          (.enter hnone' hnot' hraw' hconvert') fun k hk => ?_⟩
        rw [Memo.done_finish, Memo.done_finish, Table.get?_insert, Table.get?_insert, hs₁.same k hk]
  | reference hform hname' htarget ih =>
    cases hq
    have hrule := h'.of_form
    simp only [hform] at hrule
    obtain ⟨n', target', hn', rfl, htarget'⟩ := hrule
    cases hname'.symm.trans hn'
    obtain ⟨heq, hs₁⟩ := ih htarget' .name hs hactive he he'
    cases heq
    exact ⟨rfl, hs₁⟩
  | decorated hform honly ih =>
    cases hq
    have hrule := h'.of_form
    simp only [hform] at hrule
    obtain ⟨heq, hs₁⟩ := ih hrule .schema hs hactive he he'
    cases heq
    exact ⟨rfl, hs₁⟩
  | all hform hmembers hown ihmembers ihown | variants hform hmembers hown ihmembers ihown =>
    cases hq
    have hrule := h'.of_form
    simp only [hform] at hrule
    obtain ⟨parts', own', m₂', rfl, hmembers', hown'⟩ := hrule
    obtain ⟨heq, hs₁⟩ := ihmembers hmembers' .members hs hactive
      ((hown.extends (hmembers.apart hs.apart)).trans he)
      ((hown'.extends (hmembers'.apart hs.apart')).trans he')
    cases heq
    obtain ⟨heq, hs₂⟩ := ihown hown' .properties hs₁ hactive he he'
    cases heq
    exact ⟨rfl, hs₂⟩
  | enumeration hform | freeMap hform | scalar hform =>
    cases hq
    have hrule := h'.of_form
    simp only [hform] at hrule
    obtain ⟨rfl, rfl⟩ := hrule
    exact ⟨rfl, hs⟩
  | map hform hschema ih | array hform hschema ih =>
    cases hq
    have hrule := h'.of_form
    simp only [hform] at hrule
    obtain ⟨inner, rfl, hinner⟩ := hrule
    obtain ⟨heq, hs₁⟩ := ih hinner .schema hs hactive he he'
    cases heq
    exact ⟨rfl, hs₁⟩
  | object hform hfields ih =>
    cases hq
    have hrule := h'.of_form
    simp only [hform] at hrule
    obtain ⟨fields', rfl, hfields'⟩ := hrule
    obtain ⟨heq, hs₁⟩ := ih hfields' .properties hs hactive he he'
    cases heq
    exact ⟨rfl, hs₁⟩
  | noMembers =>
    cases hq
    cases h'
    exact ⟨rfl, hs⟩
  | member hschema hrest ihschema ihrest =>
    cases hq
    cases h' with
    | member hschema' hrest' =>
      have he₁ := (hrest.extends (hschema.apart hs.apart)).trans he
      have he₁' := (hrest'.extends (hschema'.apart hs.apart')).trans he'
      obtain ⟨heq, hs₁⟩ := ihschema hschema' .schema hs hactive he₁ he₁'
      cases heq
      obtain ⟨heq, hs₂⟩ := ihrest hrest' .members hs₁ hactive he he'
      cases heq
      -- The members show the same, although the memos need not be equal.
      rw [hs₁.memberFields_eq hactive he₁ he₁' hset fun n hn =>
        ⟨(hschema.known hs.apart hs.known).2 n (List.mem_singleton.2 hn.symm),
          (hschema'.known hs.apart' hs.known').2 n (List.mem_singleton.2 hn.symm)⟩]
      exact ⟨rfl, hs₂⟩
  | noProperties =>
    cases hq
    cases h'
    exact ⟨rfl, hs⟩
  | property hschema hrest ihschema ihrest =>
    cases hq
    cases h' with
    | property hschema' hrest' =>
      obtain ⟨heq, hs₁⟩ := ihschema hschema' .schema hs hactive
        ((hrest.extends (hschema.apart hs.apart)).trans he)
        ((hrest'.extends (hschema'.apart hs.apart')).trans he')
      cases heq
      obtain ⟨heq, hs₂⟩ := ihrest hrest' .properties hs₁ hactive he he'
      cases heq
      exact ⟨rfl, hs₂⟩

/-! ### Two descriptions -/

namespace InStep

/-- To be in step goes both ways. -/
theorem symm (hs : InStep U active m m') : InStep U active m' m :=
  ⟨hs.apart', hs.apart, hs.known', hs.known, fun n hn => (hs.same n hn).symm⟩

/-- A query for a definition of the set may be made in one description alone. -/
theorem skip (hU : Sealed defs U) (hs : InStep U active m m')
    (h : Resolves defs active (.name n schema) m m₁) (hn : U n) : InStep U active m₁ m' where
  apart := h.apart hs.apart
  apart' := hs.apart'
  known := (h.known hs.apart hs.known).1
  known' := hs.known'
  same := fun k hk => (h.frame hU (fun _ hasks => hasks ▸ hn) hk).trans (hs.same k hk)

end InStep

open Classical in
/-- Queries for all definitions keep the memos in step if those outside of the set come in the same
order. -/
theorem ResolvesAll.inStep (hsame : ∀ n, defs.get? n = defs'.get? n) (hU : Sealed defs U)
    (hset : ∀ n, U n → v.done.get? n = v'.done.get? n) {answers answers' : List (String × Schema)}
    (h : ResolvesAll defs answers m m₁) (h' : ResolvesAll defs' answers' m' m₁')
    (horder : (names answers).filter (fun n => ¬ U n) = (names answers').filter fun n => ¬ U n)
    (hs : InStep U [] m m') (he : m₁.Extends v) (he' : m₁'.Extends v') : InStep U [] m₁ m₁' := by
  have hU' : Sealed defs' U := fun d k hd hk => hU d k hd (refers_congr hsame ▸ hk)
  -- All queries together only add to a memo, as each of them does.
  have hgrown {defs : Definitions} {answers : List (String × Schema)} {m m₁ : Memo}
      (h : ResolvesAll defs answers m m₁) : m.Extends m₁ := by
    induction h with
    | nil => exact .refl _
    | cons hfirst _ ih => exact (hfirst.extends (.nil _)).trans ih
  induction h generalizing answers' m' m₁' with
  | nil =>
    -- What is left in the other description is all in the set.
    induction h' with
    | nil => exact hs
    | @cons name schema rest _ _ _ hfirst' _ ih' =>
      have hn : U name := by
        by_contra hn
        simp [names, hn] at horder
      exact ih' (by simpa [names, hn] using horder) (hs.symm.skip hU' hfirst' hn).symm he'
  | @cons name schema rest m m₂ m₁ hfirst hrest ih =>
    by_cases hn : U name
    · exact ih h' (by simpa [names, hn] using horder) (hs.skip hU hfirst hn) he he'
    · induction h' with
      | nil => simp [names, hn] at horder
      | @cons name' schema' rest' _ _ _ hfirst' hrest' ih' =>
        -- The second description may have some of the set in front, and otherwise goes on with the
        -- same name.
        by_cases hn' : U name'
        · exact ih' (by simpa [names, hn'] using horder) (hs.symm.skip hU' hfirst' hn').symm he'
        · have heq : name = name' ∧ (names rest).filter (fun n => ¬ U n) =
              (names rest').filter fun n => ¬ U n := by
            simpa [names, hn, hn'] using horder
          obtain ⟨rfl, horder'⟩ := heq
          have hs₂ := (hfirst.inStep hsame hU hset hfirst' .name hs (by simp)
            ((hgrown hrest).trans he) ((hgrown hrest').trans he')).2
          exact ih hrest' horder' hs₂ he he'

open Classical in
/-- Two descriptions with the same definitions have the same catalog, if the definitions that lead
to steady ones only can be set apart so that the others come in the same order. -/
theorem WorkedOut.agree_of_order (h : WorkedOut defs catalog) (h' : WorkedOut defs' catalog')
    (hsame : ∀ n, defs.get? n = defs'.get? n) (hU : Sealed defs U)
    (hsteady : ∀ d, U d → Steady defs d)
    (horder : defs.names.filter (fun n => ¬ U n) = defs'.names.filter fun n => ¬ U n) :
    ∀ d, catalog.get? d = catalog'.get? d := by
  have hr := h.resolved
  have hr' := h'.resolved
  -- For the set itself it is enough that its definitions lead to steady ones only.
  have hset (d : String) (hd : U d) : catalog.get? d = catalog'.get? d := by
    refine h.agree h' hsame fun k hk => hsteady k ?_
    induction hk with
    | refl => exact hd
    | tail _ hstep ih => exact hU _ _ ih hstep
  obtain ⟨answers, hall, hnames, _⟩ := h.resolvesAll
  obtain ⟨answers', hall', hnames', _⟩ := h'.resolvesAll
  -- For the others the two memos are in step from beginning to end.
  have hend := hall.inStep hsame hU (fun n hn => by
    rw [← hr.get?_eq, ← hr'.get?_eq, hset n hn]) hall' (by rw [hnames, hnames', horder])
    ⟨.nil _, .nil _, .start, .start, fun _ _ => rfl⟩ (.refl _) (.refl _)
  intro d
  by_cases hd : U d
  · exact hset d hd
  · rw [hr.get?_eq, hr'.get?_eq, hend.same d hd]

end ControllerTypes.Resolution
