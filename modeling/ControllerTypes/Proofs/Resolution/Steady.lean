import ControllerTypes.Proofs.Resolution.Acyclic
import ControllerTypes.Proofs.Resolution.Complete

/-!
# `ControllerTypes.Proofs.Resolution.Steady`: definitions whose schemas do not depend on the order

The order in which definitions are worked out shows only on cycles of references. Where a definition
refers to one that leads back to it, the other may be finished or not, and then a reference or a
schema stands in that place, or a composition misses fields.

A definition is `Steady` if neither makes a difference. Whatever it mentions that leads back to it
is an object without regard to what any reference stands for (`Outright`), so a reference stands in
the place in any case, and it is not what a composition in the definition takes fields from
(`Merges`).

`WorkedOut.agree` compares two descriptions that have the same definitions in different orders. Let
everything that some definitions lead to be steady. Then the catalogs agree on all of these.
-/

set_option autoImplicit false

namespace ControllerTypes.Resolution

open Document Named Relation

/-! ### Steady definitions -/

/-- The schema is an object whatever the references in it stand for. -/
inductive Outright : SchemaObject → Prop where
  | object {raw : SchemaObject} {properties : List (String × SchemaObject)}
      (hform : raw.form = .object properties) : Outright raw
  | decorated {raw only : SchemaObject} (hform : raw.form = .decorated only)
      (honly : Outright only) : Outright raw
  | own {raw : SchemaObject} {members : List SchemaObject}
      (hform : raw.form = .all members ∨ raw.form = .variants members)
      (hown : raw.properties ≠ []) : Outright raw
  | member {raw member : SchemaObject} {members : List SchemaObject}
      (hform : raw.form = .all members ∨ raw.form = .variants members)
      (hmember : member ∈ members) (houtright : Outright member) : Outright raw

/-- What the definition stands for may be all that the schema comes to. -/
inductive Draws : SchemaObject → String → Prop where
  | reference {raw : SchemaObject} {ref n : String} (hform : raw.form = .reference ref)
      (hname : definitionName? ref = some n) : Draws raw n
  | decorated {raw only : SchemaObject} {n : String} (hform : raw.form = .decorated only)
      (honly : Draws only n) : Draws raw n
  | member {raw member : SchemaObject} {members : List SchemaObject} {n : String}
      (hform : raw.form = .all members ∨ raw.form = .variants members)
      (hmember : member ∈ members) (hdraws : Draws member n) : Draws raw n

/-- A composition in the schema, at whatever depth, takes fields from the definition. -/
inductive Merges : SchemaObject → String → Prop where
  | member {raw member : SchemaObject} {members : List SchemaObject} {n : String}
      (hform : raw.form = .all members ∨ raw.form = .variants members)
      (hmember : member ∈ members) (hdraws : Draws member n) : Merges raw n
  | part {raw part : SchemaObject} {n : String} (hpart : part ∈ raw.parts)
      (hmerges : Merges part n) : Merges raw n

/-- Whatever the definition mentions that leads back to it is an object without regard to
references, and no composition takes fields from it. -/
def Steady (defs : Definitions) (d : String) : Prop :=
  ∀ raw n, defs.get? d = some raw → Mentions raw n → ReflTransGen (Refers defs) n d →
    (∃ origin, defs.get? n = some origin ∧ Outright origin) ∧ ¬ Merges raw n

variable {defs defs' : Definitions} {catalog catalog' : Catalog} {d n k : String}
  {raw member : SchemaObject} {members : List SchemaObject} {schema schema' : Schema}

/-- A schema `Mentions` whatever it may come to. -/
theorem Draws.mentions (h : Draws raw n) : Mentions raw n := by
  induction h with
  | reference hform hname => exact .reference hform hname
  | decorated hform _ ih => exact .decorated hform ih
  | member hform hmember _ ih => exact .member hform hmember ih

/-- A schema `Mentions` whatever compositions in it take fields from. -/
theorem Merges.mentions (h : Merges raw n) : Mentions raw n := by
  induction h with
  | member hform hmember hdraws => exact .member hform hmember hdraws.mentions
  | part hpart _ ih => exact ih.of_mem_parts hpart

/-! ### What steady definitions are converted to -/

/-- What is `Outright` an object is converted to an object. -/
theorem Outright.exists_fields (h : Outright raw) (hc : Conversion defs catalog d raw schema) :
    ∃ fields, schema = .object fields := by
  induction h generalizing schema with
  | object hform =>
    have hrule := hc.of_form
    simp only [hform] at hrule
    exact hrule.imp fun _ h => h.1
  | decorated hform _ ih =>
    have hrule := hc.of_form
    simp only [hform] at hrule
    exact ih hrule
  | own hform hown =>
    obtain ⟨parts, own, hresult, _, hfields⟩ := hc.composed hform
    -- A composition with own properties cannot come to anything else.
    rcases hresult with ⟨_, fields, heq, _⟩ | ⟨_, rfl, _⟩
    · exact ⟨fields, heq⟩
    · exact absurd (List.forall₂_nil_right_iff.1 hfields) hown
  | member hform hmember _ ih =>
    obtain ⟨parts, own, hresult, hmembers, _⟩ := hc.composed hform
    obtain ⟨part, hpart, hconversion, hseen⟩ := forall₂_exists_right hmembers hmember
    obtain ⟨fields, hobject⟩ := ih hconversion
    rcases hresult with ⟨_, fields, heq, _⟩ | ⟨hnone, _⟩
    · exact ⟨fields, heq⟩
    · rw [hnone part hpart, hobject] at hseen
      cases hseen

/-- A definition that is `Outright` an object is one in the catalog. -/
theorem Resolved.exists_fields (hr : Resolved defs catalog) (hraw : defs.get? d = some raw)
    (h : Outright raw) : ∃ fields, catalog.get? d = some (.object fields) := by
  obtain ⟨schema, hget⟩ := hr.exists_schema hraw
  obtain ⟨fields, rfl⟩ := h.exists_fields (hr.conversion hraw hget)
  exact ⟨fields, hget⟩

/-- A definition that stands as a reference leads to what that refers to. -/
theorem WorkedOut.leads_of_reference (h : WorkedOut defs catalog)
    (hget : catalog.get? n = some (.reference k)) : TransGen (Refers defs) n k := by
  obtain ⟨answers, hall, _⟩ := h.resolvesAll
  exact (hall.rooted .start n k ((h.resolved.get?_eq n).symm.trans hget)).1

/-- A schema that is converted to a reference `Draws` from a definition that leads there. -/
theorem Conversion.exists_draws (h : WorkedOut defs catalog)
    (hc : Conversion defs catalog d raw (.reference k)) :
    ∃ n, Draws raw n ∧ ReflTransGen (Refers defs) n k := by
  induction raw using SchemaObject.parts_induction with
  | step raw ih =>
    -- A composition that is a reference is one of its members.
    have hmember {members : List SchemaObject} {parts : List Part}
        (hform : raw.form = .all members ∨ raw.form = .variants members)
        (hmembers : ConvertedMembers defs catalog d members parts)
        (hpart : .reference k ∈ parts.map Part.schema) :
        ∃ n, Draws raw n ∧ ReflTransGen (Refers defs) n k := by
      obtain ⟨part, hpart, hschema⟩ := List.mem_map.1 hpart
      obtain ⟨member, hmember, hconversion, _⟩ := forall₂_exists_left hmembers hpart
      obtain ⟨n, hdraws, hpath⟩ :=
        ih member (mem_parts_of_member hform hmember) (hschema ▸ hconversion)
      exact ⟨n, .member hform hmember hdraws, hpath⟩
    have hrule := hc.of_form
    cases hform : raw.form with
    | reference ref =>
      simp only [hform] at hrule
      obtain ⟨n, hname, hstands⟩ := hrule
      refine ⟨n, .reference hform hname, ?_⟩
      -- The definition was finished, as a reference or as what is referred to, or is referred to
      -- itself.
      rcases hstands with ⟨_, target, hget, heq⟩ | ⟨_, _, heq⟩
      · rcases referenceTo_cases heq.symm with ⟨rfl, _⟩ | rfl
        · exact .refl
        · exact (h.leads_of_reference hget).to_reflTransGen
      · cases heq
        exact .refl
    | decorated only =>
      simp only [hform] at hrule
      obtain ⟨n, hdraws, hpath⟩ := ih only (by simp [SchemaObject.parts, hform]) hrule
      exact ⟨n, .decorated hform hdraws, hpath⟩
    | all members =>
      simp only [hform] at hrule
      obtain ⟨parts, own, heq, hmembers, _⟩ := hrule
      exact hmember (.inl hform) hmembers (mem_of_combineAll heq.symm)
    | variants members =>
      simp only [hform] at hrule
      obtain ⟨parts, own, heq, hmembers, _⟩ := hrule
      exact hmember (.inr hform) hmembers (mem_of_combineVariants heq.symm)
    | enumeration | freeMap =>
      simp only [hform] at hrule
      cases hrule
    | map | array | object =>
      simp only [hform] at hrule
      obtain ⟨_, heq, _⟩ := hrule
      cases heq
    | scalar =>
      simp only [hform] at hrule
      exact absurd hrule.symm (convertScalar_ne_reference raw k)

/-- A schema is converted to a reference to something that was finished before, or that leads back.
-/
theorem Conversion.reference_cases (hc : Conversion defs catalog d raw (.reference k)) :
    k ∈ finishedBefore defs d ∨ ReflTransGen (Refers defs) k d := by
  obtain ⟨hconverted, ha, hk, he, hv, hpath⟩ := hc
  rcases (hconverted.known ha hk).2 k (List.mem_singleton.2 rfl) with hactive | ⟨target, hdone⟩
  · exact .inr (hpath k hactive)
  · exact .inl ((hv.finished k).2 ⟨target, he.get? hdone⟩)

/-! ### Two descriptions with the same definitions -/

/-- What two descriptions, in which the references are the same, have to have in common around a
schema in the definition `d`, so that it is converted to the same in both. -/
structure Alike (defs defs' : Definitions) (catalog catalog' : Catalog) (d : String)
    (raw : SchemaObject) : Prop where
  refers : Refers defs' = Refers defs
  /-- What is finished before `d` in the first description is the same in the second. -/
  before : ∀ n k, Mentions raw n → ReflTransGen (Refers defs) n k → k ∈ finishedBefore defs d →
    catalog.get? k = catalog'.get? k
  back : ∀ n, Mentions raw n → ReflTransGen (Refers defs) n d →
    (∃ fields, catalog.get? n = some (.object fields)) ∧
      ∃ fields, catalog'.get? n = some (.object fields)
  apart : ∀ n, Merges raw n → ¬ ReflTransGen (Refers defs) n d

/-- What holds around a schema holds around its `parts`. -/
theorem Alike.part {part : SchemaObject} (h : Alike defs defs' catalog catalog' d raw)
    (hpart : part ∈ raw.parts) : Alike defs defs' catalog catalog' d part where
  refers := h.refers
  before := fun n k hn => h.before n k (hn.of_mem_parts hpart)
  back := fun n hn => h.back n (hn.of_mem_parts hpart)
  apart := fun n hn => h.apart n (.part hpart hn)

/-- A place of reference holds the same in both descriptions that are `Alike`. -/
theorem StandsFor.agree (ha : Alike defs defs' catalog catalog' d raw) (hn : Mentions raw n)
    (h : StandsFor defs catalog d n schema) (h' : StandsFor defs' catalog' d n schema') :
    schema = schema' := by
  -- If `n` leads back, a reference stands there, whether `n` was finished before or not.
  have hback (hpath : ReflTransGen (Refers defs) n d) : schema = schema' := by
    obtain ⟨⟨fields, hget⟩, fields', hget'⟩ := ha.back n hn hpath
    have hschema : schema = .reference n := by
      rcases h with ⟨_, target, htarget, rfl⟩ | ⟨_, _, heq⟩
      · cases hget.symm.trans htarget
        rfl
      · exact heq
    rcases h' with ⟨_, target, htarget, rfl⟩ | ⟨_, _, rfl⟩
    · cases hget'.symm.trans htarget
      exact hschema
    · exact hschema
  rcases h with ⟨hbefore, target, hget, rfl⟩ | ⟨_, hpath, _⟩
  · rcases h' with ⟨_, target', hget', rfl⟩ | ⟨_, hpath, _⟩
    · rw [ha.before n n hn .refl hbefore, hget'] at hget
      rw [Option.some.inj hget]
    · exact hback (ha.refers ▸ hpath)
  · exact hback hpath

/-- A member gives the same to its composition in both descriptions. -/
theorem Conversion.seen_agree (hw : WorkedOut defs catalog)
    (ha : Alike defs defs' catalog catalog' d raw)
    (hform : raw.form = .all members ∨ raw.form = .variants members) (hmember : member ∈ members)
    (h : Conversion defs catalog d member schema) (h' : Conversion defs' catalog' d member schema) :
    seen catalog (finishedBefore defs d) schema =
      seen catalog' (finishedBefore defs' d) schema := by
  cases schema with
  | reference k =>
    obtain ⟨n, hdraws, hpath⟩ := h.exists_draws hw
    -- What the member draws from does not lead back, so the reference is to something finished
    -- before in both.
    have hforward : ¬ ReflTransGen (Refers defs) k d := fun hback =>
      ha.apart n (.member hform hmember hdraws) (hpath.trans hback)
    have hbefore := h.reference_cases.resolve_right hforward
    have hbefore' := h'.reference_cases.resolve_right (ha.refers ▸ hforward)
    have hmentions := hdraws.mentions.of_mem_parts (mem_parts_of_member hform hmember)
    simp only [seen, if_pos hbefore, if_pos hbefore', ha.before n k hmentions hpath hbefore]
  | _ => rfl

/-- A schema is converted to the same in both descriptions that are `Alike`. -/
theorem Conversion.agree (hw : WorkedOut defs catalog)
    (ha : Alike defs defs' catalog catalog' d raw) (h : Conversion defs catalog d raw schema)
    (h' : Conversion defs' catalog' d raw schema') : schema = schema' := by
  induction raw using SchemaObject.parts_induction generalizing schema schema' with
  | step raw ih =>
    have hpart {part : SchemaObject} (hmem : part ∈ raw.parts) {schema schema' : Schema}
        (h : Conversion defs catalog d part schema)
        (h' : Conversion defs' catalog' d part schema') : schema = schema' :=
      ih part hmem (ha.part hmem) h h'
    -- Properties are compared one by one, as are the members of a composition with what they show.
    have hproperties {properties : List (String × SchemaObject)}
        {fields fields' : List (Field Schema)} (hmem : ∀ x ∈ properties, x.2 ∈ raw.parts)
        (hfields : ConvertedProperties defs catalog d raw.required properties fields)
        (hfields' : ConvertedProperties defs' catalog' d raw.required properties fields') :
        fields = fields' := by
      refine forall₂_unique hfields hfields' ?_
      rintro x hx ⟨_, _, _⟩ ⟨_, _, _⟩ ⟨rfl, rfl, hc⟩ ⟨rfl, rfl, hc'⟩
      cases hpart (hmem x hx) hc hc'
      rfl
    have hmembers {members : List SchemaObject} {parts parts' : List Part}
        (hform : raw.form = .all members ∨ raw.form = .variants members)
        (hparts : ConvertedMembers defs catalog d members parts)
        (hparts' : ConvertedMembers defs' catalog' d members parts') : parts = parts' := by
      refine forall₂_unique hparts hparts' ?_
      rintro member hmember ⟨_, _⟩ ⟨_, _⟩ ⟨hc, hfields⟩ ⟨hc', hfields'⟩
      cases hpart (mem_parts_of_member hform hmember) hc hc'
      have hseen := hc.seen_agree hw ha hform hmember hc'
      exact congrArg (Part.mk _) (hfields.trans (hseen.trans hfields'.symm))
    have hrule := h.of_form
    have hrule' := h'.of_form
    cases hform : raw.form with
    | reference ref =>
      simp only [hform] at hrule hrule'
      obtain ⟨n, hname, hstands⟩ := hrule
      obtain ⟨n', hname', hstands'⟩ := hrule'
      cases hname.symm.trans hname'
      exact hstands.agree ha (.reference hform hname) hstands'
    | decorated only =>
      simp only [hform] at hrule hrule'
      exact hpart (by simp [SchemaObject.parts, hform]) hrule hrule'
    | all members =>
      simp only [hform] at hrule hrule'
      obtain ⟨parts, own, rfl, hparts, hown⟩ := hrule
      obtain ⟨parts', own', rfl, hparts', hown'⟩ := hrule'
      rw [hmembers (.inl hform) hparts hparts',
        hproperties (fun _ => mem_parts_of_own (.inl hform)) hown hown']
    | variants members =>
      simp only [hform] at hrule hrule'
      obtain ⟨parts, own, rfl, hparts, hown⟩ := hrule
      obtain ⟨parts', own', rfl, hparts', hown'⟩ := hrule'
      rw [hmembers (.inr hform) hparts hparts',
        hproperties (fun _ => mem_parts_of_own (.inr hform)) hown hown']
    | object properties =>
      simp only [hform] at hrule hrule'
      obtain ⟨fields, rfl, hfields⟩ := hrule
      obtain ⟨fields', rfl, hfields'⟩ := hrule'
      rw [hproperties (fun x hx => by
        simpa [SchemaObject.parts, hform] using ⟨x.1, hx⟩) hfields hfields']
    | map values =>
      simp only [hform] at hrule hrule'
      obtain ⟨value, rfl, hvalue⟩ := hrule
      obtain ⟨value', rfl, hvalue'⟩ := hrule'
      rw [hpart (by simp [SchemaObject.parts, hform]) hvalue hvalue']
    | array items =>
      simp only [hform] at hrule hrule'
      obtain ⟨item, rfl, hitem⟩ := hrule
      obtain ⟨item', rfl, hitem'⟩ := hrule'
      rw [hpart (by simp [SchemaObject.parts, hform]) hitem hitem']
    | enumeration | freeMap | scalar =>
      simp only [hform] at hrule hrule'
      exact hrule.trans hrule'.symm

/-! ### Steady definitions have the same schemas -/

/-- Descriptions with the same definitions have the same references. -/
theorem refers_congr (hsame : ∀ n, defs.get? n = defs'.get? n) : Refers defs' = Refers defs := by
  funext d n
  simp only [Refers, hsame]

/-- Descriptions with the same definitions agree on definitions that lead to `Steady` ones only. -/
theorem WorkedOut.agree (h : WorkedOut defs catalog) (h' : WorkedOut defs' catalog')
    (hsame : ∀ n, defs.get? n = defs'.get? n)
    (hsteady : ∀ k, ReflTransGen (Refers defs) d k → Steady defs k) :
    catalog.get? d = catalog'.get? d := by
  have hr := h.resolved
  have hr' := h'.resolved
  -- On the number of definitions finished before this one, in the first description.
  generalize hlength : (finishedBefore defs d).length = length
  induction length using Nat.strong_induction_on generalizing d with
  | _ length ih =>
    cases hraw : defs.get? d with
    | none =>
      -- What is not defined is in neither catalog.
      have hnone {defs : Definitions} {catalog : Catalog} (hr : Resolved defs catalog)
          (hraw : defs.get? d = none) : catalog.get? d = none := by
        have hmem : d ∉ catalog.names := hr.names_eq ▸ get?_eq_none_iff.1 hraw
        exact get?_eq_none_iff.2 hmem
      rw [hnone hr hraw, hnone hr' (hsame d ▸ hraw)]
    | some raw =>
      have hraw' : defs'.get? d = some raw := hsame d ▸ hraw
      obtain ⟨schema, hget⟩ := hr.exists_schema hraw
      obtain ⟨schema', hget'⟩ := hr'.exists_schema hraw'
      -- The two descriptions agree on all that was finished before, which is what a conversion
      -- depends on.
      have halike : Alike defs defs' catalog catalog' d raw := by
        constructor
        · exact refers_congr hsame
        · intro n k hmentions hpath hbefore
          have hk : ReflTransGen (Refers defs) d k := .head ⟨raw, hraw, hmentions⟩ hpath
          exact ih _ (hlength ▸ length_finishedBefore_lt hbefore)
            (fun k' hk' => hsteady k' (hk.trans hk')) rfl
        · intro n hmentions hback
          obtain ⟨⟨origin, horigin, houtright⟩, _⟩ := hsteady d .refl raw n hraw hmentions hback
          exact ⟨hr.exists_fields horigin houtright,
            hr'.exists_fields (hsame n ▸ horigin) houtright⟩
        · intro n hmerges hback
          exact (hsteady d .refl raw n hraw hmerges.mentions hback).2 hmerges
      rw [hget, hget', (hr.conversion hraw hget).agree h halike (hr'.conversion hraw' hget')]

end ControllerTypes.Resolution
