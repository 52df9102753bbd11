import ControllerTypes.Proofs.Lists
import ControllerTypes.Proofs.Resolution.History
import ControllerTypes.Proofs.Resolution.Merge

/-!
# `ControllerTypes.Proofs.Resolution.Offered`: which fields a composition sees in its members

A composition has the fields of its members, as far as the resolver sees them. A member that is a
reference shows its fields only if its definition was finished before the composition (`shown`), and
a definition that was finished as a reference passes on no more than what it refers to directly.

`offered` is what a schema has to give in the light of the finished definitions, and
`Resolves.offers` proves that conversion gives just that. It is an induction over the rules of
resolution, in which every answer is looked up in the memo at the end of the outermost composition
(`View`); an answer gives there what it gave when it was made (`memberFields_later`).
-/

set_option autoImplicit false

namespace ControllerTypes.Resolution

open Document Named

/-! ### What schemas have to give -/

/-- The fields that a definition shows to a composition, which sees the definitions `before` it. -/
def shown (catalog : Catalog) (before : List String) (name : String) :
    Option (List (Field Schema)) :=
  if name ∈ before then
    match catalog.get? name with
    | some (.object fields) => some fields
    | some (.reference target) =>
      if target ∈ before then (catalog.get? target).bind Schema.fields? else none
    | _ => none
  else none

mutual

/-- The names of the fields that a schema gives to a composition, if that sees an object in it. -/
def offered (catalog : Catalog) (before : List String) (raw : SchemaObject) :
    Option (List String) :=
  match _hform : raw.form with
  | .reference ref =>
    (definitionName? ref).bind fun name =>
      (shown catalog before name).map fun fields => fields.map Field.name
  | .decorated only => offered catalog before only
  | .all members =>
    let given := offeredBy catalog before members
    if given.isEmpty && raw.properties.isEmpty then none
    else some (names raw.properties ++ given.flatten)
  | .variants members =>
    let given := offeredBy catalog before members
    if given.isEmpty && raw.properties.isEmpty then none
    else some (names raw.properties ++ given.flatten)
  | .object properties => some (names properties)
  | .enumeration _ | .map _ | .freeMap | .array _ | .scalar => none
termination_by sizeOf raw
decreasing_by
  all_goals have hform := raw.form_below
  all_goals simp only [_hform] at hform
  all_goals exact hform

/-- What each of the schemas gives that is seen as an object. -/
def offeredBy (catalog : Catalog) (before : List String) : List SchemaObject → List (List String)
  | [] => []
  | raw :: rest => (offered catalog before raw).toList ++ offeredBy catalog before rest
termination_by raws => sizeOf raws
decreasing_by
  · exact (by rw [List.cons.sizeOf_spec]; omega)
  · exact (by have := raw.sizeOf_pos; rw [List.cons.sizeOf_spec]; omega)

end

/-- What a schema gives, which `offered` is, goes by its form. -/
theorem offered_eq (catalog : Catalog) (before : List String) (raw : SchemaObject) :
    offered catalog before raw =
      match raw.form with
      | .reference ref =>
        (definitionName? ref).bind fun name =>
          (shown catalog before name).map fun fields => fields.map Field.name
      | .decorated only => offered catalog before only
      | .all members | .variants members =>
        if (offeredBy catalog before members).isEmpty && raw.properties.isEmpty then none
        else some (names raw.properties ++ (offeredBy catalog before members).flatten)
      | .object properties => some (names properties)
      | .enumeration _ | .map _ | .freeMap | .array _ | .scalar => none := by
  rw [offered]
  split <;> next h => rw [h]

/-! ### Conversion gives what schemas have to give -/

/-- The fields that were given have the names that were offered, if both are there. -/
def Offers (catalog : Catalog) (before : List String) (raw : SchemaObject)
    (given : Option (List (Field Schema))) : Prop :=
  Option.Rel (fun fields offer => ∀ name, name ∈ fields.map Field.name ↔ name ∈ offer) given
    (offered catalog before raw)

/-- The memo in which a composition looks its members up, made inside of `active`: it has finished
the definitions `before` the composition, and the catalog agrees with it. -/
structure View (catalog : Catalog) (before active : List String) (v : Memo) : Prop where
  apart : v.Apart active
  finished : ∀ n, n ∈ before ↔ ∃ schema, v.done.get? n = some schema
  agrees : ∀ n schema, v.done.get? n = some schema → catalog.get? n = some schema

variable {defs : Definitions} {catalog : Catalog} {before active : List String} {q : Query}
  {m m' v : Memo} {raw : SchemaObject} {schema : Schema}

/-- The memo that a conversion left is the `View` of the definition that comes from it. -/
theorem Memo.Entered.view (hr : Resolved defs catalog) {d : String}
    (h : (finalMemo defs).Entered defs d schema raw active m m') :
    View catalog (finishedBefore defs d) (d :: active) m' where
  apart := h.converted.apart h.apart
  finished := fun _ => h.mem_finishedBefore
  agrees := by
    intro n w hdone
    have he : m'.Extends (finalMemo defs) := (List.prefix_append _ _).trans h.finished
    rw [hr.get?_eq]
    exact he.get? hdone

/-- A finished definition shows what a reference to it gives. -/
theorem View.memberFields_referenceTo (hv : View catalog before active v) {name : String}
    (hdone : v.done.get? name = some schema) :
    memberFields v (referenceTo name schema) = shown catalog before name := by
  rw [shown, if_pos ((hv.finished name).2 ⟨schema, hdone⟩), hv.agrees name schema hdone]
  -- An object or an enumeration is referred to, a reference is passed on, and nothing else shows
  -- any fields.
  cases schema with
  | object | enumeration =>
    simp only [referenceTo, Schema.isNamed, if_true, memberFields, hdone]
    rfl
  | reference target =>
    simp only [referenceTo, Schema.isNamed, Bool.false_eq_true, if_false, memberFields]
    cases htarget : v.done.get? target with
    | none =>
      have hnot : target ∉ before := by
        rw [hv.finished target, htarget]
        simp
      rw [if_neg hnot]
      rfl
    | some w =>
      rw [if_pos ((hv.finished target).2 ⟨w, htarget⟩), hv.agrees target w htarget]
  | array | map | primitive | unsupported =>
    simp only [referenceTo, Schema.isNamed, Bool.false_eq_true, if_false, memberFields]

/-- A definition that is being worked out shows nothing. -/
theorem View.shown_of_active (hv : View catalog before active v) {name : String}
    (hactive : name ∈ active) : shown catalog before name = none := by
  refine if_neg ?_
  rw [hv.finished name, hv.apart name hactive]
  simp

/-- What an answer gives to a composition does not change while more definitions are finished. By
`hstarted` a reference among them was started. -/
theorem memberFields_later (hstarted : ∀ target, schema = .reference target → m.Started active target)
    (he : m.Extends v) (hv : v.Apart active) : memberFields v schema = memberFields m schema := by
  cases schema with
  | reference target =>
    rcases hstarted target rfl with hactive | ⟨w, hdone⟩
    · -- What is being worked out at the end was so all along, and gives nothing at either time.
      have hm : m.done.get? target = none := by
        cases hdone : m.done.get? target with
        | none => rfl
        | some w => exact absurd hactive (hv.not_mem (he.get? hdone))
      rw [memberFields, memberFields, hm, hv target hactive]
    · rw [memberFields, memberFields, hdone, he.get? hdone]
  | _ => rfl

/-- A member gives the fields that it gave right behind its conversion, also in the memo `v` that
the composition leaves. -/
theorem Resolves.memberFields_eq {raw : SchemaObject}
    (h : Resolves defs active (.schema raw schema) m m') (ha : m.Apart active)
    (hk : m.Known active) (he : m'.Extends v) (hv : v.Apart active) :
    memberFields m' schema = memberFields v schema := by
  obtain ⟨_, hanswer⟩ := h.known ha hk
  refine (memberFields_later (fun target heq => ?_) he hv).symm
  exact hanswer target (List.mem_singleton.2 heq.symm)

section
variable {raws : List SchemaObject} {parts : List Part}

/-- The parts of members give what the members have to give. -/
def PartsOffer (catalog : Catalog) (before : List String) (v : Memo) (raws : List SchemaObject)
    (parts : List Part) : Prop :=
  List.Forall₂
    (fun raw part =>
      part.fields = memberFields v part.schema ∧ Offers catalog before raw part.fields)
    raws parts

/-- Each part belongs to a member, and knows its fields from its schema. -/
theorem PartsOffer.exists_raw (h : PartsOffer catalog before v raws parts) {part : Part}
    (hpart : part ∈ parts) :
    ∃ raw ∈ raws,
      part.fields = memberFields v part.schema ∧ Offers catalog before raw part.fields :=
  forall₂_exists_left h hpart

/-- Each member has its part. -/
theorem PartsOffer.exists_part (h : PartsOffer catalog before v raws parts)
    (hraw : raw ∈ raws) : ∃ part ∈ parts, Offers catalog before raw part.fields := by
  obtain ⟨part, hpart, _, hoffers⟩ := forall₂_exists_right h hraw
  exact ⟨part, hpart, hoffers⟩

/-- A part knows its fields from its schema. -/
theorem PartsOffer.fields_eq (h : PartsOffer catalog before v raws parts) {part : Part}
    (hpart : part ∈ parts) : part.fields = memberFields v part.schema := by
  obtain ⟨_, _, hfields, _⟩ := h.exists_raw hpart
  exact hfields

/-- A member that is seen as an object has a part with fields of the names it offers. -/
theorem Offers.has_iff {part : Part} (h : Offers catalog before raw part.fields) {name : String} :
    part.Has name ↔ ∃ offer, offered catalog before raw = some offer ∧ name ∈ offer := by
  rw [Offers] at h
  rw [Part.Has]
  generalize part.fields = given, offered catalog before raw = offer at h
  cases h with
  | none => simp
  | some hnames => simpa using hnames name

/-- A member is seen as an object exactly if its part is one. -/
theorem Offers.ne_none_iff {given : Option (List (Field Schema))}
    (h : Offers catalog before raw given) : given ≠ none ↔ offered catalog before raw ≠ none := by
  rw [Offers] at h
  generalize offered catalog before raw = offer at h
  cases h with
  | none => simp
  | some => simp

/-- What members give is what each of them offers. -/
theorem mem_offeredBy {raws : List SchemaObject} {offer : List String} :
    offer ∈ offeredBy catalog before raws ↔
      ∃ raw ∈ raws, offered catalog before raw = some offer := by
  induction raws with
  | nil =>
    rw [offeredBy]
    simp
  | cons raw rest ih =>
    rw [offeredBy, List.mem_append, ih, Option.mem_toList]
    simp

/-- Some part is an object exactly if some member offers anything. -/
theorem PartsOffer.exists_object_iff (h : PartsOffer catalog before v raws parts) :
    (∃ part ∈ parts, part.fields ≠ none) ↔
      ∃ raw ∈ raws, offered catalog before raw ≠ none := by
  constructor
  · rintro ⟨part, hpart, hfields⟩
    obtain ⟨raw, hraw, _, hoffers⟩ := h.exists_raw hpart
    exact ⟨raw, hraw, hoffers.ne_none_iff.1 hfields⟩
  · rintro ⟨raw, hraw, hoffered⟩
    obtain ⟨part, hpart, hoffers⟩ := h.exists_part hraw
    exact ⟨part, hpart, hoffers.ne_none_iff.2 hoffered⟩

/-- The parts have the fields that the members offer. -/
theorem PartsOffer.exists_has_iff (h : PartsOffer catalog before v raws parts) {name : String} :
    (∃ part ∈ parts, part.Has name) ↔
      ∃ raw ∈ raws, ∃ offer, offered catalog before raw = some offer ∧ name ∈ offer := by
  constructor
  · rintro ⟨part, hpart, hhas⟩
    obtain ⟨raw, hraw, _, hoffers⟩ := h.exists_raw hpart
    exact ⟨raw, hraw, hoffers.has_iff.1 hhas⟩
  · rintro ⟨raw, hraw, hoffered⟩
    obtain ⟨part, hpart, hoffers⟩ := h.exists_part hraw
    exact ⟨part, hpart, hoffers.has_iff.2 hoffered⟩

/-- Members give nothing exactly if none of them offers anything. -/
theorem offeredBy_eq_nil_iff {raws : List SchemaObject} :
    offeredBy catalog before raws = [] ↔
      ¬ ∃ raw ∈ raws, offered catalog before raw ≠ none := by
  rw [List.eq_nil_iff_forall_not_mem]
  constructor
  · rintro h ⟨raw, hraw, hoffered⟩
    obtain ⟨offer, hoffer⟩ := Option.ne_none_iff_exists'.1 hoffered
    exact h offer (mem_offeredBy.2 ⟨raw, hraw, hoffer⟩)
  · intro h offer hmem
    obtain ⟨raw, hraw, hoffer⟩ := mem_offeredBy.1 hmem
    exact h ⟨raw, hraw, by rw [hoffer]; simp⟩

/-- The names that members give are those that each of them offers. -/
theorem mem_flatten_offeredBy {raws : List SchemaObject} {name : String} :
    name ∈ (offeredBy catalog before raws).flatten ↔
      ∃ raw ∈ raws, ∃ offer, offered catalog before raw = some offer ∧ name ∈ offer := by
  rw [List.mem_flatten]
  constructor
  · rintro ⟨offer, hoffer, hmem⟩
    obtain ⟨raw, hraw, hoffered⟩ := mem_offeredBy.1 hoffer
    exact ⟨raw, hraw, offer, hoffered, hmem⟩
  · rintro ⟨raw, hraw, offer, hoffered, hmem⟩
    exact ⟨offer, mem_offeredBy.2 ⟨raw, hraw, hoffered⟩, hmem⟩

/-- A composition gives what its parts and its own properties amount to, if it is `Composed` of
them. -/
theorem offers_of_composed {own : List (Field Schema)} {result : Schema}
    (hform : raw.form = .all raws ∨ raw.form = .variants raws)
    (hparts : PartsOffer catalog before v raws parts)
    (hown : own.map Field.name = names raw.properties) (hc : Composed parts own result) :
    Offers catalog before raw (memberFields v result) := by
  have hoffered : offered catalog before raw =
      if (offeredBy catalog before raws).isEmpty && raw.properties.isEmpty then none
      else some (names raw.properties ++ (offeredBy catalog before raws).flatten) := by
    rw [offered_eq]
    rcases hform with h | h <;> rw [h]
  have hnil : own = [] ↔ raw.properties = [] := by
    rw [← List.map_eq_nil_iff (f := Field.name), hown]
    exact List.map_eq_nil_iff
  -- The flags of the two sides say the same: nothing here is an object.
  have hempty : ((offeredBy catalog before raws).isEmpty && raw.properties.isEmpty) = true ↔
      ¬ ((∃ part ∈ parts, part.fields ≠ none) ∨ own ≠ []) := by
    rw [Bool.and_eq_true, List.isEmpty_iff, List.isEmpty_iff, offeredBy_eq_nil_iff,
      hparts.exists_object_iff, ← hnil, not_or, not_ne_iff]
  rw [Offers, hoffered]
  rcases hc with ⟨hobject, fields, rfl, hnames⟩ | ⟨hnone, hown', hresult⟩
  · rw [if_neg fun h => hempty.1 h hobject]
    refine .some fun name => ?_
    rw [hnames, hown, List.mem_append, hparts.exists_has_iff, mem_flatten_offeredBy]
  · -- The result is one of the parts, and none of them is an object.
    have hfields : memberFields v result = none := by
      rcases hresult with ⟨detail, rfl⟩ | ⟨part, hpart, rfl⟩
      · rfl
      · rw [← hparts.fields_eq hpart]
        exact hnone part hpart
    have hno : ¬ ((∃ part ∈ parts, part.fields ≠ none) ∨ own ≠ []) := by
      rintro (⟨part, hpart, hfields⟩ | hne)
      · exact hfields (hnone part hpart)
      · exact hne hown'
    rw [if_pos (hempty.2 hno), hfields]
    exact .none

end

/-- The answer of a query gives what was asked has to give. -/
def Query.Offers (catalog : Catalog) (before : List String) (v : Memo) : Query → Prop
  | .name _ _ => True
  | .schema raw answer => Resolution.Offers catalog before raw (memberFields v answer)
  | .members raws parts => PartsOffer catalog before v raws parts
  | .properties _ asked fields => fields.map Field.name = names asked

/-- Every conversion gives to a composition around it what its schema has to give, as seen from the
`View` in which that composition looks its members up. -/
theorem Resolves.offers (h : Resolves defs active q m m') (ha : m.Apart active)
    (hk : m.Known active) (he : m'.Extends v) (hv : View catalog before active v) :
    q.Offers catalog before v := by
  induction h with
  | done | active | enter => trivial
  | @reference _ raw ref name target _ _ hform hname htarget _ =>
    -- The reference is finished, and shows what the catalog has, or is being worked out and shows
    -- nothing.
    have hshown : memberFields v (referenceTo name target) = shown catalog before name := by
      rcases htarget.name_cases with hdone | ⟨hactive, rfl⟩
      · exact hv.memberFields_referenceTo (he.get? hdone)
      · rw [hv.shown_of_active hactive]
        simp only [referenceTo, Schema.isNamed, Bool.false_eq_true, if_false, memberFields]
        rw [hv.apart name hactive]
        rfl
    rw [Query.Offers, Offers, hshown, offered_eq, hform]
    simp only [hname, Option.bind_some]
    cases shown catalog before name with
    | none => exact .none
    | some fields => exact .some fun _ => Iff.rfl
  | decorated hform _ ih =>
    have hoffers := ih ha hk he hv
    rw [Query.Offers, Offers] at hoffers ⊢
    rw [offered_eq, hform]
    exact hoffers
  | all hform hmembers hown ihmembers ihown =>
    have ha₁ := hmembers.apart ha
    exact offers_of_composed (.inl hform)
      (ihmembers ha hk ((hown.extends ha₁).trans he) hv) (ihown ha₁ (hmembers.known ha hk).1 he hv)
      (composed_combineAll _ _ _)
  | variants hform hmembers hown ihmembers ihown =>
    have ha₁ := hmembers.apart ha
    exact offers_of_composed (.inr hform)
      (ihmembers ha hk ((hown.extends ha₁).trans he) hv) (ihown ha₁ (hmembers.known ha hk).1 he hv)
      (composed_combineVariants _ _)
  | enumeration hform | map hform | freeMap hform | array hform =>
    rw [Query.Offers, Offers, offered_eq, hform]
    exact .none
  | object hform _ ih =>
    have hnames := ih ha hk he hv
    rw [Query.Offers, Offers, offered_eq, hform]
    refine .some fun name => ?_
    rw [hnames]
  | @scalar _ raw _ hform =>
    have hfields : memberFields v (convertScalar raw) = none := by
      unfold convertScalar
      split <;> rfl
    rw [Query.Offers, Offers, offered_eq, hform, hfields]
    exact .none
  | noMembers => exact .nil
  | member hschema hrest ihschema ihrest =>
    have ha₁ := hschema.apart ha
    have he₁ := (hrest.extends ha₁).trans he
    have hsame := hschema.memberFields_eq ha hk he₁ hv.apart
    refine .cons ⟨hsame, ?_⟩ (ihrest ha₁ (hschema.known ha hk).1 he hv)
    show Offers catalog before _ (memberFields _ _)
    rw [hsame]
    exact ihschema ha hk he₁ hv
  | noProperties => rfl
  | property hschema hrest ihschema ihrest =>
    have ha₁ := hschema.apart ha
    have hnames := ihrest ha₁ (hschema.known ha hk).1 he hv
    exact congrArg (_ :: ·) hnames

end ControllerTypes.Resolution
