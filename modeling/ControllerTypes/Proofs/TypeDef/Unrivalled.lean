import ControllerTypes.Proofs.Named
import ControllerTypes.Proofs.TypeDef.Naming

/-!
# `ControllerTypes.Proofs.TypeDef.Unrivalled`: names that do not depend on the order

Definitions that are named after themselves are given their names in the order of the catalog. When
two of them try for the same name, the first one gets it. A definition is `Unrivalled` if the name
it would be given by itself is neither brought along by a resource nor tried by another definition.
Then it gets that name wherever it stands, and no other definition notices.

Take a catalog in which only some definitions are kept in their order, and all others that are named
after themselves are unrivalled. `naming_agree` says that its naming is the same, up to the order of
the names, for every other order of the other definitions. The proof compares the naming with that
of the kept definitions alone (`Beside`).
-/

set_option autoImplicit false

namespace ControllerTypes.Naming

open Name Named

/-- The name that a definition would be given by itself. -/
@[irreducible] def ownName (d : String) : String := (takeName (goIdentifier d "Type") [] .types).1

/-- The definition is an object or an enumeration, and no resource lends it a name. -/
def NamedAfterItself (catalog : Catalog) (resources : List Resource) (d : String) : Prop :=
  (∃ schema, catalog.get? d = some schema ∧ schema.isNamed = true) ∧
    (statuses resources).get? d = none

/-- Nothing competes with the definition for the name that it would be given by itself. -/
def Unrivalled (catalog : Catalog) (resources : List Resource) (d : String) : Prop :=
  ownName d ∉ resourceNames resources ∧
    ∀ e, NamedAfterItself catalog resources e → e ≠ d →
      ¬ Tried (goIdentifier e "Type") (ownName d)

variable {catalog catalog' : Catalog} {resources : List Resource} {keep : String → Bool}
  {naming kept : Naming} {d n : String} {schema : Schema}

/-- The own name of a definition is one that it tries. -/
theorem tried_ownName (d : String) : Tried (goIdentifier d "Type") (ownName d) := by
  unfold ownName
  exact tried_takeName _ _ _

/-- A definition is given its own name if that is not taken. -/
theorem takeName_eq_ownName {taken : List String} (h : ownName d ∉ taken) :
    (takeName (goIdentifier d "Type") taken .types).1 = ownName d := by
  -- The first attempt that is free among no names is also the first that is free among these.
  unfold ownName at h ⊢
  exact takeName_eq_of_not_mem h

/-! ### Giving a name -/

/-- The naming in which one more definition has a name. -/
def give (naming : Naming) (d n : String) : Naming :=
  ⟨naming.types.insertNew d n, n :: naming.taken⟩

/-- A definition without a name gets the one it is given, and no other is touched. -/
theorem get?_give (hnone : naming.types.get? d = none) (n e : String) :
    (naming.give d n).types.get? e = if e = d then some n else naming.types.get? e := by
  rw [give, Table.get?_insertNew]
  by_cases he : e = d
  · rw [he, hnone]
    rfl
  · rw [if_neg he, if_neg he, Option.or_none]

/-- The name that is given is taken from then on. -/
theorem mem_taken_give {m : String} : m ∈ (naming.give d n).taken ↔ m = n ∨ m ∈ naming.taken :=
  List.mem_cons

/-- An object or an enumeration without a name is given a fresh one. -/
theorem add_eq_give (hnamed : schema.isNamed = true) (hnone : naming.types.get? d = none) :
    naming.add d schema =
      naming.give d (takeName (goIdentifier d "Type") naming.taken .types).1 :=
  if_pos ⟨hnamed, get?_eq_none_iff.1 hnone⟩

/-- A definition that is no type, or has a name already, leaves the naming as it is. -/
theorem add_eq_self (h : ¬ (schema.isNamed = true ∧ naming.types.get? d = none)) :
    naming.add d schema = naming :=
  if_neg fun hadd => h ⟨hadd.1, get?_eq_none_iff.2 hadd.2⟩

/-! ### The kept definitions and the others -/

/-- A naming next to that of the kept definitions alone. All other names belong to definitions that
have the names they would be given by themselves. -/
structure Beside (catalog : Catalog) (resources : List Resource) (keep : String → Bool)
    (naming kept : Naming) : Prop where
  same : ∀ d, keep d = true → naming.types.get? d = kept.types.get? d
  lent : ∀ d n, (statuses resources).get? d = some n → naming.types.get? d = some n
  own : ∀ d n, keep d = false → naming.types.get? d = some n →
    n = ownName d ∧ NamedAfterItself catalog resources d
  taken : ∀ n, n ∈ naming.taken ↔
    n ∈ kept.taken ∨ ∃ d, keep d = false ∧ naming.types.get? d = some n
  known : ∀ n ∈ kept.taken, n ∈ resourceNames resources ∨
    ∃ d, keep d = true ∧ NamedAfterItself catalog resources d ∧ Tried (goIdentifier d "Type") n

namespace Beside

variable (h : Beside catalog resources keep naming kept)
include h

/-- A definition of the catalog that has no name yet, but needs one, is named after itself. -/
theorem namedAfterItself (hget : catalog.get? d = some schema) (hnamed : schema.isNamed = true)
    (hnone : naming.types.get? d = none) : NamedAfterItself catalog resources d := by
  refine ⟨⟨schema, hget, hnamed⟩, Option.eq_none_iff_forall_ne_some.2 fun n hlent => ?_⟩
  cases (h.lent d n hlent).symm.trans hnone

/-- A kept definition is given the same name on both sides. -/
theorem give_kept (hkeep : keep d = true) (hself : NamedAfterItself catalog resources d)
    (hnone : naming.types.get? d = none) (htried : Tried (goIdentifier d "Type") n) :
    Beside catalog resources keep (naming.give d n) (kept.give d n) := by
  have hother {e : String} (he : keep e = false) :
      (naming.give d n).types.get? e = naming.types.get? e := by
    rw [get?_give hnone, if_neg]
    rintro rfl
    cases hkeep.symm.trans he
  -- The five fields of `Beside`: the new name is known on both sides, and no other is touched.
  constructor
  · intro e he
    rw [get?_give hnone, get?_give ((h.same d hkeep).symm.trans hnone), h.same e he]
  · intro e m hlent
    rw [get?_give hnone, if_neg, h.lent e m hlent]
    -- A definition that was lent a name is not named after itself.
    rintro rfl
    cases hlent.symm.trans hself.2
  · intro e m he hm
    exact h.own e m he (hother he ▸ hm)
  · intro m
    rw [mem_taken_give, mem_taken_give, h.taken m, or_assoc]
    refine or_congr_right (or_congr_right (exists_congr fun e => and_congr_right fun he => ?_))
    rw [hother he]
  · intro m hm
    rcases mem_taken_give.1 hm with rfl | hm
    · exact .inr ⟨d, hkeep, hself, htried⟩
    · exact h.known m hm

/-- Any other definition is given its own name on one side only. -/
theorem give_other (hkeep : keep d = false) (hself : NamedAfterItself catalog resources d)
    (hnone : naming.types.get? d = none) :
    Beside catalog resources keep (naming.give d (ownName d)) kept := by
  -- Here only one side has a new name, and it is the own name of a definition that is not kept.
  constructor
  · intro e he
    rw [get?_give hnone, if_neg, h.same e he]
    rintro rfl
    cases hkeep.symm.trans he
  · intro e m hlent
    rw [get?_give hnone, if_neg, h.lent e m hlent]
    rintro rfl
    cases hlent.symm.trans hself.2
  · intro e m he hm
    rw [get?_give hnone] at hm
    split at hm
    · next heq =>
      cases hm
      exact ⟨congrArg ownName heq.symm, heq ▸ hself⟩
    · exact h.own e m he hm
  · intro m
    rw [mem_taken_give, h.taken m]
    constructor
    · -- The new name is taken because `d` has it; every other name was taken before.
      rintro (rfl | hm | ⟨e, he, hm⟩)
      · exact .inr ⟨d, hkeep, by rw [get?_give hnone, if_pos rfl]⟩
      · exact .inl hm
      · refine .inr ⟨e, he, ?_⟩
        rw [get?_give hnone, if_neg, hm]
        rintro rfl
        cases hm.symm.trans hnone
    · rintro (hm | ⟨e, he, hm⟩)
      · exact .inr (.inl hm)
      · rw [get?_give hnone] at hm
        split at hm
        · exact .inl (Option.some.inj hm).symm
        · exact .inr (.inr ⟨e, he, hm⟩)
  · exact h.known

variable (hunrivalled : ∀ d, NamedAfterItself catalog resources d → keep d = false →
  Unrivalled catalog resources d)
include hunrivalled

/-- Naming a kept definition does the same on both sides. -/
theorem add_kept (hget : catalog.get? d = some schema) (hkeep : keep d = true) :
    Beside catalog resources keep (naming.add d schema) (kept.add d schema) := by
  have hsame := h.same d hkeep
  -- A definition that is no type, or has a name already, is passed over on both sides.
  by_cases hadd : schema.isNamed = true ∧ naming.types.get? d = none
  · obtain ⟨hnamed, hnone⟩ := hadd
    have hself := h.namedAfterItself hget hnamed hnone
    -- The names of other definitions are not among those that this one tries.
    have hname : (takeName (goIdentifier d "Type") naming.taken .types).1 =
        (takeName (goIdentifier d "Type") kept.taken .types).1 := by
      refine takeName_congr fun n htried => (h.taken n).trans (or_iff_left ?_)
      rintro ⟨e, he, hn⟩
      obtain ⟨rfl, hnamed'⟩ := h.own e n he hn
      refine (hunrivalled e hnamed' he).2 d hself ?_ htried
      rintro rfl
      cases hkeep.symm.trans he
    rw [add_eq_give hnamed hnone, add_eq_give hnamed (hsame.symm.trans hnone), ← hname]
    exact h.give_kept hkeep hself hnone (tried_takeName _ _ _)
  · rw [add_eq_self hadd, add_eq_self (hsame ▸ hadd)]
    exact h

/-- Naming any other definition does nothing to the kept ones. -/
theorem add_other (hget : catalog.get? d = some schema) (hkeep : keep d = false) :
    Beside catalog resources keep (naming.add d schema) kept := by
  by_cases hadd : schema.isNamed = true ∧ naming.types.get? d = none
  · obtain ⟨hnamed, hnone⟩ := hadd
    have hself := h.namedAfterItself hget hnamed hnone
    obtain ⟨hresource, htried⟩ := hunrivalled d hself hkeep
    -- Nobody has taken the name, neither a kept definition nor another one.
    have hfree : ownName d ∉ naming.taken := by
      rw [h.taken]
      rintro (hn | ⟨e, he, hn⟩)
      · rcases h.known _ hn with hmem | ⟨e, he, hnamed', htries⟩
        · exact hresource hmem
        · refine htried e hnamed' ?_ htries
          rintro rfl
          cases he.symm.trans hkeep
      · obtain ⟨heq, hnamed'⟩ := h.own e _ he hn
        refine htried e hnamed' ?_ (heq ▸ tried_ownName e)
        rintro rfl
        cases hn.symm.trans hnone
    -- So it gets the own name, whatever was given out before.
    rw [add_eq_give hnamed hnone, takeName_eq_ownName hfree]
    exact h.give_other hkeep hself hnone
  · rw [add_eq_self hadd]
    exact h

/-- Naming any definitions goes along with naming the kept ones among them. -/
theorem foldl (entries : List (String × Schema))
    (hentries : ∀ x ∈ entries, catalog.get? x.1 = some x.2) :
    Beside catalog resources keep (entries.foldl (fun n x => n.add x.1 x.2) naming)
      ((entries.filter fun x => keep x.1).foldl (fun n x => n.add x.1 x.2) kept) := by
  induction entries generalizing naming kept with
  | nil => exact h
  | cons x rest ih =>
    obtain ⟨hx, hrest⟩ := List.forall_mem_cons.1 hentries
    rw [List.foldl_cons]
    -- A kept definition is named on both sides, and any other on one side only.
    by_cases hkeep : keep x.1 = true
    · have hfilter : ((x :: rest).filter fun x => keep x.1) = x :: rest.filter fun x => keep x.1 :=
        List.filter_cons_of_pos hkeep
      rw [hfilter, List.foldl_cons]
      exact ih (h.add_kept hunrivalled hx hkeep) hrest
    · have hfilter : ((x :: rest).filter fun x => keep x.1) = rest.filter fun x => keep x.1 :=
        List.filter_cons_of_neg hkeep
      rw [hfilter]
      exact ih (h.add_other hunrivalled hx (by simpa using hkeep)) hrest

end Beside

variable (catalog) in
/-- The names that are lent stand next to themselves. -/
theorem beside_statuses (hlent : ∀ d n, (statuses resources).get? d = some n → keep d = true) :
    Beside catalog resources keep ⟨statuses resources, (resourceNames resources).reverse⟩
      ⟨statuses resources, (resourceNames resources).reverse⟩ := by
  have hnone (d n : String) (hkeep : keep d = false) : (statuses resources).get? d ≠ some n := by
    intro hn
    cases (hlent d n hn).symm.trans hkeep
  constructor
  · exact fun _ _ => rfl
  · exact fun _ _ hn => hn
  · exact fun d n hkeep hn => absurd hn (hnone d n hkeep)
  · exact fun n => (or_iff_left fun ⟨d, hkeep, hn⟩ => hnone d n hkeep hn).symm
  · exact fun n hn => .inl (List.mem_reverse.1 hn)

/-- Catalogs with the same schemas give the same names to definitions, if some of these come in the
same order in both and all others are unrivalled. -/
theorem naming_agree (hget : ∀ d, catalog.get? d = catalog'.get? d)
    (horder : catalog.names.filter keep = catalog'.names.filter keep)
    (hlent : ∀ d n, (statuses resources).get? d = some n → keep d = true)
    (hunrivalled : ∀ d, NamedAfterItself catalog resources d → keep d = false →
      Unrivalled catalog resources d) :
    (∀ d, (Naming.of catalog resources).types.get? d =
        (Naming.of catalog' resources).types.get? d) ∧
      ∀ n, n ∈ (Naming.of catalog resources).taken ↔ n ∈ (Naming.of catalog' resources).taken := by
  -- Both namings are compared with that of the kept definitions, which come in the same order.
  have hbeside := (beside_statuses catalog hlent).foldl hunrivalled catalog.entries
    fun x hx => Table.get?_eq_some_iff.2 hx
  have hbeside' := (beside_statuses catalog hlent).foldl hunrivalled catalog'.entries
    fun x hx => (hget x.1).trans (Table.get?_eq_some_iff.2 hx)
  rw [← Table.filter_entries_congr hget horder] at hbeside'
  -- A definition that is not kept has its own name on both sides, if it has one.
  have hother {d n : String} (hkeep : keep d = false) :
      (Naming.of catalog resources).types.get? d = some n ↔
        (Naming.of catalog' resources).types.get? d = some n := by
    constructor
    · -- The catalogs have the same schemas, so the definition needs a name on the other side too.
      -- There it has its own name as well.
      intro hn
      obtain ⟨rfl, ⟨schema, hschema, hnamed⟩, -⟩ := hbeside.own d n hkeep hn
      obtain ⟨m, hm⟩ := exists_name_of_isNamed ((hget d).symm.trans hschema) hnamed resources
      exact (hbeside'.own d m hkeep hm).1 ▸ hm
    · intro hn
      obtain ⟨rfl, ⟨schema, hschema, hnamed⟩, -⟩ := hbeside'.own d n hkeep hn
      obtain ⟨m, hm⟩ := exists_name_of_isNamed hschema hnamed resources
      exact (hbeside.own d m hkeep hm).1 ▸ hm
  refine ⟨fun d => ?_, fun n => ?_⟩
  · -- A kept definition has the name it has among the kept ones alone.
    cases hkeep : keep d with
    | true => exact (hbeside.same d hkeep).trans (hbeside'.same d hkeep).symm
    | false => exact Option.ext fun n => hother hkeep
  · refine (hbeside.taken n).trans (Iff.trans ?_ (hbeside'.taken n).symm)
    exact or_congr_right (exists_congr fun d => and_congr_right fun hkeep => hother hkeep)

end ControllerTypes.Naming
