import ControllerTypes.Proofs.Name.Taken
import ControllerTypes.Proofs.TypeDef.Leads

/-!
# `ControllerTypes.Proofs.TypeDef.Lockstep`: walks that see the same

A walk sees its catalog and its naming by lookups only, and of the names that are taken it sees
which these are. So two walks that start from the same roots write the same types, if their catalogs
and namings answer the same (`Alike`) and the same names are taken (`Walk.Alike`). The order of the
catalog does not matter to them. `Leads.agree` says this of one call, and `LeadsAll.agree` of all
roots.
-/

set_option autoImplicit false

namespace ControllerTypes.TypeDef

open Name

variable {catalog catalog' : Catalog} {naming naming' : Naming} {p : Place} {call call' : Call}
  {w w' v v' : Walk}

/-- Catalogs and namings that answer the same. -/
structure Alike (catalog catalog' : Catalog) (naming naming' : Naming) : Prop where
  get : ∀ d, catalog.get? d = catalog'.get? d
  target : ∀ d, catalog.target? d = catalog'.target? d
  name : ∀ d, naming.types.get? d = naming'.types.get? d

/-- Being alike goes both ways. -/
theorem Alike.symm (h : Alike catalog catalog' naming naming') :
    Alike catalog' catalog naming' naming :=
  ⟨fun d => (h.get d).symm, fun d => (h.target d).symm, fun d => (h.name d).symm⟩

/-- The same was written, and the same names are taken. -/
structure Walk.Alike (w v : Walk) : Prop where
  done : w.done = v.done
  written : w.written = v.written
  taken : ∀ n, n ∈ w.taken ↔ n ∈ v.taken

namespace Walk.Alike

/-- The same type is written in both. -/
theorem add (h : w.Alike v) (t : TypeDef) : (w.add t).Alike (v.add t) where
  done := congrArg (t.name :: ·) h.done
  written := congrArg (· ++ [t]) h.written
  taken := h.taken

/-- A type that is found in a field gets the same name in both. -/
theorem liftedName_eq (h : w.Alike v) (owner field : String) :
    (liftedName w owner field).1 = (liftedName v owner field).1 :=
  takeName_congr fun n _ => h.taken n

/-- The name of a type that is found in a field is taken in both. -/
theorem lift (h : w.Alike v) (owner field : String) :
    Walk.Alike { w with taken := (liftedName w owner field).2 }
      { v with taken := (liftedName v owner field).2 } where
  done := h.done
  written := h.written
  taken := fun n => by
    -- The lifted name is the only one that is added, and it is the same in both.
    have hmem (w : Walk) : n ∈ (liftedName w owner field).2 ↔
        n = (liftedName w owner field).1 ∨ n ∈ w.taken := List.mem_cons
    rw [hmem w, hmem v, h.liftedName_eq, h.taken n]

end Walk.Alike

/-- The two calls have the same arguments. -/
inductive Call.Same : Call → Call → Prop where
  | visit {d name name' : String} {backward backward' : Bool} :
      Same (.visit d name backward) (.visit d name' backward')
  | emit {name source : String} {schema : Schema} :
      Same (.emit name source schema) (.emit name source schema)
  | fields {owner source : String} {identifiers : List String} {fields : List (Field Schema)}
      {definitions definitions' : List FieldDefinition} :
      Same (.fields owner source identifiers fields definitions)
        (.fields owner source identifiers fields definitions')
  | type {owner source field : String} {schema : Schema} {type type' : FieldType}
      {indirect indirect' : Bool} :
      Same (.type owner source field schema type indirect)
        (.type owner source field schema type' indirect')

/-- Calls with the same arguments answer the same and write the same, if all they look up is the
same. -/
theorem Leads.agree (ha : Alike catalog catalog' naming naming')
    (h : Leads catalog naming p call w w') (h' : Leads catalog' naming' p call' v v')
    (hsame : call.Same call') (hw : w.Alike v) : call = call' ∧ w'.Alike v' := by
  -- The rules of the two walks are determined by the call and by what is looked up, so both sides
  -- use the same rule. The induction is on the first walk, and each case rules out the other rules
  -- of the second.
  induction h generalizing call' v v' with
  | within hname hwithin =>
    cases hsame
    obtain rfl := Option.some.inj (hname.symm.trans ((ha.name _).trans h'.get?_of_visit))
    cases h' with
    | within => exact ⟨rfl, hw⟩
    | done _ hnot | enter _ hnot => exact absurd hwithin hnot
  | done hname hwithin hdone =>
    cases hsame
    obtain rfl := Option.some.inj (hname.symm.trans ((ha.name _).trans h'.get?_of_visit))
    cases h' with
    | within _ hin => exact absurd hin hwithin
    | done => exact ⟨rfl, hw⟩
    | enter _ _ hnot => exact absurd (hw.done ▸ hdone) hnot
  -- Whether a type is entered depends on what was written, which is the same on both sides.
  | enter hname hwithin hdone htarget _ ih =>
    cases hsame
    obtain rfl := Option.some.inj (hname.symm.trans ((ha.name _).trans h'.get?_of_visit))
    cases h' with
    | within _ hin => exact absurd hin hwithin
    | done _ _ hin => exact absurd (hw.done ▸ hin) hdone
    | enter _ _ _ htarget' hemit' =>
      cases htarget.symm.trans ((ha.target _).trans htarget')
      exact ⟨rfl, (ih hemit' .emit hw).2⟩
  | struct _ ih =>
    cases hsame
    cases h' with
    | struct hfields' =>
      obtain ⟨heq, hw'⟩ := ih hfields' .fields hw
      cases heq
      exact ⟨rfl, hw'.add _⟩
  | enumeration =>
    cases hsame
    cases h'
    exact ⟨rfl, hw.add _⟩
  | nil =>
    cases hsame
    cases h'
    exact ⟨rfl, hw⟩
  | cons _ _ ihtype ihrest =>
    cases hsame
    cases h' with
    | cons htype' hrest' =>
      obtain ⟨heq, hw₁⟩ := ihtype htype' .type hw
      cases heq
      obtain ⟨heq, hw'⟩ := ihrest hrest' .fields hw₁
      cases heq
      exact ⟨rfl, hw'⟩
  | primitive =>
    cases hsame
    cases h' with
    | primitive => exact ⟨rfl, hw⟩
    | lifted hnamed => cases hnamed
  | array _ ih =>
    cases hsame
    cases h' with
    | array helement' =>
      obtain ⟨heq, hw'⟩ := ih helement' .type hw
      cases heq
      exact ⟨rfl, hw'⟩
    | lifted hnamed => cases hnamed
  | map _ ih =>
    cases hsame
    cases h' with
    | map helement' =>
      obtain ⟨heq, hw'⟩ := ih helement' .type hw
      cases heq
      exact ⟨rfl, hw'⟩
    | lifted hnamed => cases hnamed
  -- Whether a definition is a type is a matter of the catalog, and both catalogs say the same.
  | named hget hnamed _ ih =>
    cases hsame
    cases h' with
    | named _ _ hvisit' =>
      obtain ⟨heq, hw'⟩ := ih hvisit' .visit hw
      cases heq
      exact ⟨rfl, hw'⟩
    | passed hget' hnamed' =>
      cases hget.symm.trans ((ha.get _).trans hget')
      cases hnamed.symm.trans hnamed'
    | lifted hnamed' => cases hnamed'
  | passed hget hnamed _ _ _ ih =>
    cases hsame
    cases h' with
    | named hget' hnamed' =>
      cases hget.symm.trans ((ha.get _).trans hget')
      cases hnamed.symm.trans hnamed'
    | passed hget' _ _ _ htype' =>
      cases hget.symm.trans ((ha.get _).trans hget')
      obtain ⟨heq, hw'⟩ := ih htype' .type hw
      cases heq
      exact ⟨rfl, hw'⟩
    | lifted hnamed' => cases hnamed'
  -- The lifted name is the same, since the same names are taken.
  | lifted hnamed _ ih =>
    cases hsame
    cases h' with
    | primitive | array | map | named | passed => cases hnamed
    | lifted _ hemit' =>
      rw [← hw.liftedName_eq] at hemit' ⊢
      exact ⟨rfl, (ih hemit' .emit (hw.lift _ _)).2⟩

/-! ### All roots -/

/-- The same root writes the same. -/
theorem Root.agree (ha : Alike catalog catalog' naming naming') {root : Root}
    (h : root.Leads catalog naming w w') (h' : root.Leads catalog' naming' v v')
    (hw : w.Alike v) : w'.Alike v' := by
  cases root with
  | definition d =>
    obtain ⟨name, hvisit⟩ := h
    obtain ⟨name', hvisit'⟩ := h'
    exact (hvisit.agree ha hvisit' .visit hw).2
  | status r => exact (TypeDef.Leads.agree ha h h' .emit hw).2

/-- The same roots write the same. -/
theorem LeadsAll.agree (ha : Alike catalog catalog' naming naming') {roots : List Root}
    (h : LeadsAll catalog naming roots w w') (h' : LeadsAll catalog' naming' roots v v')
    (hw : w.Alike v) : w'.Alike v' := by
  induction h generalizing v with
  | nil =>
    cases h'
    exact hw
  | cons hroot _ ih =>
    cases h' with
    | cons hroot' hrest' => exact ih hrest' (Root.agree ha hroot hroot' hw)

/-- The status of a resource has the same root. -/
theorem statusRoot_congr (hname : ∀ d, naming.types.get? d = naming'.types.get? d) (r : Resource) :
    statusRoot naming r = statusRoot naming' r := by
  unfold statusRoot
  split
  · rw [hname]
  · rfl

end ControllerTypes.TypeDef
