import ControllerTypes.Proofs.TypeDef.Leads
import ControllerTypes.Proofs.TypeDef.Naming

/-!
# `ControllerTypes.Proofs.TypeDef.Sound`: no name is written twice

The walk keeps three lists of names: the names that are taken, the names of the types that were
written, and the names of the types that are being written. `Walk.Sound` says how they hang together
between any two calls, and `Leads.sound` that every call keeps it so.

* A call only adds to what there is (`Leads.extends`).
* A type that is being written was not written before, and its name is taken, so no object without a
  name comes by it.
* A call writes names of definitions, names nobody had taken, and the name it was asked to write
  (`Leads.done_cases`). That keeps the states of resources apart from all that was written
  before them.

`extract_invariant` hands the invariant to the walk from its roots: what every root preserves holds
of the types of a package.
-/

set_option autoImplicit false

namespace ControllerTypes.TypeDef

open Name

variable {catalog : Catalog} {naming : Naming} {p : Place} {call : Call} {w w' : Walk}

/-! ### A call only adds -/

/-- The state has everything that an earlier one had. -/
structure Walk.Extends (w w' : Walk) : Prop where
  written : w.written <+: w'.written
  done : ∀ n ∈ w.done, n ∈ w'.done
  taken : ∀ n ∈ w.taken, n ∈ w'.taken

namespace Walk.Extends

/-- A state has what it has. -/
theorem refl (w : Walk) : w.Extends w :=
  ⟨List.prefix_rfl, fun _ h => h, fun _ h => h⟩

/-- What an earlier state had is still there in a later one. -/
theorem trans {w₁ w₂ w₃ : Walk} (h : w₁.Extends w₂) (h' : w₂.Extends w₃) : w₁.Extends w₃ where
  written := h.written.trans h'.written
  done := fun n hn => h'.done n (h.done n hn)
  taken := fun n hn => h'.taken n (h.taken n hn)

/-- A type that is written is added to the others. -/
theorem add (w : Walk) (t : TypeDef) : w.Extends (w.add t) where
  written := List.prefix_append _ _
  done := fun _ hn => List.mem_cons_of_mem _ hn
  taken := fun _ hn => hn

/-- So is a name that is taken. -/
theorem take (w : Walk) (name : String) : w.Extends { w with taken := name :: w.taken } where
  written := List.prefix_rfl
  done := fun _ hn => hn
  taken := fun _ hn => List.mem_cons_of_mem _ hn

end Walk.Extends

/-- Every call only adds to the state. -/
theorem Leads.extends (h : Leads catalog naming p call w w') : w.Extends w' := by
  -- Only `struct` and `enumeration` write, and only `lifted` takes a name.
  induction h with
  | within | done | nil | primitive => exact .refl _
  | enter _ _ _ _ _ ih | array _ ih | map _ ih | named _ _ _ ih | passed _ _ _ _ _ ih => exact ih
  | struct _ ih => exact ih.trans (.add _ _)
  | enumeration => exact .add _ _
  | cons _ _ ihtype ihrest => exact ihtype.trans ihrest
  | lifted _ _ ih => exact (Walk.Extends.take _ _).trans ih

/-- A root only adds to the state. -/
theorem Root.extends {root : Root} (h : root.Leads catalog naming w w') : w.Extends w' := by
  cases root with
  | definition d =>
    obtain ⟨_, hvisit⟩ := h
    exact hvisit.extends
  | status r => exact TypeDef.Leads.extends h

/-- And so do all roots. -/
theorem LeadsAll.extends {roots : List Root} (h : LeadsAll catalog naming roots w w') :
    w.Extends w' := by
  induction h with
  | nil => exact .refl _
  | cons hroot _ ih => exact (Root.extends hroot).trans ih

/-! ### The names of a state -/

/-- The names of a state fit together, while the types `within` are being written. -/
structure Walk.Sound (naming : Naming) (within : List String) (w : Walk) : Prop where
  done_eq : w.done = (w.written.map TypeDef.name).reverse
  nodup : w.done.Nodup
  apart : ∀ n ∈ within, n ∉ w.done
  taken_done : ∀ n ∈ w.done, n ∈ w.taken
  taken_within : ∀ n ∈ within, n ∈ w.taken
  /-- What was taken at the start stays so. -/
  taken_naming : ∀ n ∈ naming.taken, n ∈ w.taken

namespace Walk.Sound

variable {within : List String} {name : String}

/-- The names that are done are those of the types that were written. -/
theorem mem_done (h : w.Sound naming within) {n : String} :
    n ∈ w.done ↔ ∃ t ∈ w.written, t.name = n := by
  rw [h.done_eq, List.mem_reverse, List.mem_map]

/-- No two types that were written share a name. -/
theorem nodup_written (h : w.Sound naming within) : (w.written.map TypeDef.name).Nodup := by
  have hnodup := h.nodup
  rwa [h.done_eq, List.nodup_reverse] at hnodup

/-- One more type is being written. -/
theorem enter (h : w.Sound naming within) (hdone : name ∉ w.done) (htaken : name ∈ w.taken) :
    w.Sound naming (name :: within) where
  done_eq := h.done_eq
  nodup := h.nodup
  apart := List.forall_mem_cons.2 ⟨hdone, h.apart⟩
  taken_done := h.taken_done
  taken_within := List.forall_mem_cons.2 ⟨htaken, h.taken_within⟩
  taken_naming := h.taken_naming

/-- A new name is taken. -/
theorem take (h : w.Sound naming within) :
    Walk.Sound naming within { w with taken := name :: w.taken } where
  done_eq := h.done_eq
  nodup := h.nodup
  apart := h.apart
  taken_done := fun n hn => List.mem_cons_of_mem _ (h.taken_done n hn)
  taken_within := fun n hn => List.mem_cons_of_mem _ (h.taken_within n hn)
  taken_naming := fun n hn => List.mem_cons_of_mem _ (h.taken_naming n hn)

/-- The innermost of the types that are being written is finished. -/
theorem add {t : TypeDef} (h : w.Sound naming (t.name :: within)) (hname : t.name ∉ within) :
    (w.add t).Sound naming within where
  done_eq := by
    rw [Walk.done_add, Walk.written_add, List.map_append, List.reverse_append, h.done_eq]
    rfl
  nodup := List.nodup_cons.2 ⟨h.apart t.name List.mem_cons_self, h.nodup⟩
  apart := by
    intro n hn
    rw [Walk.done_add, List.mem_cons]
    -- The finished type is not among those that are still being written, and these were not written
    -- before.
    rintro (rfl | hdone)
    · exact hname hn
    · exact h.apart n (List.mem_cons_of_mem _ hn) hdone
  taken_done := List.forall_mem_cons.2
    ⟨h.taken_within t.name List.mem_cons_self, h.taken_done⟩
  taken_within := fun n hn => h.taken_within n (List.mem_cons_of_mem _ hn)
  taken_naming := h.taken_naming

end Walk.Sound

/-! ### Every call keeps the names sound -/

/-- The types that are still being written when the call is over: `emit` finishes the innermost. -/
def Call.left : Call → List String → List String
  | emit .., within => within.tail
  | _, within => within

/-- The call fits its place: `emit` writes the innermost of the types that are being written, and if
a definition has the name of that type, it writes what the definition stands for. -/
def Call.Fits (catalog : Catalog) (naming : Naming) : Call → List String → Prop
  | emit name _ schema, within =>
    (∃ outer, within = name :: outer ∧ name ∉ outer) ∧
    ∀ d, naming.types.get? d = some name → catalog.target? d = some schema
  | _, _ => True

/-- The call that a visit makes fits. -/
theorem fits_enter (hn : naming.Proper) {d name : String} {schema : Schema}
    (hname : naming.types.get? d = some name) (hwithin : name ∉ p.within)
    (htarget : catalog.target? d = some schema) :
    (Call.emit name d schema).Fits catalog naming (p.enter name).within := by
  refine ⟨⟨p.within, rfl, hwithin⟩, ?_⟩
  -- No other definition has the name, so what is written is what that definition stands for.
  intro d' hname'
  rw [hn.injective hname' hname]
  exact htarget

/-- A lifted name is new. -/
theorem liftedName_not_mem (w : Walk) (owner field : String) :
    (liftedName w owner field).1 ∉ w.taken :=
  takeName_fst_not_mem _ _ _

/-- The call that writes an object without a name fits. -/
theorem fits_lift (hn : naming.Proper) (hs : w.Sound naming p.within)
    (owner field source : String) (schema : Schema) :
    (Call.emit (liftedName w owner field).1 source schema).Fits catalog naming
      (p.lift (liftedName w owner field).1).within := by
  have hnew := liftedName_not_mem w owner field
  refine ⟨⟨p.within, rfl, fun hmem => hnew (hs.taken_within _ hmem)⟩, ?_⟩
  -- No definition has a name that is new.
  intro d hname
  exact absurd (hs.taken_naming _ (hn.taken _ (naming.mem_names hname))) hnew

/-- The state in which an object without a name is written is sound. -/
theorem Walk.Sound.lift (hs : w.Sound naming p.within) (owner field : String) :
    Walk.Sound naming (p.lift (liftedName w owner field).1).within
      { w with taken := (liftedName w owner field).2 } :=
  hs.take.enter (fun hdone => liftedName_not_mem w owner field (hs.taken_done _ hdone))
    List.mem_cons_self

/-- The state in which a definition is written is sound. -/
theorem Walk.Sound.enterNamed (hs : w.Sound naming p.within) (hn : naming.Proper) {d name : String}
    (hname : naming.types.get? d = some name) (hdone : name ∉ w.done) :
    w.Sound naming (p.enter name).within :=
  hs.enter hdone (hs.taken_naming _ (hn.taken _ (naming.mem_names hname)))

/-- Every call keeps the names sound. -/
theorem Leads.sound (hn : naming.Proper) (h : Leads catalog naming p call w w')
    (hs : w.Sound naming p.within) (hfits : call.Fits catalog naming p.within) :
    w'.Sound naming (call.left p.within) := by
  -- The names change in three places: a type is entered, a name is lifted, and a type is finished.
  induction h with
  | within | done | nil | primitive => exact hs
  | enter hname hwithin hdone htarget _ ih =>
    exact ih (hs.enterNamed hn hname hdone) (fits_enter hn hname hwithin htarget)
  -- The struct was the innermost type that was being written, and is the next one that is done.
  | struct _ ih =>
    obtain ⟨⟨outer, hwithin, hnew⟩, _⟩ := hfits
    have hs' := ih hs trivial
    simp only [Call.left, hwithin, List.tail_cons] at hs' ⊢
    exact hs'.add hnew
  | enumeration =>
    obtain ⟨⟨outer, hwithin, hnew⟩, _⟩ := hfits
    rw [hwithin] at hs
    rw [Call.left, hwithin]
    exact hs.add hnew
  | cons _ _ ihtype ihrest => exact ihrest (ihtype hs trivial) trivial
  | array _ ih | map _ ih | named _ _ _ ih | passed _ _ _ _ _ ih => exact ih hs trivial
  | lifted _ _ ih => exact ih (hs.lift _ _) (fits_lift hn hs _ _ _ _)

/-! ### Where the names come from -/

/-- The call is asked to write a type of this name. -/
def Call.Emits (n : String) : Call → Prop
  | emit name _ _ => n = name
  | _ => False

/-- What a call writes is the type of a definition, has a name that is new, or was asked for. -/
theorem Leads.done_cases (h : Leads catalog naming p call w w') {n : String} (hn : n ∈ w'.done) :
    n ∈ w.done ∨ n ∈ naming.names ∨ n ∉ w.taken ∨ call.Emits n := by
  induction h with
  | within | done | nil | primitive => exact .inl hn
  -- A definition is entered under its own name, so what was asked for inside is the name of a
  -- definition.
  | enter hname _ _ _ _ ih =>
    rcases ih hn with h | h | h | rfl
    · exact .inl h
    · exact .inr (.inl h)
    · exact .inr (.inr (.inl h))
    · exact .inr (.inl (naming.mem_names hname))
  | struct _ ih =>
    rcases List.mem_cons.1 hn with rfl | hn
    · exact .inr (.inr (.inr rfl))
    · rcases ih hn with h | h | h | h
      · exact .inl h
      · exact .inr (.inl h)
      · exact .inr (.inr (.inl h))
      · exact h.elim
  | enumeration =>
    rcases List.mem_cons.1 hn with rfl | hn
    · exact .inr (.inr (.inr rfl))
    · exact .inl hn
  -- A name that is new to the later fields is new to the first one as well, which takes none back.
  | cons htype _ ihtype ihrest =>
    rcases ihrest hn with h | h | h | h
    · exact ihtype h
    · exact .inr (.inl h)
    · exact .inr (.inr (.inl fun htaken => h (htype.extends.taken n htaken)))
    · exact h.elim
  | array _ ih | map _ ih | named _ _ _ ih | passed _ _ _ _ _ ih => exact ih hn
  -- The name that was asked for inside was lifted, so it is new.
  | @lifted _ _ _ _ _ w _ _ _ ih =>
    rcases ih hn with h | h | h | rfl
    · exact .inl h
    · exact .inr (.inl h)
    · exact .inr (.inr (.inl fun htaken => h (List.mem_cons_of_mem _ htaken)))
    · exact .inr (.inr (.inl (liftedName_not_mem w _ _)))

/-! ### From the roots to the end -/

/-- The name of the status that the root writes. -/
def Root.statusType? : Root → Option String
  | definition _ => none
  | status r => some r.statusType

/-- The root for a definition writes no status. -/
@[simp] theorem Root.statusType?_definition (d : String) :
    (Root.definition d).statusType? = none := rfl

/-- The root for a status writes that of its resource. -/
@[simp] theorem Root.statusType?_status (r : Resource) :
    (Root.status r).statusType? = some r.statusType := rfl

/-- The status a root writes was not written before, and no definition has its name. -/
def Fresh (naming : Naming) (w : Walk) (statusType : String) : Prop :=
  statusType ∉ w.done ∧ statusType ∈ naming.taken ∧ statusType ∉ naming.names

/-- A root makes one call, which fits, leaves no type behind that is being written, and answers a
name that was taken from the start. It is made inside of no definition. -/
theorem Root.exists_call {root : Root}
    (h : root.Leads catalog naming w w') (hs : w.Sound naming [])
    (hfresh : ∀ s, root.statusType? = some s → Fresh naming w s) :
    ∃ p call, TypeDef.Leads catalog naming p call w w' ∧ w.Sound naming p.within ∧
      call.Fits catalog naming p.within ∧ call.left p.within = [] ∧
      (∀ n, call.Emits n → root.statusType? = some n) ∧
      (∀ r ∈ call.references, r.1 ∈ naming.names ∨ root.statusType? = some r.1) ∧
      p.aliases = [] := by
  cases root with
  | definition d =>
    obtain ⟨name, hvisit⟩ := h
    refine ⟨_, _, hvisit, hs, trivial, rfl, fun _ hemits => hemits.elim, ?_, rfl⟩
    intro r hr
    rw [List.mem_singleton.1 hr]
    exact .inl (naming.mem_names hvisit.get?_of_visit)
  | status r =>
    -- The status is written at a place of its own, which is sound since its name is fresh.
    obtain ⟨hdone, htaken, hunnamed⟩ := hfresh _ rfl
    refine ⟨_, _, h, hs.enter hdone (hs.taken_naming _ htaken), ?_, rfl, ?_, ?_, rfl⟩
    · refine ⟨⟨[], rfl, List.not_mem_nil⟩, ?_⟩
      intro d hname
      exact absurd (naming.mem_names hname) hunnamed
    · rintro n rfl
      rfl
    · intro r' hr'
      rw [List.mem_singleton.1 hr']
      exact .inr rfl

/-- What every root preserves holds when all roots are done. -/
theorem LeadsAll.invariant {I : Walk → Prop} (hn : naming.Proper) {roots : List Root}
    (step : ∀ root ∈ roots, ∀ w w', root.Leads catalog naming w w' → w.Sound naming [] →
      (∀ s, root.statusType? = some s → Fresh naming w s) → I w → I w')
    (h : LeadsAll catalog naming roots w w') (hs : w.Sound naming [])
    (hfresh : ∀ s ∈ roots.filterMap Root.statusType?, Fresh naming w s)
    (hnodup : (roots.filterMap Root.statusType?).Nodup) (hI : I w) :
    w'.Sound naming [] ∧ I w' := by
  induction h with
  | nil => exact ⟨hs, hI⟩
  | @cons root rest w w₁ w' hroot _ ih =>
    have hroot_fresh (s : String) (hsome : root.statusType? = some s) : Fresh naming w s := by
      apply hfresh
      rw [List.filterMap_cons, hsome]
      exact List.mem_cons_self
    -- The state behind the first root is sound again, since its one call leaves nothing in the
    -- making.
    obtain ⟨p, call, hleads, hsound, hfits, hleft, hemits, _⟩ :=
      Root.exists_call hroot hs hroot_fresh
    have hs₁ : w₁.Sound naming [] := hleft ▸ hleads.sound hn hsound hfits
    have hsublist := (List.sublist_cons_self root rest).filterMap Root.statusType?
    apply ih (fun root hmem => step root (List.mem_cons_of_mem _ hmem)) hs₁ ?_
      (hsublist.nodup hnodup) (step root List.mem_cons_self w w₁ hroot hs hroot_fresh hI)
    -- The status of a later root is not among what this root wrote.
    intro s hmem
    obtain ⟨hdone, htaken, hunnamed⟩ := hfresh s (hsublist.subset hmem)
    refine ⟨?_, htaken, hunnamed⟩
    intro hdone₁
    rcases hleads.done_cases hdone₁ with hold | hname | hnew | hself
    · exact hdone hold
    · exact hunnamed hname
    · exact hnew (hs.taken_naming s htaken)
    · rw [List.filterMap_cons, hemits s hself, List.nodup_cons] at hnodup
      exact hnodup.1 hmem

/-- The walk starts soundly. -/
theorem sound_start (naming : Naming) : Walk.Sound naming [] { taken := naming.taken } where
  done_eq := rfl
  nodup := List.nodup_nil
  apart := by simp
  taken_done := by simp
  taken_within := by simp
  taken_naming := fun _ h => h

section
variable {resources : List Resource} {types : List TypeDef}

/-- The roots for the specs and the states of resources. -/
def resourceRoots (naming : Naming) (resources : List Resource) : List Root :=
  resources.flatMap fun r => [.definition r.schemaName, statusRoot naming r]

/-- The resources come first. -/
theorem roots_eq (catalog : Catalog) (naming : Naming) (resources : List Resource) :
    roots catalog naming resources = resourceRoots naming resources ++
      (catalog.entries.filter fun x => x.2.isNamed).map fun x => .definition x.1 :=
  rfl

/-- Only the resources of the roots have statuses of their own. -/
theorem statusTypes_resourceRoots (naming : Naming) (resources : List Resource) :
    (resourceRoots naming resources).filterMap Root.statusType? =
      resources.filterMap fun r => (statusRoot naming r).statusType? := by
  induction resources with
  | nil => rfl
  | cons r rest ih =>
    rw [resourceRoots, List.flatMap_cons, List.filterMap_append, ← resourceRoots, ih]
    cases hstatus : (statusRoot naming r).statusType? <;> simp [List.filterMap_cons, hstatus]

/-- The roots for definitions write no statuses, so these are left out of the list. -/
theorem statusTypes_roots (catalog : Catalog) (naming : Naming) (resources : List Resource) :
    (roots catalog naming resources).filterMap Root.statusType? =
      resources.filterMap fun r => (statusRoot naming r).statusType? := by
  have hdefinitions : ((catalog.entries.filter fun x => x.2.isNamed).map
      fun x => Root.definition x.1).filterMap Root.statusType? = [] := by
    rw [List.filterMap_map, List.filterMap_eq_nil_iff]
    intro x _
    rfl
  rw [roots_eq, List.filterMap_append, statusTypes_resourceRoots, hdefinitions, List.append_nil]

/-- A root that writes a status writes that of its resource, and no definition has its name. -/
theorem statusType?_statusRoot {naming : Naming} {r : Resource} {s : String}
    (h : (statusRoot naming r).statusType? = some s) :
    s = r.statusType ∧
      ∀ d, r.statusSchemaName = some d → naming.types.get? d ≠ some r.statusType := by
  unfold statusRoot at h
  -- If the definition of the status goes by the name of the status, the root is that definition,
  -- which writes no status of its own.
  split at h
  · next d hname =>
    split at h
    · cases h
    · next hne =>
      cases h
      refine ⟨rfl, ?_⟩
      intro d' hname'
      rw [hname] at hname'
      cases hname'
      exact hne
  · next hname =>
    cases h
    refine ⟨rfl, ?_⟩
    intro d hname'
    rw [hname] at hname'
    cases hname'

/-- No two roots write the same status. -/
theorem nodup_statusTypes (hx : AllExtracted catalog resources) (naming : Naming) :
    (resources.filterMap fun r => (statusRoot naming r).statusType?).Nodup := by
  -- The kinds of resources are distinct, and the names of their states with them.
  have hpairs : resources.Pairwise fun r s => r.statusType ≠ s.statusType := by
    refine (List.pairwise_map.1 hx.kinds).imp_of_mem ?_
    intro r s hr hs hkind htype
    exact hkind (by rw [hx.eq_of_statusType hr hs htype])
  rw [List.Nodup, List.pairwise_filterMap]
  refine hpairs.imp ?_
  intro r s hne t ht u hu
  rw [(statusType?_statusRoot ht).1, (statusType?_statusRoot hu).1]
  exact hne

/-- No status with a root of its own was written before the first root. -/
theorem fresh_start (hx : AllExtracted catalog resources) {s : String}
    (h : s ∈ resources.filterMap fun r => (statusRoot (.of catalog resources) r).statusType?) :
    Fresh (.of catalog resources) { taken := (Naming.of catalog resources).taken } s := by
  obtain ⟨r, hr, hstatus⟩ := List.mem_filterMap.1 h
  -- The name is taken from the start, and no definition goes by it: the only one that could is that
  -- of the status.
  obtain ⟨rfl, hunclaimed⟩ := statusType?_statusRoot hstatus
  refine ⟨List.not_mem_nil, ?_, ?_⟩
  · exact (Naming.grown_of hx).taken _ (List.mem_flatMap.2 ⟨r, hr, by simp⟩)
  · intro hname
    obtain ⟨d, hget⟩ := Naming.mem_names_iff.1 hname
    exact hunclaimed d (Naming.statusType_of_mem_names hx hr hget) hget

/-- What every root preserves holds of the types of a package, and of the state they were taken
from. -/
theorem extract_invariant {I : Walk → Prop} (hx : AllExtracted catalog resources)
    (h : extract catalog resources = .ok types)
    (step : ∀ root ∈ roots catalog (.of catalog resources) resources, ∀ w w',
      root.Leads catalog (.of catalog resources) w w' →
      w.Sound (.of catalog resources) [] →
      (∀ s, root.statusType? = some s → Fresh (.of catalog resources) w s) → I w → I w')
    (hI : I { taken := (Naming.of catalog resources).taken }) :
    ∃ w, w.written = types ∧
      LeadsAll catalog (.of catalog resources) (roots catalog (.of catalog resources) resources)
        { taken := (Naming.of catalog resources).taken } w ∧
      w.Sound (.of catalog resources) [] ∧ I w := by
  -- The types are those of the state behind all roots, and the roots keep `I` one by one.
  obtain ⟨w, hleads, hwritten⟩ := leadsAll_of_extract h
  have hn := Naming.proper_of hx
  refine ⟨w, hwritten, hleads, hleads.invariant hn step (sound_start _) ?_ ?_ hI⟩
  · rw [statusTypes_roots]
    exact fun s hmem => fresh_start hx hmem
  · rw [statusTypes_roots]
    exact nodup_statusTypes hx _

end

end ControllerTypes.TypeDef
