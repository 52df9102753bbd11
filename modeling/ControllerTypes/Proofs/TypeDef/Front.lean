import ControllerTypes.Proofs.TypeDef.Mirror

/-!
# `ControllerTypes.Proofs.TypeDef.Front`: the types of the resources come first

The walk over types starts at the resources. What it has written when it is done with them are the
types that a spec or a status needs, and no others: each of them is reached from a spec or a status,
and their fields refer to no type that is written later. `exists_front` says that the types which
are needed are the first ones, and that the resources alone lead to them.
-/

set_option autoImplicit false

namespace ControllerTypes.TypeDef

variable {catalog : Catalog} {naming : Naming} {resources : List Resource} {types : List TypeDef}
  {w w' : Walk}

/-- The spec or the status of a resource reaches the type. -/
def Needed (resources : List Resource) (types : List TypeDef) (t : TypeDef) : Prop :=
  ∃ r ∈ resources, Reaches types r.specType t.name ∨ Reaches types r.statusType t.name

/-- More types leave what is needed. -/
theorem Needed.mono {types' : List TypeDef} {t : TypeDef} (h : Needed resources types t)
    (hsub : types ⊆ types') : Needed resources types' t := by
  obtain ⟨r, hr, hpath⟩ := h
  exact ⟨r, hr, hpath.imp (·.mono hsub) (·.mono hsub)⟩

/-- A path of references does not leave types that are in order. -/
theorem Ordered.mem_names {front rest : List TypeDef} (h : Ordered [] front)
    (hnodup : ((front ++ rest).map TypeDef.name).Nodup) {a b : String}
    (hpath : Reaches (front ++ rest) a b) (ha : a ∈ front.map TypeDef.name) :
    b ∈ front.map TypeDef.name := by
  induction hpath with
  | refl => exact ha
  | tail _ hstep ih =>
    obtain ⟨t, ht, rfl, f, hf, href⟩ := hstep
    obtain ⟨u, hu, hname⟩ := List.mem_map.1 ih
    obtain rfl := List.inj_on_of_nodup_map hnodup (List.mem_append_left _ hu) ht hname
    exact List.mem_map.2 (h.exists_of_reference hu hf href)

/-- What holds of the types that are written while the resources have their turns: they are in
order, and all of them are needed. -/
structure Walk.Front (resources : List Resource) (w : Walk) : Prop where
  ordered : Ordered [] w.written
  needed : ∀ t ∈ w.written, Needed resources w.written t

/-- A root of a resource is for its spec or for its status. -/
theorem type?_of_mem_resourceRoots (hx : AllExtracted catalog resources) {root : Root}
    (hroot : root ∈ resourceRoots (.of catalog resources) resources) :
    ∃ r ∈ resources, root.type? (.of catalog resources) = some r.specType ∨
      root.type? (.of catalog resources) = some r.statusType := by
  obtain ⟨r, hr, hmem⟩ := List.mem_flatMap.1 hroot
  refine ⟨r, hr, ?_⟩
  rcases List.mem_pair.1 hmem with rfl | rfl
  · exact .inl (Naming.get?_schemaName hx hr)
  · exact .inr (type?_statusRoot _ r)

/-- The turn of a resource keeps it so. -/
theorem Walk.Front.step (hx : AllExtracted catalog resources) {root : Root}
    (hroot : root ∈ resourceRoots (.of catalog resources) resources)
    (h : root.Leads catalog (.of catalog resources) w w') (hs : w.Sound (.of catalog resources) [])
    (hfresh : ∀ s, root.statusType? = some s → Fresh (.of catalog resources) w s)
    (hw : w.Front resources) : w'.Front resources := by
  obtain ⟨p, call, hleads, hsound, hfits, hleft, _⟩ := Root.exists_call h hs hfresh
  constructor
  · exact hleft ▸ hleads.ordered (Naming.proper_of hx) hsound hfits (hleft ▸ hw.ordered)
  · obtain ⟨n, added, htype, _, hwritten, hreach⟩ := Root.reaches h
    obtain ⟨r, hr, hcases⟩ := type?_of_mem_resourceRoots hx hroot
    intro t ht
    rw [hwritten, List.mem_append] at ht
    rcases ht with ht | ht
    · exact (hw.needed t ht).mono hleads.extends.written.subset
    · refine ⟨r, hr, hcases.imp (fun heq => ?_) fun heq => ?_⟩
      all_goals
        cases htype.symm.trans heq
        exact hreach t ht

open Classical in
/-- The types that are needed are those that were written when all resources had their turns. -/
theorem exists_front (hx : AllExtracted catalog resources)
    (h : extract catalog resources = .ok types) :
    ∃ w, LeadsAll catalog (.of catalog resources) (resourceRoots (.of catalog resources) resources)
        { taken := (Naming.of catalog resources).taken } w ∧
      types.filter (Needed resources types) = w.written := by
  have hn := Naming.proper_of hx
  obtain ⟨v, hwritten, hall, hv, -⟩ :=
    extract_invariant (I := fun _ => True) hx h (fun _ _ _ _ _ _ _ _ => trivial) trivial
  rw [roots_eq] at hall
  obtain ⟨w, hfront, hrest⟩ := hall.of_append
  obtain ⟨hs, hw⟩ := hfront.invariant (I := Walk.Front resources) hn
    (fun _ hroot _ _ hturn hs hfresh hw => hw.step hx hroot hturn hs hfresh) (sound_start _)
    (by rw [statusTypes_resourceRoots]; exact fun s hmem => fresh_start hx hmem)
    (by rw [statusTypes_resourceRoots]; exact nodup_statusTypes hx _)
    ⟨fun _ _ _ hsplit => by simp at hsplit, fun _ ht => nomatch ht⟩
  refine ⟨w, hfront, ?_⟩
  obtain ⟨rest, hsplit⟩ := hrest.extends.written
  have hnodup := hv.nodup_written
  rw [← hsplit] at hwritten hnodup
  subst hwritten
  -- What is needed is a type of the front, since the specs and the statuses are.
  have hneeded (t : TypeDef) (ht : Needed resources (w.written ++ rest) t) :
      t.name ∈ w.written.map TypeDef.name := by
    obtain ⟨r, hr, hpath⟩ := ht
    have hmem {root : Root} {n : String} (hroot : root ∈ [.definition r.schemaName, statusRoot _ r])
        (htype : root.type? (.of catalog resources) = some n) : n ∈ w.written.map TypeDef.name :=
      List.mem_map.2 (hs.mem_done.1
        (hfront.type_mem_done (List.mem_flatMap.2 ⟨r, hr, hroot⟩) htype))
    rcases hpath with hpath | hpath
    · exact hw.ordered.mem_names hnodup hpath
        (hmem List.mem_cons_self (Naming.get?_schemaName hx hr))
    · exact hw.ordered.mem_names hnodup hpath
        (hmem (List.mem_cons_of_mem _ List.mem_cons_self) (type?_statusRoot _ r))
  have hkeep : w.written.filter (Needed resources (w.written ++ rest)) = w.written :=
    List.filter_eq_self.2 fun t ht =>
      decide_eq_true ((hw.needed t ht).mono (List.subset_append_left _ _))
  have hdrop : rest.filter (Needed resources (w.written ++ rest)) = [] := by
    refine List.filter_eq_nil_iff.2 fun t ht => ?_
    rw [decide_eq_true_iff]
    intro hthere
    rw [List.map_append] at hnodup
    exact List.disjoint_of_nodup_append hnodup (hneeded t hthere) (List.mem_map_of_mem ht)
  rw [List.filter_append, hkeep, hdrop, List.append_nil]

end ControllerTypes.TypeDef
