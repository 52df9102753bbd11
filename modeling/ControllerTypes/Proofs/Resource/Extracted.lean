import ControllerTypes.Proofs.Resource.Kinds
import ControllerTypes.Proofs.Run

/-!
# `ControllerTypes.Proofs.Resource.Extracted`: what all resources of a run have in common

The types of a package are laid out around its resources, and the proofs about them rest on a few
facts that hold of every extraction that succeeds. A resource has an object as its spec and as its
status, each taken from the definition that is recorded for it, and its two types are named after
its kind (`Resource.Extracted`). No two resources share a kind or a definition (`AllExtracted`).
-/

set_option autoImplicit false

namespace ControllerTypes

open Name Run

/-- The parts of a resource fit the catalog it comes from. -/
structure Resource.Extracted (catalog : Catalog) (r : Resource) : Prop where
  specType_eq : r.specType = r.kind ++ "Spec"
  statusType_eq : r.statusType = r.kind ++ "Status"
  spec_eq : catalog.target? r.schemaName = some r.spec
  spec_object : ∃ fields, r.spec = .object fields
  status_object : ∃ fields, r.status = .object fields
  /-- A status that comes from a definition is what that definition stands for. -/
  status_eq : ∀ d, r.statusSchemaName = some d → catalog.target? d = some r.status
  /-- Any other status is empty. -/
  status_empty : r.statusSchemaName = none → r.status = .emptyObject

/-- All resources fit the catalog, and no two of them share a kind or a definition. -/
structure AllExtracted (catalog : Catalog) (resources : List Resource) : Prop where
  each : ∀ r ∈ resources, r.Extracted catalog
  kinds : (resources.map Resource.kind).Nodup
  definitions : (resources.map Resource.schemaName).Nodup

namespace Extraction

/-- What `specOf` answers is the object its definition stands for. -/
theorem specOf_eq_ok {catalog : Catalog} {d : String} {spec : Schema}
    (h : specOf catalog d = .ok spec) :
    catalog.target? d = some spec ∧ ∃ fields, spec = .object fields := by
  unfold specOf at h
  split at h
  · next fields htarget =>
    cases h
    exact ⟨htarget, fields, rfl⟩
  · cases h
  · cases h

/-- What `statusOf` answers is an object, and if it comes from a definition, the one which that
stands for. Otherwise it is empty. -/
theorem statusOf_spec (catalog : Catalog) (d : String) (read : Option ApiOperation) :
    (∃ fields, (statusOf catalog d read).1 = .object fields) ∧
    (∀ d', (statusOf catalog d read).2 = some d' →
      catalog.target? d' = some (statusOf catalog d read).1) ∧
    ((statusOf catalog d read).2 = none → (statusOf catalog d read).1 = .emptyObject) := by
  -- No read or no answer, a schema that is the spec itself, an object, and anything else.
  unfold statusOf
  split
  · exact ⟨⟨[], rfl⟩, by simp⟩
  · split
    · exact ⟨⟨[], rfl⟩, by simp⟩
    · split
      · next fields htarget =>
        refine ⟨⟨fields, rfl⟩, ?_, fun hnone => absurd hnone (Option.some_ne_none _)⟩
        intro d' h
        cases h
        exact htarget
      · exact ⟨⟨[], rfl⟩, by simp⟩

/-- The definition that a status comes from is what the paired `read` answers. -/
theorem answer_of_statusOf {catalog : Catalog} {d d' : String} {read : Option ApiOperation}
    (h : (statusOf catalog d read).2 = some d') :
    read.bind ApiOperation.successResponse? = some d' := by
  unfold statusOf at h
  split at h
  · cases h
  · next hanswer =>
    split at h
    · cases h
    · split at h
      · cases h
        exact hanswer
      · cases h

/-- What becomes of a definition is `Extracted`, and it is a resource of the `kind` it was given. -/
theorem resourceOf_eq_ok {catalog : Catalog} {operations : List ApiOperation} {kind d : String}
    {r : Resource} (h : resourceOf catalog operations kind d = .ok r) :
    r.Extracted catalog ∧ r.kind = kind ∧ r.schemaName = d := by
  rw [resourceOf, bind_eq_ok] at h
  obtain ⟨spec, hspec, h⟩ := h
  cases h
  obtain ⟨htarget, hobject⟩ := specOf_eq_ok hspec
  have hstatus := statusOf_spec catalog d
    (pairedRead? (operations.filter (concerns d (nouns operations d))))
  exact ⟨⟨rfl, rfl, htarget, hobject, hstatus.1, hstatus.2.1, hstatus.2.2⟩, rfl, rfl⟩

/-- The read that `pairedRead?` finds is one of the operations. -/
theorem mem_of_pairedRead? {concerned : List ApiOperation} {op : ApiOperation}
    (h : pairedRead? concerned = some op) : op ∈ concerned ∧ op.crud = .read := by
  -- Whichever of the two searches finds it, it is one among the reads.
  have hread : op ∈ concerned.filter fun op => op.crud == .read := by
    rcases Option.or_eq_some_iff.1 h with hsingle | ⟨_, hfirst⟩
    · exact List.mem_of_find?_eq_some hsingle
    · exact List.mem_of_head? hfirst
  exact (List.mem_filter.1 hread).imp_right fun heq => eq_of_beq heq

/-- A status that comes from a definition is what some read among the `operations` answers. -/
theorem exists_read_of_resourceOf {catalog : Catalog} {operations : List ApiOperation}
    {kind d status : String} {r : Resource} (h : resourceOf catalog operations kind d = .ok r)
    (hstatus : r.statusSchemaName = some status) :
    ∃ op ∈ operations, op.crud = .read ∧ op.successResponse? = some status := by
  rw [resourceOf, bind_eq_ok] at h
  obtain ⟨_, _, h⟩ := h
  cases h
  obtain ⟨op, hop, hanswer⟩ := Option.bind_eq_some_iff.1 (answer_of_statusOf hstatus)
  obtain ⟨hmem, hread⟩ := mem_of_pairedRead? hop
  exact ⟨op, List.mem_of_mem_filter hmem, hread, hanswer⟩

/-- A resource has the `plural` of its kind. -/
theorem plural_of_resourceOf {catalog : Catalog} {operations : List ApiOperation} {kind d : String}
    {r : Resource} (h : resourceOf catalog operations kind d = .ok r) : r.plural = plural kind := by
  rw [resourceOf, bind_eq_ok] at h
  obtain ⟨_, _, h⟩ := h
  cases h
  rfl

/-- The resources are those of the `definitions`, in order, with the kinds that `kindsOf` gives to
these, and all of them are `Extracted`. -/
theorem resourcesOf_eq_ok {catalog : Catalog} {operations : List ApiOperation}
    {definitions : List String} {taken : List String} {resources : List Resource}
    (h : resourcesOf catalog operations taken definitions = .ok resources) :
    (∀ r ∈ resources, r.Extracted catalog) ∧ resources.map Resource.schemaName = definitions ∧
      resources.map Resource.kind = kindsOf taken definitions := by
  -- Each definition adds a kind to those `taken`, so the rest has to be about any of them.
  induction definitions generalizing taken resources with
  | nil =>
    cases h
    exact ⟨by simp, rfl, rfl⟩
  | cons d rest ih =>
    simp only [resourcesOf, bind_eq_ok] at h
    obtain ⟨r, hr, others, hrest, h⟩ := h
    cases h
    obtain ⟨hfits, hkind, hname⟩ := resourceOf_eq_ok hr
    obtain ⟨heach, hnames, hkinds⟩ := ih hrest
    refine ⟨List.forall_mem_cons.2 ⟨hfits, heach⟩, ?_, ?_⟩
    · rw [List.map_cons, hname, hnames]
    · rw [List.map_cons, hkind, hkinds, kindsOf]

/-- Every resource is what `resourceOf` makes of its definition and the kind it has. -/
theorem resourceOf_of_mem_resourcesOf {catalog : Catalog} {operations : List ApiOperation}
    {definitions : List String} {taken : List String} {resources : List Resource}
    (h : resourcesOf catalog operations taken definitions = .ok resources) :
    ∀ r ∈ resources, resourceOf catalog operations r.kind r.schemaName = .ok r := by
  induction definitions generalizing taken resources with
  | nil =>
    cases h
    exact fun _ hr => nomatch hr
  | cons d rest ih =>
    simp only [resourcesOf, bind_eq_ok] at h
    obtain ⟨r, hr, others, hrest, h⟩ := h
    cases h
    obtain ⟨_, hkind, hname⟩ := resourceOf_eq_ok hr
    refine List.forall_mem_cons.2 ⟨?_, ih hrest⟩
    rwa [hkind, hname]

/-- An extraction that succeeds is `resourcesOf` the definitions that are candidates. -/
theorem resources_eq_ok {operations : List ApiOperation} {catalog : Catalog} {settings : Settings}
    {resources : List Resource}
    (h : Extraction.resources operations catalog settings = .ok resources) :
    resourcesOf catalog operations []
      (catalog.names.filter (isCandidate operations settings)) = .ok resources := by
  unfold Extraction.resources at h
  split at h
  · cases h
  · exact h

/-- Every resource of a run is what `resourceOf` makes of its definition. -/
theorem resourceOf_of_mem {operations : List ApiOperation} {catalog : Catalog} {settings : Settings}
    {resources : List Resource}
    (h : Extraction.resources operations catalog settings = .ok resources) :
    ∀ r ∈ resources, resourceOf catalog operations r.kind r.schemaName = .ok r :=
  resourceOf_of_mem_resourcesOf (resources_eq_ok h)

/-- The kinds of a package are those that `kindsOf` gives to the candidates. -/
theorem kinds_of_resources {operations : List ApiOperation} {catalog : Catalog}
    {settings : Settings} {resources : List Resource}
    (h : Extraction.resources operations catalog settings = .ok resources) :
    resources.map Resource.kind =
      kindsOf [] (catalog.names.filter (isCandidate operations settings)) :=
  (resourcesOf_eq_ok (resources_eq_ok h)).2.2

/-- What an extraction answers is `AllExtracted` from the catalog it was given. -/
theorem allExtracted_of_resources {operations : List ApiOperation} {catalog : Catalog}
    {settings : Settings} {resources : List Resource}
    (h : Extraction.resources operations catalog settings = .ok resources) :
    AllExtracted catalog resources := by
  obtain ⟨heach, hnames, hkinds⟩ := resourcesOf_eq_ok (resources_eq_ok h)
  refine ⟨heach, ?_, ?_⟩
  · -- No two kinds are the same since each was free when it was given out.
    rw [hkinds]
    exact nodup_kindsOf _ _
  · -- No two definitions are, since those of a catalog are not.
    rw [hnames]
    exact (List.filter_sublist).nodup catalog.nodup

end Extraction

/-! ### The names a kind lends to types -/

/-- A text ends with the last character of what is put behind it. -/
theorem getLast?_append (s : String) {t : String} {c : Char} (h : t.toList.getLast? = some c) :
    (s ++ t).toList.getLast? = some c := by
  rw [String.toList_append, List.getLast?_append, h]
  rfl

/-- Texts are different if what they end in, by `h` and `h'`, is. -/
theorem append_ne_append (s s' : String) {t t' : String} {c c' : Char}
    (h : t.toList.getLast? = some c) (h' : t'.toList.getLast? = some c') (hne : c ≠ c') :
    s ++ t ≠ s' ++ t' := by
  intro e
  have hlast := getLast?_append s h
  rw [e, getLast?_append s' h'] at hlast
  exact hne (Option.some.inj hlast).symm

/-- A spec is never called like a status. -/
theorem spec_ne_status (k k' : String) : k ++ "Spec" ≠ k' ++ "Status" :=
  append_ne_append k k' (show "Spec".toList.getLast? = some 'c' by decide)
    (show "Status".toList.getLast? = some 's' by decide) (by decide)

/-- A spec is never called like a list. -/
theorem spec_ne_list (k k' : String) : k ++ "Spec" ≠ k' ++ "List" :=
  append_ne_append k k' (show "Spec".toList.getLast? = some 'c' by decide)
    (show "List".toList.getLast? = some 't' by decide) (by decide)

/-- A status is never called like a list. -/
theorem status_ne_list (k k' : String) : k ++ "Status" ≠ k' ++ "List" :=
  append_ne_append k k' (show "Status".toList.getLast? = some 's' by decide)
    (show "List".toList.getLast? = some 't' by decide) (by decide)

/-- What is put behind a text can be taken off again. -/
theorem append_right_cancel {s s' t : String} (h : s ++ t = s' ++ t) : s = s' := by
  have hlist := congrArg String.toList h
  rw [String.toList_append, String.toList_append] at hlist
  exact String.toList_inj.1 (List.append_cancel_right hlist)

namespace AllExtracted

variable {catalog : Catalog} {resources : List Resource}

/-- A resource is known by its kind. -/
theorem eq_of_kind (h : AllExtracted catalog resources) {r s : Resource} (hr : r ∈ resources)
    (hs : s ∈ resources) (hkind : r.kind = s.kind) : r = s :=
  List.inj_on_of_nodup_map h.kinds hr hs hkind

/-- A resource is known by the name of its spec, which is its kind with an ending. -/
theorem eq_of_specType (h : AllExtracted catalog resources) {r s : Resource} (hr : r ∈ resources)
    (hs : s ∈ resources) (htype : r.specType = s.specType) : r = s := by
  rw [(h.each r hr).specType_eq, (h.each s hs).specType_eq] at htype
  exact h.eq_of_kind hr hs (append_right_cancel htype)

/-- A resource is known by the name of its status. -/
theorem eq_of_statusType (h : AllExtracted catalog resources) {r s : Resource}
    (hr : r ∈ resources) (hs : s ∈ resources) (htype : r.statusType = s.statusType) : r = s := by
  rw [(h.each r hr).statusType_eq, (h.each s hs).statusType_eq] at htype
  exact h.eq_of_kind hr hs (append_right_cancel htype)

/-- A spec never has the name of a status. -/
theorem specType_ne_statusType (h : AllExtracted catalog resources) {r s : Resource}
    (hr : r ∈ resources) (hs : s ∈ resources) : r.specType ≠ s.statusType := by
  rw [(h.each r hr).specType_eq, (h.each s hs).statusType_eq]
  exact spec_ne_status _ _

end AllExtracted

end ControllerTypes
