import ControllerTypes.Proofs.Compiles
import ControllerTypes.Proofs.TypeDef.Sound

/-!
# `ControllerTypes.Proofs.TypeDef.Order`: types stand behind the types of their fields

A field that refers to a type holds it directly or by pointer. A type that is held directly stands
in front of its owner, so the types can be declared in their order. A pointer is only used where
that is impossible, because the two types contain each other. `reference_placed` is this property
for a whole package.

The walk decides between the two by looking at the types it is inside of. A type it is inside of is
written later than the field, and everything that was written since then belongs to it:
`Leads.reaches` says that a call reaches all types it writes from the references in its answer. So a
pointer to a type that is still being written is a promise, which is kept when the type is finished.
`Placed` is the property of one type with these promises, and `Leads.ordered` says that a call
leaves no other promises than those of the types around it. A package is the end of a walk that is
inside of nothing, so none is left there (`ordered_of_compiles`).
-/

set_option autoImplicit false

namespace ControllerTypes.TypeDef

variable {catalog : Catalog} {naming : Naming} {p : Place} {call : Call} {w w' : Walk}

/-! ### References between types -/

/-- The type `a` has a field that refers to `b`. -/
def Uses (types : List TypeDef) (a b : String) : Prop :=
  ∃ t ∈ types, t.name = a ∧ ∃ f ∈ t.fields, f.type.referenced? = some b

/-- A path of field references leads from one type to another. -/
abbrev Reaches (types : List TypeDef) : String → String → Prop := Relation.ReflTransGen (Uses types)

/-- More types leave the paths there are. -/
theorem Reaches.mono {types types' : List TypeDef} (hsub : types ⊆ types') {a b : String}
    (h : Reaches types a b) : Reaches types' a b := by
  refine Relation.ReflTransGen.mono ?_ a b h
  rintro a b ⟨t, ht, huses⟩
  exact ⟨t, hsub ht, huses⟩

/-- A pointer goes to a type that is being written, and any other reference to a finished one. -/
theorem Leads.settled (h : Leads catalog naming p call w w') :
    ∀ r ∈ call.references, (r.2 = true → r.1 ∈ p.within) ∧ (r.2 = false → r.1 ∈ w'.done) := by
  induction h with
  -- Only a visit answers with a pointer, and it does so exactly for a type it is inside of.
  | within _ hwithin => simpa [Call.references] using hwithin
  | done _ _ hdone => simpa [Call.references] using hdone
  | enter _ _ _ _ _ ih =>
    simpa [Call.references] using ih
  | struct | enumeration => simp [Call.references]
  | nil => simp [Call.references]
  -- The later fields finish more types, so what was finished stays so.
  | cons _ hrest ihtype ihrest =>
    intro r hr
    rw [Call.references, List.flatMap_cons, List.mem_append] at hr
    rcases hr with hr | hr
    · obtain ⟨hpointer, hdirect⟩ := ihtype r hr
      exact ⟨hpointer, fun h => hrest.extends.done _ (hdirect h)⟩
    · exact ihrest r hr
  | @primitive _ _ _ _ q _ =>
    cases q <;> simp [Call.references, FieldType.ofPrimitive, FieldType.referenced?]
  | array _ ih | map _ ih | passed _ _ _ _ _ ih => exact ih
  | named _ _ _ ih => exact ih
  | lifted _ _ ih => simpa [Call.references, FieldType.referenced?] using ih

/-- What the fields of a struct reach, the struct reaches: the field is the first step there. -/
theorem reaches_struct {types : List TypeDef} {definitions : List FieldDefinition}
    {r : String × Bool} {b : String} (name source : String)
    (hr : r ∈ definitions.flatMap fieldReferences) (hpath : Reaches types r.1 b) :
    Reaches (types ++ [⟨name, source, .struct definitions⟩]) name b := by
  obtain ⟨f, hf, hr⟩ := List.mem_flatMap.1 hr
  -- The field `f` is the first edge of the path.
  have hstep : Uses (types ++ [⟨name, source, .struct definitions⟩]) name r.1 :=
    ⟨⟨name, source, .struct definitions⟩, by simp, rfl, f, hf, (mem_fieldReferences.1 hr).1⟩
  exact .head hstep (hpath.mono (List.subset_append_left _ _))

/-- The types a call writes are reached from the references in its answer. -/
theorem Leads.reaches (h : Leads catalog naming p call w w') :
    ∃ added, w'.written = w.written ++ added ∧
      ∀ t ∈ added, ∃ r ∈ call.references, Reaches w'.written r.1 t.name := by
  induction h with
  -- These calls write nothing.
  | within | done | nil | primitive => exact ⟨[], (List.append_nil _).symm, by simp⟩
  | enter _ _ _ _ _ ih => exact ih
  -- The struct is the reference that the call answers, so it has to reach what its fields reach.
  | @struct _ name source fields definitions _ w' _ ih =>
    obtain ⟨added, hwritten, hreach⟩ := ih
    refine ⟨added ++ [⟨name, source, .struct definitions⟩], ?_, ?_⟩
    · rw [Walk.written_add, hwritten, List.append_assoc]
    · intro t ht
      refine ⟨(name, false), List.mem_cons_self, ?_⟩
      rcases List.mem_append.1 ht with ht | ht
      · obtain ⟨r, hr, hpath⟩ := hreach t ht
        exact reaches_struct name source hr hpath
      · rw [List.mem_singleton.1 ht]
  | @enumeration _ name source literals w =>
    refine ⟨[⟨name, source, .enumeration (enumValues literals)⟩], rfl, ?_⟩
    intro t ht
    rw [List.mem_singleton.1 ht]
    exact ⟨(name, false), List.mem_cons_self, .refl⟩
  -- What the first field wrote is reached from its own type, also after the other fields.
  | cons _ hrest ihtype ihrest =>
    obtain ⟨first, hfirst, hreach⟩ := ihtype
    obtain ⟨others, hothers, hreach'⟩ := ihrest
    refine ⟨first ++ others, by rw [hothers, hfirst, List.append_assoc], ?_⟩
    intro t ht
    rw [Call.references, List.flatMap_cons]
    rcases List.mem_append.1 ht with ht | ht
    · obtain ⟨r, hr, hpath⟩ := hreach t ht
      exact ⟨r, List.mem_append_left _ hr, hpath.mono hrest.extends.written.subset⟩
    · obtain ⟨r, hr, hpath⟩ := hreach' t ht
      exact ⟨r, List.mem_append_right _ hr, hpath⟩
  | array _ ih | map _ ih | named _ _ _ ih | passed _ _ _ _ _ ih => exact ih
  | lifted _ _ ih => exact ih

/-- The name of the type that a root is for. -/
def Root.type? (naming : Naming) : Root → Option String
  | definition d => naming.types.get? d
  | status r => some r.statusType

/-- A root has a type, which is written afterwards and reaches all other types that the root
writes. -/
theorem Root.reaches {root : Root} (h : root.Leads catalog naming w w') :
    ∃ n added, root.type? naming = some n ∧ n ∈ w'.done ∧ w'.written = w.written ++ added ∧
      ∀ t ∈ added, Reaches w'.written n t.name := by
  -- The call of a root answers with one name, and that is not of a type in the making.
  have hone {p : Place} {call : Call} {n : String}
      (hleads : TypeDef.Leads catalog naming p call w w')
      (hanswer : call.references = [(n, false)]) :
      n ∈ w'.done ∧ ∃ added, w'.written = w.written ++ added ∧
        ∀ t ∈ added, Reaches w'.written n t.name := by
    have hdone := (hleads.settled (n, false) (hanswer ▸ List.mem_singleton.2 rfl)).2 rfl
    obtain ⟨added, hwritten, hreach⟩ := hleads.reaches
    refine ⟨hdone, added, hwritten, fun t ht => ?_⟩
    obtain ⟨r, hr, hpath⟩ := hreach t ht
    rw [hanswer] at hr
    cases List.mem_singleton.1 hr
    exact hpath
  -- Both kinds of root answer with one name that is not a pointer.
  cases root with
  | definition d =>
    obtain ⟨n, hvisit⟩ := h
    obtain ⟨hdone, added, hwritten, hreach⟩ := hone hvisit rfl
    exact ⟨n, added, hvisit.get?_of_visit, hdone, hwritten, hreach⟩
  | status r =>
    obtain ⟨hdone, added, hwritten, hreach⟩ := hone h rfl
    exact ⟨r.statusType, added, rfl, hdone, hwritten, hreach⟩

/-- The root for the state of a resource is for the type of its status. -/
theorem type?_statusRoot (naming : Naming) (r : Resource) :
    (statusRoot naming r).type? naming = some r.statusType := by
  rcases statusRoot_cases naming r with heq | ⟨d, _, hgiven, heq⟩
  · rw [heq]
    rfl
  · rw [heq]
    exact hgiven

/-! ### Types in their places -/

/-- The references of a type between the types around it: what is held directly stands in front, and
what is held by pointer stands behind and leads back, unless it is one of the types `within` that
are still being written. -/
def Placed (within : List String) (before : List TypeDef) (t : TypeDef) (after : List TypeDef) :
    Prop :=
  ∀ f ∈ t.fields, ∀ n, f.type.referenced? = some n →
    (f.indirect = false → ∃ u ∈ before, u.name = n) ∧
    (f.indirect = true →
      n ∈ within ∨ (∃ u ∈ t :: after, u.name = n) ∧ Reaches (before ++ t :: after) n t.name)

/-- Every type is in its place. -/
def Ordered (within : List String) (types : List TypeDef) : Prop :=
  ∀ before t after, types = before ++ t :: after → Placed within before t after

section
variable {within : List String} {before after : List TypeDef} {t : TypeDef}

/-- Types that are written later do not matter. -/
theorem Placed.append (h : Placed within before t after) (more : List TypeDef) :
    Placed within before t (after ++ more) := by
  intro f hf n hn
  obtain ⟨hdirect, hpointer⟩ := h f hf n hn
  refine ⟨hdirect, ?_⟩
  intro hindirect
  refine (hpointer hindirect).imp_right ?_
  -- The target stands behind as before, and the path back is still there among more types.
  rintro ⟨⟨u, hu, hname⟩, hpath⟩
  refine ⟨⟨u, List.mem_append_left more hu, hname⟩, hpath.mono ?_⟩
  rw [← List.cons_append, ← List.append_assoc]
  exact List.subset_append_left _ _

/-- More types may be in the making. -/
theorem Placed.mono {within' : List String} (h : Placed within before t after)
    (hsub : within ⊆ within') : Placed within' before t after := by
  intro f hf n hn
  obtain ⟨hdirect, hpointer⟩ := h f hf n hn
  exact ⟨hdirect, fun hindirect => (hpointer hindirect).imp_left fun hmem => hsub hmem⟩

/-- A type that is finished and leads to `t` keeps the promise of a pointer to it. -/
theorem Placed.finish {u : TypeDef} (h : Placed (u.name :: within) before t after)
    (hpath : Reaches (before ++ t :: (after ++ [u])) u.name t.name) :
    Placed within before t (after ++ [u]) := by
  intro f hf n hn
  obtain ⟨hdirect, hpointer⟩ := h.append [u] f hf n hn
  refine ⟨hdirect, ?_⟩
  intro hindirect
  -- The pointer is to `u`, which has just been finished, or to a type further out.
  rcases hpointer hindirect with hmem | hdone
  · rcases List.mem_cons.1 hmem with rfl | hmem
    · have hu : u ∈ t :: (after ++ [u]) := by simp
      exact .inr ⟨⟨u, hu, rfl⟩, hpath⟩
    · exact .inl hmem
  · exact .inr hdone

end

/-- What a type refers to is among the types, when none is left to be written. -/
theorem Ordered.exists_of_reference {types : List TypeDef} (h : Ordered [] types) {t : TypeDef}
    (ht : t ∈ types) {f : FieldDefinition} (hf : f ∈ t.fields) {n : String}
    (href : f.type.referenced? = some n) : ∃ u ∈ types, u.name = n := by
  obtain ⟨before, after, hsplit⟩ := List.append_of_mem ht
  obtain ⟨hdirect, hpointer⟩ := h before t after hsplit f hf n href
  rw [hsplit]
  -- What is held directly stands in front of the owner, and what is held by pointer stands behind
  -- it.
  cases hindirect : f.indirect with
  | false =>
    obtain ⟨u, hu, hname⟩ := hdirect hindirect
    exact ⟨u, List.mem_append_left _ hu, hname⟩
  | true =>
    obtain ⟨u, hu, hname⟩ := ((hpointer hindirect).resolve_left List.not_mem_nil).1
    exact ⟨u, List.mem_append_right _ hu, hname⟩

/-- An element of two lists in a row is in the first of them or in the second. -/
theorem split_append {old added before after : List TypeDef} {t : TypeDef}
    (h : old ++ added = before ++ t :: after) :
    (∃ rest, old = before ++ t :: rest ∧ after = rest ++ added) ∨ t ∈ added := by
  rcases List.append_eq_append_iff.1 h with ⟨rest, _, hadded⟩ | ⟨rest, hold, hafter⟩
  · exact .inr (by rw [hadded]; simp)
  · cases rest with
    | nil => exact .inr (by rw [List.nil_append] at hafter; rw [← hafter]; simp)
    | cons u rest =>
      cases hafter
      exact .inl ⟨rest, hold, rfl⟩

/-- A finished type keeps the order: its own references are settled, and it leads to every type that
was written while it was in the making. -/
theorem Ordered.finish {outer : List String} {old added : List TypeDef} {u : TypeDef}
    (hold : Ordered outer old) (hmid : Ordered (u.name :: outer) (old ++ added))
    (hown : ∀ f ∈ u.fields, ∀ n, f.type.referenced? = some n →
      (f.indirect = false → ∃ v ∈ old ++ added, v.name = n) ∧
      (f.indirect = true → n ∈ u.name :: outer))
    (hreach : ∀ t ∈ added, Reaches (old ++ added ++ [u]) u.name t.name) :
    Ordered outer (old ++ added ++ [u]) := by
  intro before t after hsplit
  rcases List.eq_nil_or_concat after with rfl | ⟨after, v, rfl⟩
  · -- The type itself: a pointer to it closes the shortest cycle there is.
    obtain ⟨rfl, ht⟩ := List.append_inj' hsplit rfl
    cases ht
    intro f hf n hn
    obtain ⟨hdirect, hpointer⟩ := hown f hf n hn
    refine ⟨hdirect, ?_⟩
    intro hindirect
    rcases List.mem_cons.1 (hpointer hindirect) with rfl | hmem
    · exact .inr ⟨⟨u, List.mem_singleton.2 rfl, rfl⟩, .refl⟩
    · exact .inl hmem
  · -- Any other type stands in front of `u`. It was there before, or was written while `u` was in
    -- the making.
    rw [List.concat_eq_append, ← List.cons_append, ← List.append_assoc] at hsplit
    obtain ⟨hsplit', hv⟩ := List.append_inj' hsplit rfl
    cases hv
    rw [List.concat_eq_append]
    rcases split_append hsplit' with ⟨rest, hrest, rfl⟩ | hnew
    · rw [List.append_assoc]
      exact (hold before t rest hrest).append _
    · refine (hmid before t after hsplit').finish ?_
      have hpath := hreach t hnew
      rwa [hsplit', List.append_assoc, List.cons_append] at hpath

/-- Every call keeps the order, with no other promises than those of the types around it. -/
theorem Leads.ordered (hn : naming.Proper) (h : Leads catalog naming p call w w')
    (hs : w.Sound naming p.within) (hfits : call.Fits catalog naming p.within)
    (ho : Ordered (call.left p.within) w.written) :
    Ordered (call.left p.within) w'.written := by
  induction h with
  | within | done | nil | primitive => exact ho
  | enter hname hwithin hdone htarget _ ih =>
    exact ih (hs.enterNamed hn hname hdone) (fits_enter hn hname hwithin htarget) ho
  -- While the fields are written, pointers to the struct itself are promises. They are kept when it
  -- is finished, since it reaches all that was written meanwhile.
  | @struct p name source fields definitions w w' hfields ih =>
    obtain ⟨⟨outer, hwithin, hnew⟩, _⟩ := hfits
    have hs' := hfields.sound hn hs trivial
    simp only [Call.left, hwithin, List.tail_cons] at ho hs' ih ⊢
    have hmid := ih (hwithin ▸ hs) trivial fun before t after hsplit =>
      (ho before t after hsplit).mono (List.subset_cons_self _ _)
    obtain ⟨added, hwritten, hreach⟩ := hfields.reaches
    -- `Ordered.finish` wants the references of the struct and its paths to the new types.
    have hstruct : Ordered outer (w.written ++ added ++ [⟨name, source, .struct definitions⟩]) := by
      apply Ordered.finish ho (hwritten ▸ hmid)
      · intro f hf n href
        have hr : (n, f.indirect) ∈ definitions.flatMap fieldReferences :=
          List.mem_flatMap.2 ⟨f, hf, mem_fieldReferences.2 ⟨href, rfl⟩⟩
        obtain ⟨hpointer, hdirect⟩ := hfields.settled _ hr
        rw [← hwritten, ← hwithin]
        exact ⟨fun h => hs'.mem_done.1 (hdirect h), hpointer⟩
      · intro t ht
        obtain ⟨r, hr, hpath⟩ := hreach t ht
        rw [← hwritten]
        exact reaches_struct name source hr hpath
    rwa [← hwritten] at hstruct
  -- An enumeration has no fields, so there is nothing to settle.
  | @enumeration p name source literals w =>
    obtain ⟨⟨outer, hwithin, hnew⟩, _⟩ := hfits
    simp only [Call.left, hwithin, List.tail_cons] at ho ⊢
    have hmid : Ordered (name :: outer) (w.written ++ []) := by
      rw [List.append_nil]
      exact fun before t after hsplit =>
        (ho before t after hsplit).mono (List.subset_cons_self _ _)
    have hfinish := Ordered.finish (u := ⟨name, source, .enumeration (enumValues literals)⟩) ho hmid
      (by simp [TypeDef.fields]) (by simp)
    rwa [List.append_nil] at hfinish
  | cons htype _ ihtype ihrest =>
    exact ihrest (htype.sound hn hs trivial) trivial (ihtype hs trivial ho)
  | array _ ih | map _ ih | named _ _ _ ih | passed _ _ _ _ _ ih => exact ih hs trivial ho
  | lifted _ _ ih => exact ih (hs.lift _ _) (fits_lift hn hs _ _ _ _) ho

/-! ### The order of a package -/

/-- The types of a package have distinct names and are in their places. -/
theorem ordered_of_compiles {settings : Settings} {api : ApiDescription} {resources : List Resource}
    {types : List TypeDef} (h : Compiles settings api catalog resources types) :
    (types.map TypeDef.name).Nodup ∧ Ordered [] types := by
  have hn := Naming.proper_of h.allExtracted
  -- No type is in the making between two roots, so between them the order has no promises left.
  obtain ⟨w, rfl, _, hs, ho⟩ := extract_invariant (I := fun w => Ordered [] w.written)
    h.allExtracted h.written
    (fun root _ w w' hroot hs hfresh ho => by
      obtain ⟨p, call, hleads, hsound, hfits, hleft, _⟩ := Root.exists_call hroot hs hfresh
      exact hleft ▸ hleads.ordered hn hsound hfits (hleft ▸ ho))
    (fun before t after hnil => by simp at hnil)
  exact ⟨hs.nodup_written, ho⟩

/-- Every reference of a package names one of its types. A type that is held directly stands in
front of its owner. A type that is held by pointer is the owner itself or stands behind it, and a
path of references leads from it back to the owner. -/
theorem reference_placed {settings : Settings} {api : ApiDescription} {resources : List Resource}
    {types before after : List TypeDef} {t : TypeDef} {f : FieldDefinition} {n : String}
    (h : Compiles settings api catalog resources types) (hsplit : types = before ++ t :: after)
    (hf : f ∈ t.fields) (href : f.type.referenced? = some n) :
    (types.map TypeDef.name).count n = 1 ∧
    (f.indirect = false → ∃ u ∈ before, u.name = n) ∧
    (f.indirect = true → (∃ u ∈ t :: after, u.name = n) ∧ Reaches types n t.name) := by
  obtain ⟨hnodup, ho⟩ := ordered_of_compiles h
  have ht : t ∈ types := by rw [hsplit]; simp
  obtain ⟨hdirect, hpointer⟩ := ho before t after hsplit f hf n href
  refine ⟨?_, hdirect, fun hindirect => ?_⟩
  · -- The name is among the types either way, and no two types share a name.
    obtain ⟨u, hu, rfl⟩ := ho.exists_of_reference ht hf href
    exact List.count_eq_one_of_mem hnodup (List.mem_map_of_mem hu)
  · rw [hsplit]
    exact (hpointer hindirect).resolve_left List.not_mem_nil

/-- A node knows its tree by pointer, since the tree stands behind it and leads back to it. -/
theorem node_reference_placed :
    Compiles {} Forest.api Forest.catalog [Forest.tree]
      [Forest.node, Forest.sort, Forest.spec, Forest.status] ∧
    ([Forest.node, Forest.sort, Forest.spec, Forest.status].map TypeDef.name).count "TreeSpec" = 1 ∧
    (∃ u ∈ [Forest.node, Forest.sort, Forest.spec, Forest.status], u.name = "TreeSpec") ∧
    Reaches [Forest.node, Forest.sort, Forest.spec, Forest.status] "TreeSpec" "Node" := by
  have hsplit : [Forest.node, Forest.sort, Forest.spec, Forest.status] =
      [] ++ Forest.node :: [Forest.sort, Forest.spec, Forest.status] := rfl
  have hplaced := reference_placed Forest.compiles hsplit (List.mem_singleton.2 rfl) rfl
  exact ⟨Forest.compiles, hplaced.1, hplaced.2.2 rfl⟩

end ControllerTypes.TypeDef
