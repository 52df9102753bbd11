import ControllerTypes.Proofs.TypeDef.Mirror
import ControllerTypes.Source.File

/-!
# `ControllerTypes.Proofs.Source.Declared`: when all declarations of a package have different names

A package declares its types, a constant for each value of an enumeration, two kinds for each
resource, and the three variables of its registration. Go refuses a package that declares a name
twice.

The names come about in different places. Types keep clear of each other and of all kinds, except
that the types of specs and statuses are called after their kinds without a look at the others.
Constants are the only names with an underscore. Kinds keep clear of each other and of nothing else,
and nobody looks at the variables. `nodup_declaredNames_iff` says that these are all the gaps there
are: the names are distinct exactly if no kind is called like the list, the spec or the status of
another one, and no type and no kind like a variable.

`clashing_not_nodup` is a package with a gap. It has the kinds `Foo` and `FooSpec`, and the spec of
the first has the name of the second.
-/

set_option autoImplicit false

namespace ControllerTypes.Source

open Name

/-- The constants of all enumerations. -/
def constantNames (types : List TypeDef) : List String :=
  types.flatMap fun t =>
    match t.shape with
    | .struct _ => []
    | .enumeration values => values.map (constantName t.name)

/-- The kinds of the resources, and the kinds of their lists. -/
def kindNames (resources : List Resource) : List String :=
  resources.map Resource.kind ++ resources.map Resource.listKind

/-- The variables of the registration. -/
def Package.variables : List String := [groupVersion, schemeBuilder, addToScheme]

/-- All names that a package declares. -/
def declaredNames (resources : List Resource) (types : List TypeDef) : List String :=
  types.map TypeDef.name ++ constantNames types ++ kindNames resources ++ Package.variables

/-! ### What is known of the names -/

/-- What a compilation says about the names of its types and kinds. -/
structure Outline (resources : List Resource) (types : List TypeDef) : Prop where
  names : (types.map TypeDef.name).Nodup
  spelled : ∀ t ∈ types, t.Spelled
  kinds : (resources.map Resource.kind).Nodup
  words : ∀ r ∈ resources, OneWord r.kind
  specType_eq : ∀ r ∈ resources, r.specType = r.kind ++ "Spec"
  statusType_eq : ∀ r ∈ resources, r.statusType = r.kind ++ "Status"
  written : ∀ r ∈ resources,
    r.specType ∈ types.map TypeDef.name ∧ r.statusType ∈ types.map TypeDef.name
  /-- Only specs and statuses are called after a kind. -/
  others : ∀ t ∈ types, (∃ r ∈ resources, t.name = r.specType ∨ t.name = r.statusType) ∨
    t.name ∉ Naming.resourceNames resources

/-- A name that is `Assigned` is that of a spec or a status, or no resource brings it along: then it
is the own name of a definition, which was found fresh among the `resourceNames`. -/
theorem assigned_cases {catalog : Catalog} {resources : List Resource}
    (hx : AllExtracted catalog resources) {n : String}
    (h : TypeDef.Assigned catalog resources n) :
    (∃ r ∈ resources, n = r.specType ∨ n = r.statusType) ∨ n ∉ Naming.resourceNames resources := by
  rcases h with ⟨d, _, _, _, hget⟩ | hresource
  · -- A definition has its name from a resource, or it got a new one.
    rcases Naming.get?_of_cases hx hget with ⟨r, hr, _, rfl⟩ | ⟨r, hr, _, rfl⟩ | ⟨hnew, _⟩
    · exact .inl ⟨r, hr, .inl rfl⟩
    · exact .inl ⟨r, hr, .inr rfl⟩
    · exact .inr hnew
  · exact .inl hresource

/-- Every compilation has such an `Outline`. The types come from the walk, the kinds from the
extraction of resources. -/
theorem outline_of_compiles {settings : Settings} {api : ApiDescription} {catalog : Catalog}
    {resources : List Resource} {types : List TypeDef}
    (h : Compiles settings api catalog resources types) : Outline resources types := by
  have hx := h.allExtracted
  -- What is needed of the walk is what it covers, not how it goes.
  obtain ⟨w, rfl, _, hs, hc⟩ := TypeDef.exists_covers h
  refine ⟨hs.nodup_written, TypeDef.spelled_of_compiles h, hx.kinds,
    Extraction.oneWord_kind h.extracted, fun r hr => (hx.each r hr).specType_eq,
    fun r hr => (hx.each r hr).statusType_eq, ?_, ?_⟩
  · intro r hr
    obtain ⟨_, t, ht, hspec, _⟩ := TypeDef.stands_of_get? h (Naming.get?_schemaName hx hr)
      (hx.each r hr).spec_eq
    obtain ⟨_, u, hu, hstatus, _⟩ := TypeDef.status_stands h hr
    exact ⟨List.mem_map.2 ⟨t, ht, hspec⟩, List.mem_map.2 ⟨u, hu, hstatus⟩⟩
  · intro t ht
    -- A type by a name that was not assigned is new, so in particular no resource has it.
    rcases hc.known t.name (hs.mem_done.2 ⟨t, ht, rfl⟩) with hassigned | hnew
    · exact assigned_cases hx hassigned
    · exact .inr fun hmem => hnew ((Naming.grown_of hx).taken _ hmem)

/-! ### Constants -/

section
variable {resources : List Resource} {types : List TypeDef}

/-- A constant belongs to a value of an enumeration, and is named after both. -/
theorem mem_constantNames {types : List TypeDef} {n : String} :
    n ∈ constantNames types ↔ ∃ t ∈ types, ∃ values, t.shape = .enumeration values ∧
      ∃ v ∈ values, constantName t.name v = n := by
  rw [constantNames, List.mem_flatMap]
  constructor
  · rintro ⟨t, ht, hmem⟩
    split at hmem
    · cases hmem
    · next values hshape =>
      obtain ⟨v, hv, rfl⟩ := List.mem_map.1 hmem
      exact ⟨t, ht, values, hshape, v, hv, rfl⟩
  · rintro ⟨t, ht, values, hshape, v, hv, rfl⟩
    refine ⟨t, ht, ?_⟩
    rw [hshape]
    exact List.mem_map_of_mem hv

/-- A name of one word is not that of a constant, since those have an underscore in them. -/
theorem not_mem_constantNames {n : String} (h : OneWord n) : n ∉ constantNames types := by
  rw [mem_constantNames]
  rintro ⟨t, _, _, _, v, _, rfl⟩
  exact not_oneWord_underscore _ _ h

/-- The constants of a type with a name of its own are not those of other types, and those of one
type differ. `hspelled` is what makes the underscore tell where the name of the type ends. -/
theorem nodup_constantNames (hnames : (types.map TypeDef.name).Nodup)
    (hspelled : ∀ t ∈ types, t.Spelled) : (constantNames types).Nodup := by
  induction types with
  | nil => exact List.nodup_nil
  | cons t rest ih =>
    rw [List.map_cons, List.nodup_cons] at hnames
    obtain ⟨ht, hrest⟩ := List.forall_mem_cons.1 hspelled
    have hcons : constantNames (t :: rest) = constantNames [t] ++ constantNames rest := by
      rw [constantNames, List.flatMap_cons, constantNames, List.flatMap_singleton, constantNames]
    rw [hcons, List.nodup_append']
    -- The constants of the first type, those of the others, and that no constant is one of both.
    refine ⟨?_, ih hnames.2 hrest, ?_⟩
    · rw [constantNames, List.flatMap_singleton]
      split
      · exact List.nodup_nil
      · next values hshape =>
        obtain ⟨hnodup, hwords⟩ := ht.values values hshape
        refine List.Nodup.map_on ?_ (List.Nodup.of_map _ hnodup)
        intro v hv v' hv' heq
        have hname := (append_underscore_inj ht.name (hwords v hv) heq).2
        exact List.inj_on_of_nodup_map hnodup hv hv' hname
    · intro n hn hn'
      obtain ⟨u, hu, values, hshape, v, hv, rfl⟩ := mem_constantNames.1 hn
      obtain ⟨u', hu', _, _, v', _, heq⟩ := mem_constantNames.1 hn'
      obtain rfl := List.mem_singleton.1 hu
      have hword := (ht.values values hshape).2 v hv
      -- A constant of two types would have both names in front of the same underscore.
      have hsame := (append_underscore_inj ht.name hword heq.symm).1
      exact hnames.1 (hsame ▸ List.mem_map_of_mem hu')

/-! ### Kinds and variables -/

/-- Kinds differ from each other, and so do lists of them. What is left to ask is that no kind is
called like the list of another one. -/
theorem nodup_kindNames_iff (h : Outline resources types) :
    (kindNames resources).Nodup ↔ ∀ r ∈ resources, ∀ s ∈ resources, s.kind ≠ r.listKind := by
  -- Two lists of one name would be lists of one kind.
  have hlists : (resources.map Resource.listKind).Nodup := by
    refine List.Nodup.map_on ?_ (List.Nodup.of_map _ h.kinds)
    intro r hr s hs heq
    exact List.inj_on_of_nodup_map h.kinds hr hs (append_right_cancel heq)
  rw [kindNames, List.nodup_append']
  constructor
  · rintro ⟨_, _, hdisjoint⟩ r hr s hs heq
    exact hdisjoint (List.mem_map_of_mem hs) (heq ▸ List.mem_map_of_mem hr)
  · intro hne
    refine ⟨h.kinds, hlists, ?_⟩
    intro n hkind hlist
    obtain ⟨s, hs, rfl⟩ := List.mem_map.1 hkind
    obtain ⟨r, hr, heq⟩ := List.mem_map.1 hlist
    exact hne r hr s hs heq.symm

/-- Every kind is one word, and so is the kind of its lists. -/
theorem oneWord_of_mem_kindNames (h : Outline resources types) {n : String}
    (hn : n ∈ kindNames resources) : OneWord n := by
  rcases List.mem_append.1 hn with hn | hn
  · obtain ⟨r, hr, rfl⟩ := List.mem_map.1 hn
    exact h.words r hr
  · obtain ⟨r, hr, rfl⟩ := List.mem_map.1 hn
    exact (h.words r hr).append (by decide)

/-- Only the kind of a resource can be the name of a spec or of a status, never that of a list: the
endings differ in their last letters. -/
theorem disjoint_kindNames_iff (h : Outline resources types) :
    (types.map TypeDef.name).Disjoint (kindNames resources) ↔
      ∀ r ∈ resources, ∀ s ∈ resources, s.kind ≠ r.specType ∧ s.kind ≠ r.statusType := by
  constructor
  · intro hdisjoint r hr s hs
    have hkind : s.kind ∈ kindNames resources := List.mem_append_left _ (List.mem_map_of_mem hs)
    exact ⟨fun heq => hdisjoint (heq ▸ (h.written r hr).1) hkind,
      fun heq => hdisjoint (heq ▸ (h.written r hr).2) hkind⟩
  · intro hne n hname hkind
    obtain ⟨t, ht, rfl⟩ := List.mem_map.1 hname
    -- A type is called after a kind, or it keeps clear of everything that resources bring along.
    rcases h.others t ht with ⟨r, hr, htype⟩ | hnew
    · rcases List.mem_append.1 hkind with hkind | hlist
      · obtain ⟨s, hs, heq⟩ := List.mem_map.1 hkind
        rw [← heq] at htype
        exact htype.elim (hne r hr s hs).1 (hne r hr s hs).2
      · obtain ⟨s, hs, heq⟩ := List.mem_map.1 hlist
        rw [← heq, h.specType_eq r hr, h.statusType_eq r hr] at htype
        rcases htype with htype | htype
        · exact spec_ne_list _ _ htype.symm
        · exact status_ne_list _ _ htype.symm
    · -- Every other type keeps clear of what resources bring along.
      refine hnew (List.mem_flatMap.2 ?_)
      rcases List.mem_append.1 hkind with hkind | hlist
      · obtain ⟨s, hs, heq⟩ := List.mem_map.1 hkind
        exact ⟨s, hs, by simp [heq]⟩
      · obtain ⟨s, hs, heq⟩ := List.mem_map.1 hlist
        exact ⟨s, hs, by simp [heq]⟩

/-- No variable is called like a list, which shows in the last letter. -/
theorem variable_ne_listKind {v : String} (hv : v ∈ Package.variables) (r : Resource) :
    v ≠ r.listKind := by
  have hlast : ∀ v ∈ Package.variables, v.toList.getLast? ≠ some 't' := by decide
  intro heq
  refine hlast v hv ?_
  rw [heq]
  exact getLast?_append r.kind (by decide)

/-- A variable can be called like a type or like a kind, but not like a constant or a list. So these
are the two that have to be excluded. -/
theorem disjoint_variables_iff :
    (types.map TypeDef.name ++ constantNames types ++ kindNames resources).Disjoint
        Package.variables ↔
      ∀ v ∈ Package.variables,
        v ∉ types.map TypeDef.name ∧ v ∉ resources.map Resource.kind := by
  constructor
  · intro hdisjoint v hv
    constructor
    · intro hmem
      exact hdisjoint (List.mem_append_left _ (List.mem_append_left _ hmem)) hv
    · intro hmem
      exact hdisjoint (List.mem_append_right _ (List.mem_append_left _ hmem)) hv
  · intro hfree v hmem hv
    -- All three variables are words without an underscore.
    have hword : ∀ v ∈ Package.variables, OneWord v := by decide
    rcases List.mem_append.1 hmem with hmem | hmem
    · rcases List.mem_append.1 hmem with hname | hconstant
      · exact (hfree v hv).1 hname
      · exact not_mem_constantNames (hword v hv) hconstant
    · rcases List.mem_append.1 hmem with hkind | hlist
      · exact (hfree v hv).2 hkind
      · obtain ⟨r, _, heq⟩ := List.mem_map.1 hlist
        exact variable_ne_listKind hv r heq.symm

end

/-! ### All declarations -/

/-- The declarations of a package have different names exactly if no kind is called like the list,
the spec or the status of a resource, and no type and no kind is called like a variable of the
registration. -/
theorem nodup_declaredNames_iff {settings : Settings} {api : ApiDescription} {catalog : Catalog}
    {resources : List Resource} {types : List TypeDef}
    (h : Compiles settings api catalog resources types) :
    (declaredNames resources types).Nodup ↔
      (∀ r ∈ resources, ∀ s ∈ resources,
        s.kind ≠ r.listKind ∧ s.kind ≠ r.specType ∧ s.kind ≠ r.statusType) ∧
      ∀ v ∈ Package.variables,
        v ∉ types.map TypeDef.name ∧ v ∉ resources.map Resource.kind := by
  have ho := outline_of_compiles h
  -- Types and constants never clash, whatever the description is.
  have hconstants : (types.map TypeDef.name ++ constantNames types).Nodup := by
    refine List.nodup_append'.2 ⟨ho.names, nodup_constantNames ho.names ho.spelled, ?_⟩
    intro n hname
    obtain ⟨t, ht, rfl⟩ := List.mem_map.1 hname
    exact not_mem_constantNames (ho.spelled t ht).name
  have hkinds : (constantNames types).Disjoint (kindNames resources) := fun _ hconstant hkind =>
    not_mem_constantNames (oneWord_of_mem_kindNames ho hkind) hconstant
  -- The rest is put together from the pairs of groups, each of which has its lemma.
  rw [declaredNames, List.nodup_append', List.nodup_append', disjoint_variables_iff,
    nodup_kindNames_iff ho, List.disjoint_append_left, disjoint_kindNames_iff ho]
  constructor
  · rintro ⟨⟨_, hlists, htypes, _⟩, _, hvariables⟩
    exact ⟨fun r hr s hs => ⟨hlists r hr s hs, htypes r hr s hs⟩, hvariables⟩
  · rintro ⟨hfree, hvariables⟩
    exact ⟨⟨hconstants, fun r hr s hs => (hfree r hr s hs).1,
      fun r hr s hs => (hfree r hr s hs).2, hkinds⟩, by decide, hvariables⟩

/-- The declarations of a forest have different names. -/
theorem forest_declares_distinct_names :
    Compiles {} Forest.api Forest.catalog [Forest.tree]
      [Forest.node, Forest.sort, Forest.spec, Forest.status] ∧
    (declaredNames [Forest.tree] [Forest.node, Forest.sort, Forest.spec, Forest.status]).Nodup :=
  ⟨Forest.compiles, (nodup_declaredNames_iff Forest.compiles).2 (by decide)⟩

/-! ### A package with two declarations of one name -/

namespace Clashing

/-- Two definitions, each of which can be created. -/
def api : ApiDescription where
  info := ⟨"Clashing", "1", none, []⟩
  definitions := .ofList
    [("Foo", { properties := [("size", { type := some (.single "integer") })] }),
     ("FooSpec", { properties := [("label", { type := some (.single "string") })] })]
  operations :=
    [⟨"/foos", .post, some "CreateFoo", some "Foo", []⟩,
     ⟨"/specs", .post, some "CreateFooSpec", some "FooSpec", []⟩]

def fooSchema : Schema := .object [⟨"size", .primitive .integer, false⟩]

def fooSpecSchema : Schema := .object [⟨"label", .primitive .string, false⟩]

def catalog : Catalog := .ofList [("Foo", fooSchema), ("FooSpec", fooSpecSchema)]

/-- A resource that reports no state. -/
def resource (kind plural : String) (spec : Schema) : Resource where
  kind := kind
  plural := plural
  schemaName := kind
  spec := spec
  status := .emptyObject
  statusSchemaName := none
  operations := [.create]
  specType := kind ++ "Spec"
  statusType := kind ++ "Status"

def resources : List Resource :=
  [resource "Foo" "foos" fooSchema, resource "FooSpec" "foospecs" fooSpecSchema]

def types : List TypeDef :=
  [⟨"FooSpec", "Foo", .struct [⟨"Size", "size", .integer, false, false⟩]⟩,
   ⟨"FooStatus", "Foo.status", .struct []⟩,
   ⟨"FooSpecSpec", "FooSpec", .struct [⟨"Label", "label", .string, false, false⟩]⟩,
   ⟨"FooSpecStatus", "FooSpec.status", .struct []⟩]

/-- The two definitions compile. -/
theorem compiles : Compiles {} api catalog resources types where
  resolved := by cbv
  extracted := by cbv
  written := by cbv

end Clashing

/-- The spec of one resource has the name of the other kind. -/
theorem clashing_not_nodup :
    Compiles {} Clashing.api Clashing.catalog Clashing.resources Clashing.types ∧
    ¬ (declaredNames Clashing.resources Clashing.types).Nodup :=
  ⟨Clashing.compiles, by decide⟩

end ControllerTypes.Source
