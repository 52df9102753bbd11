import ControllerTypes.Proofs.TypeDef.Order
import ControllerTypes.Proofs.TypeDef.Spelled

/-!
# `ControllerTypes.Proofs.TypeDef.Mirror`: types say what the schemas say

A schema is a tree with names in it, and the types of a package are a flat list. `Mirrors` says when
the type of a field stands for a schema, `MirrorsShape` when the body of a type does, and neither
mentions the walk or the tables it looks things up in: each of the five scalars has a constructor of
its own, a reference to an object or an enumeration goes to the type of that definition, every other
reference stands for what the definition stands for, and an object or an enumeration without a name
has a type that no definition has.

That the walk writes mirrors is an induction over its rules (`Leads.mirrored`), for each call on its
own. What a call finds already written was written by an earlier one, so the types of definitions
are the matter of an invariant (`Walk.Faithful`, `Leads.faithful`). For a package this means that
every definition with a name and every status stand as types (`stands_of_get?`, `status_stands`).

Nothing else is written. A type goes by a name that a definition or a status was assigned, or it has
a name of its own, and then exactly one field refers to it (`Leads.count_references`).
`types_mirror_schemas` puts all of this together.
-/

set_option autoImplicit false

namespace ControllerTypes.TypeDef

open Name

/-! ### Schemas and what stands for them -/

mutual

/-- The type of a field stands for the schema, next to these types. -/
inductive Mirrors (catalog : Catalog) (naming : Naming) (types : List TypeDef) :
    Schema → FieldType → Prop where
  | string : Mirrors catalog naming types (.primitive .string) .string
  | integer : Mirrors catalog naming types (.primitive .integer) .integer
  | number : Mirrors catalog naming types (.primitive .number) .number
  | boolean : Mirrors catalog naming types (.primitive .boolean) .boolean
  | dateTime : Mirrors catalog naming types (.primitive .dateTime) .dateTime
  | array {items : Schema} {element : FieldType}
      (helement : Mirrors catalog naming types items element) :
      Mirrors catalog naming types (.array items) (.list element)
  | map {values : Schema} {element : FieldType}
      (helement : Mirrors catalog naming types values element) :
      Mirrors catalog naming types (.map values) (.map element)
  | named {target name : String} {schema : Schema} (hget : catalog.get? target = some schema)
      (hnamed : schema.isNamed = true) (hname : naming.types.get? target = some name) :
      Mirrors catalog naming types (.reference target) (.reference name)
  | passed {target : String} {schema : Schema} {type : FieldType}
      (hget : catalog.get? target = some schema) (hnamed : schema.isNamed = false)
      (htype : Mirrors catalog naming types schema type) :
      Mirrors catalog naming types (.reference target) type
  /-- An object or an enumeration without a name has a type that no definition has. -/
  | lifted {schema : Schema} {t : TypeDef} (ht : t ∈ types) (hnew : t.name ∉ naming.taken)
      (hshape : MirrorsShape catalog naming types schema t.shape) :
      Mirrors catalog naming types schema (.reference t.name)

/-- The body of a type stands for the schema. -/
inductive MirrorsShape (catalog : Catalog) (naming : Naming) (types : List TypeDef) :
    Schema → TypeShape → Prop where
  | struct {fields : List (Field Schema)} {definitions : List FieldDefinition}
      (hfields : MirrorsFields catalog naming types fields definitions) :
      MirrorsShape catalog naming types (.object fields) (.struct definitions)
  | enumeration {literals : List String} {values : List EnumValue}
      (hvalues : values.map EnumValue.value = literals) :
      MirrorsShape catalog naming types (.enumeration literals) (.enumeration values)

/-- The fields of a struct stand for the fields of an object, one for one. -/
inductive MirrorsFields (catalog : Catalog) (naming : Naming) (types : List TypeDef) :
    List (Field Schema) → List FieldDefinition → Prop where
  | nil : MirrorsFields catalog naming types [] []
  | cons {field : Field Schema} {rest : List (Field Schema)} {definition : FieldDefinition}
      {others : List FieldDefinition} (hname : definition.jsonName = field.name)
      (hrequired : definition.required = field.required)
      (htype : Mirrors catalog naming types field.schema definition.type)
      (hrest : MirrorsFields catalog naming types rest others) :
      MirrorsFields catalog naming types (field :: rest) (definition :: others)

end

/-- Exactly one of the types has the name, and it stands for the schema. -/
def Stands (catalog : Catalog) (naming : Naming) (types : List TypeDef) (name : String)
    (schema : Schema) : Prop :=
  (types.map TypeDef.name).count name = 1 ∧
    ∃ t ∈ types, t.name = name ∧ MirrorsShape catalog naming types schema t.shape

section
variable {catalog : Catalog} {naming : Naming} {p : Place} {call : Call} {w w' : Walk}

/-- A type that stands for a schema is an enumeration exactly if the schema is one. -/
theorem MirrorsShape.isEnumeration_iff {types : List TypeDef} {schema : Schema} {t : TypeDef}
    (h : MirrorsShape catalog naming types schema t.shape) :
    t.isEnumeration = true ↔ ∃ literals, schema = .enumeration literals := by
  rw [isEnumeration]
  -- The rules are about the body alone, so the type around it is forgotten.
  generalize t.shape = shape at h
  cases h with
  | struct hfields => simp
  | enumeration hvalues => simp

/-! ### What a call answers mirrors what it was asked -/

/-- The answer of a call stands for the schema it was made for, next to these types. -/
def Call.Mirrored (catalog : Catalog) (naming : Naming) (types : List TypeDef) : Call → Prop
  | visit _ _ _ => True
  | emit name _ schema =>
    ∃ t ∈ types, t.name = name ∧ MirrorsShape catalog naming types schema t.shape
  | fields _ _ _ asked definitions => MirrorsFields catalog naming types asked definitions
  | type _ _ _ schema answer _ => Mirrors catalog naming types schema answer

/-- The answer of a call stands for its schema, whatever is written later. -/
theorem Leads.mirrored (h : Leads catalog naming p call w w')
    (htaken : ∀ n ∈ naming.taken, n ∈ w.taken) {types : List TypeDef}
    (hsub : w'.written ⊆ types) : call.Mirrored catalog naming types := by
  -- The rules of the walk and those of `Mirrors` correspond, but for a type that is written
  -- already: there `Mirrors` says which name it has, and what it looks like is for `Walk.Faithful`.
  induction h with
  | within | done | enter => trivial
  | struct _ ih =>
    rw [Walk.written_add, List.append_subset] at hsub
    exact ⟨_, hsub.2 List.mem_cons_self, rfl, .struct (ih htaken hsub.1)⟩
  | enumeration =>
    rw [Walk.written_add, List.append_subset] at hsub
    exact ⟨_, hsub.2 List.mem_cons_self, rfl, .enumeration (map_value_enumValues _)⟩
  | nil => exact MirrorsFields.nil
  | cons htype hrest ihtype ihrest =>
    have hfirst := ihtype htaken fun t ht => hsub (hrest.extends.written.subset ht)
    have hothers := ihrest (fun n hn => htype.extends.taken n (htaken n hn)) hsub
    exact MirrorsFields.cons rfl rfl hfirst hothers
  | @primitive _ _ _ _ scalar =>
    -- The walk looks the type up in `FieldType.ofPrimitive`; here each scalar is held to its own.
    cases scalar with
    | string => exact Mirrors.string
    | integer => exact Mirrors.integer
    | number => exact Mirrors.number
    | boolean => exact Mirrors.boolean
    | dateTime => exact Mirrors.dateTime
  | array _ ih => exact Mirrors.array (ih htaken hsub)
  | map _ ih => exact Mirrors.map (ih htaken hsub)
  | named hget hnamed hvisit => exact Mirrors.named hget hnamed hvisit.get?_of_visit
  | passed hget hnamed _ _ _ ih => exact Mirrors.passed hget hnamed (ih htaken hsub)
  | @lifted _ owner _ field schema w _ _ _ ih =>
    -- The name is new to the walk, so none that was assigned at the start.
    obtain ⟨t, ht, hname, hshape⟩ := ih (fun n hn => List.mem_cons_of_mem _ (htaken n hn)) hsub
    have hnew : t.name ∉ naming.taken := by
      rw [hname]
      exact fun hmem => liftedName_not_mem w owner field (htaken _ hmem)
    rw [Call.Mirrored, ← hname]
    exact .lifted ht hnew hshape

/-! ### The types of definitions -/

/-- Each definition whose type is written stands as that type, whatever is written later. -/
def Walk.Faithful (catalog : Catalog) (naming : Naming) (w : Walk) : Prop :=
  ∀ d name schema, naming.types.get? d = some name → catalog.target? d = some schema →
    name ∈ w.done → ∀ types, w.written ⊆ types →
      ∃ t ∈ types, t.name = name ∧ MirrorsShape catalog naming types schema t.shape

/-- One more type keeps the others as they are. -/
theorem Walk.Faithful.add (h : w.Faithful catalog naming) {t : TypeDef}
    (hself : ∀ d schema, naming.types.get? d = some t.name → catalog.target? d = some schema →
      ∀ types, (w.add t).written ⊆ types → MirrorsShape catalog naming types schema t.shape) :
    (w.add t).Faithful catalog naming := by
  intro d name schema hname htarget hdone types hsub
  have hparts := hsub
  rw [Walk.written_add, List.append_subset] at hparts
  rcases List.mem_cons.1 hdone with rfl | hdone
  · exact ⟨t, hparts.2 List.mem_cons_self, rfl, hself d schema hname htarget types hsub⟩
  · exact h d name schema hname htarget hdone types hparts.1

/-- Every call keeps the types of definitions faithful. -/
theorem Leads.faithful (hn : naming.Proper) (h : Leads catalog naming p call w w')
    (hs : w.Sound naming p.within) (hfits : call.Fits catalog naming p.within)
    (hf : w.Faithful catalog naming) : w'.Faithful catalog naming := by
  induction h with
  | within | done | nil | primitive => exact hf
  | enter hname hwithin hdone htarget _ ih =>
    exact ih (hs.enterNamed hn hname hdone) (fits_enter hn hname hwithin htarget) hf
  -- A definition with this name stands for what was written, as `Call.Fits` says of the call.
  | struct hfields ih =>
    apply (ih hs trivial hf).add
    intro d schema hname htarget types hsub
    rw [Walk.written_add, List.append_subset] at hsub
    cases (hfits.2 d hname).symm.trans htarget
    exact .struct (hfields.mirrored hs.taken_naming hsub.1)
  | enumeration =>
    apply hf.add
    intro d schema hname htarget types hsub
    cases (hfits.2 d hname).symm.trans htarget
    exact .enumeration (map_value_enumValues _)
  | cons htype _ ihtype ihrest =>
    exact ihrest (htype.sound hn hs trivial) trivial (ihtype hs trivial hf)
  | array _ ih | map _ ih | named _ _ _ ih | passed _ _ _ _ _ ih => exact ih hs trivial hf
  | lifted _ _ ih => exact ih (hs.lift _ _) (fits_lift hn hs _ _ _ _) hf

/-! ### Types without a definition -/

/-- The names that fields refer to, once for each field. -/
def referencedNames (types : List TypeDef) : List String :=
  types.flatMap fun t => t.fields.filterMap fun f => f.type.referenced?

/-- The references of fields as names. -/
theorem map_fst_references (definitions : List FieldDefinition) :
    (definitions.flatMap fieldReferences).map Prod.fst =
      definitions.filterMap fun f => f.type.referenced? := by
  induction definitions with
  | nil => rfl
  | cons f rest ih =>
    rw [List.flatMap_cons, List.map_append, ih]
    cases href : f.type.referenced? <;> simp [fieldReferences, href]

/-- A struct refers to what its fields refer to. -/
theorem referencedNames_add_struct (types : List TypeDef) (name source : String)
    (definitions : List FieldDefinition) :
    referencedNames (types ++ [⟨name, source, .struct definitions⟩]) =
      referencedNames types ++ (definitions.flatMap fieldReferences).map Prod.fst := by
  rw [referencedNames, List.flatMap_append, List.flatMap_singleton, map_fst_references]
  rfl

/-- An enumeration refers to nothing. -/
theorem referencedNames_add_enumeration (types : List TypeDef) (name source : String)
    (values : List EnumValue) :
    referencedNames (types ++ [⟨name, source, .enumeration values⟩]) = referencedNames types := by
  rw [referencedNames, List.flatMap_append, List.flatMap_singleton]
  exact List.append_nil _

/-- A type that no definition has is written for exactly one reference: a call adds as many types of
the name as it adds references to it, in the fields it writes and in its answer. -/
theorem Leads.count_references {n : String} (hname : n ∉ naming.names)
    (h : Leads catalog naming p call w w') :
    (w'.written.map TypeDef.name).count n + (referencedNames w.written).count n =
      (w.written.map TypeDef.name).count n + (referencedNames w'.written).count n +
        (call.references.map Prod.fst).count n := by
  -- A visit answers with the name of a definition, which `n` is not.
  have hassigned {d m : String} {backward : Bool} (hget : naming.types.get? d = some m) :
      ((Call.visit d m backward).references.map Prod.fst).count n = 0 := by
    refine List.count_eq_zero.2 fun hmem => hname ?_
    rw [List.mem_singleton.1 hmem]
    exact naming.mem_names hget
  -- Both counts grow together: by a field of a struct that is written, or by the reference that a
  -- call answers and its caller writes into a field.
  induction h with
  | within hget => rw [hassigned hget]; omega
  | done hget => rw [hassigned hget]; omega
  | enter _ _ _ _ _ ih => exact ih
  | struct _ ih =>
    simp only [Walk.written_add, List.map_append, List.count_append, referencedNames_add_struct,
      Call.references, List.map_cons, List.map_nil] at ih ⊢
    omega
  | enumeration =>
    simp only [Walk.written_add, List.map_append, List.count_append,
      referencedNames_add_enumeration, Call.references, List.map_cons, List.map_nil]
    omega
  | nil => simp [Call.references]
  | cons _ _ ihtype ihrest =>
    simp only [Call.references, List.flatMap_cons, List.map_append, List.count_append,
      fieldReferences] at ihtype ihrest ⊢
    omega
  | @primitive _ _ _ _ q _ => cases q <;> rfl
  | array _ ih | map _ ih | named _ _ _ ih | passed _ _ _ _ _ ih | lifted _ _ ih => exact ih

/-! ### The types of a package -/

/-- The name is that of an object or an enumeration in the catalog, of a spec or of a status. -/
def Assigned (catalog : Catalog) (resources : List Resource) (n : String) : Prop :=
  (∃ d schema, catalog.get? d = some schema ∧ schema.isNamed = true ∧
    (Naming.of catalog resources).types.get? d = some n) ∨
  ∃ r ∈ resources, n = r.specType ∨ n = r.statusType

section
variable {resources : List Resource} {types : List TypeDef}

/-- Every name a definition is given is assigned. -/
theorem assigned_of_mem_names (hx : AllExtracted catalog resources) {n : String}
    (h : n ∈ (Naming.of catalog resources).names) : Assigned catalog resources n := by
  obtain ⟨d, hget⟩ := Naming.mem_names_iff.1 h
  -- A name is lent by a resource, or it is that of a definition in the catalog.
  rcases Naming.get?_of_cases hx hget with
    ⟨r, hr, _, rfl⟩ | ⟨r, hr, _, rfl⟩ | ⟨_, _, schema, hschema, hnamed⟩
  · exact .inr ⟨r, hr, .inl rfl⟩
  · exact .inr ⟨r, hr, .inr rfl⟩
  · exact .inl ⟨d, schema, hschema, hnamed, hget⟩

/-- The status a root writes is assigned. -/
theorem assigned_of_statusType? {root : Root}
    (hroot : root ∈ roots catalog (.of catalog resources) resources) {n : String}
    (h : root.statusType? = some n) : Assigned catalog resources n := by
  have hmem := List.mem_filterMap.2 ⟨root, hroot, h⟩
  rw [statusTypes_roots] at hmem
  obtain ⟨r, hr, hstatus⟩ := List.mem_filterMap.1 hmem
  exact .inr ⟨r, hr, .inr (statusType?_statusRoot hstatus).1⟩

/-- What the roots preserve, for a package: the types of definitions are faithful, each type is
reached from one with an assigned name, and a type with a name of its own is written for one field.
-/
structure Walk.Covers (catalog : Catalog) (resources : List Resource) (w : Walk) : Prop where
  faithful : w.Faithful catalog (.of catalog resources)
  reached : ∀ t ∈ w.written, ∃ n, Assigned catalog resources n ∧ Reaches w.written n t.name
  known : ∀ n ∈ w.done, Assigned catalog resources n ∨ n ∉ (Naming.of catalog resources).taken
  owned : ∀ n, n ∉ (Naming.of catalog resources).taken →
    (w.written.map TypeDef.name).count n = (referencedNames w.written).count n

/-- Before the first root there is nothing to cover. -/
theorem covers_start (catalog : Catalog) (resources : List Resource) (taken : List String) :
    Walk.Covers catalog resources { taken } where
  faithful := fun _ _ _ _ _ hdone => nomatch hdone
  reached := fun _ ht => nomatch ht
  known := fun _ hn => nomatch hn
  owned := fun _ _ => rfl

/-- Every root preserves it. -/
theorem Walk.Covers.step (hx : AllExtracted catalog resources) {root : Root}
    (hroot : root ∈ roots catalog (.of catalog resources) resources)
    (h : root.Leads catalog (.of catalog resources) w w') (hs : w.Sound (.of catalog resources) [])
    (hfresh : ∀ s, root.statusType? = some s → Fresh (.of catalog resources) w s)
    (hc : w.Covers catalog resources) : w'.Covers catalog resources := by
  have hn := Naming.proper_of hx
  obtain ⟨p, call, hleads, hsound, hfits, _, hemits, hanswer, _⟩ := Root.exists_call h hs hfresh
  -- A root answers with a name of a definition or with that of a status.
  have hassigned (r : String × Bool) (hr : r ∈ call.references) : Assigned catalog resources r.1 := by
    rcases hanswer r hr with hname | hstatus
    · exact assigned_of_mem_names hx hname
    · exact assigned_of_statusType? hroot hstatus
  constructor
  · exact hleads.faithful hn hsound hfits hc.faithful
  · obtain ⟨added, hwritten, hreach⟩ := hleads.reaches
    intro t ht
    rw [hwritten, List.mem_append] at ht
    rcases ht with ht | ht
    · obtain ⟨n, hname, hpath⟩ := hc.reached t ht
      exact ⟨n, hname, hpath.mono hleads.extends.written.subset⟩
    · obtain ⟨r, hr, hpath⟩ := hreach t ht
      exact ⟨r.1, hassigned r hr, hpath⟩
  · intro n hdone
    rcases hleads.done_cases hdone with hold | hname | hnew | hself
    · exact hc.known n hold
    · exact .inl (assigned_of_mem_names hx hname)
    · exact .inr fun htaken => hnew (hs.taken_naming n htaken)
    · exact .inl (assigned_of_statusType? hroot (hemits n hself))
  · intro n hnew
    have hcount := hleads.count_references fun hname => hnew (hn.taken n hname)
    -- A new name is not in the answer of the root, so the counts agree once it is over.
    have hnone : (call.references.map Prod.fst).count n = 0 := by
      refine List.count_eq_zero.2 fun hmem => hnew ?_
      obtain ⟨r, hr, rfl⟩ := List.mem_map.1 hmem
      rcases hanswer r hr with hname | hstatus
      · exact hn.taken _ hname
      · exact (hfresh _ hstatus).2.1
    have hold := hc.owned n hnew
    omega

/-- Each root had its turn. -/
theorem LeadsAll.exists_of_mem {roots : List Root} {root : Root}
    (h : LeadsAll catalog naming roots w w') (hmem : root ∈ roots) :
    ∃ w₁ w₂, w.Extends w₁ ∧ root.Leads catalog naming w₁ w₂ ∧ w₂.Extends w' := by
  induction h with
  | nil => cases hmem
  | cons hroot hrest ih =>
    -- The root is the one at hand, or has its turn later.
    rcases List.mem_cons.1 hmem with rfl | hmem
    · exact ⟨_, _, .refl _, hroot, hrest.extends⟩
    · obtain ⟨w₁, w₂, hbefore, hturn, hafter⟩ := ih hmem
      exact ⟨w₁, w₂, (Root.extends hroot).trans hbefore, hturn, hafter⟩

/-- When all roots had their turn, each of them has its type. -/
theorem LeadsAll.type_mem_done {roots : List Root} {root : Root} {name : String}
    (h : LeadsAll catalog naming roots w w') (hmem : root ∈ roots)
    (hname : root.type? naming = some name) : name ∈ w'.done := by
  obtain ⟨w₁, w₂, _, hturn, hafter⟩ := h.exists_of_mem hmem
  obtain ⟨n, _, htype, hdone, _⟩ := Root.reaches hturn
  exact hafter.done _ (Option.some.inj (htype.symm.trans hname) ▸ hdone)

/-- So has every definition among them. -/
theorem LeadsAll.mem_done {roots : List Root} {d name : String}
    (h : LeadsAll catalog naming roots w w') (hmem : .definition d ∈ roots)
    (hname : naming.types.get? d = some name) : name ∈ w'.done :=
  h.type_mem_done hmem hname

/-- A type that is written once stands for what it mirrors. -/
theorem Walk.Sound.stands (hs : w.Sound naming []) {name : String} {schema : Schema}
    (h : ∃ t ∈ w.written, t.name = name ∧ MirrorsShape catalog naming w.written schema t.shape) :
    Stands catalog naming w.written name schema := by
  refine ⟨?_, h⟩
  obtain ⟨t, ht, rfl, _⟩ := h
  exact List.count_eq_one_of_mem hs.nodup_written (List.mem_map_of_mem ht)

/-- The types of a package were written by a walk that covers its resources. -/
theorem exists_covers {settings : Settings} {api : ApiDescription}
    (h : Compiles settings api catalog resources types) :
    ∃ w, w.written = types ∧
      LeadsAll catalog (.of catalog resources) (roots catalog (.of catalog resources) resources)
        { taken := (Naming.of catalog resources).taken } w ∧
      w.Sound (.of catalog resources) [] ∧ w.Covers catalog resources :=
  extract_invariant h.allExtracted h.written
    (fun _ hroot _ _ hturn hs hfresh hc => hc.step h.allExtracted hroot hturn hs hfresh)
    (covers_start catalog resources _)

/-- Every definition that has a name for a type is a root of the walk. -/
theorem mem_roots_of_get? (hx : AllExtracted catalog resources) {d name : String}
    (hname : (Naming.of catalog resources).types.get? d = some name) :
    .definition d ∈ roots catalog (.of catalog resources) resources := by
  -- A name that is lent belongs to a resource, whose definitions are roots. Any other definition
  -- with a name is a root by itself.
  rcases Naming.get?_of_cases hx hname with
    ⟨r, hr, rfl, _⟩ | ⟨r, hr, hstatus, rfl⟩ | ⟨_, _, schema, hget, hnamed⟩
  · exact List.mem_append_left _ (List.mem_flatMap.2 ⟨r, hr, List.mem_cons_self⟩)
  · have hroot : statusRoot (.of catalog resources) r = .definition d := by
      simp only [statusRoot, hstatus, if_pos hname]
    exact List.mem_append_left _
      (List.mem_flatMap.2 ⟨r, hr, List.mem_cons_of_mem _ (hroot ▸ List.mem_cons_self)⟩)
  · have hentry := Named.Table.get?_eq_some_iff.1 hget
    exact List.mem_append_right _
      (List.mem_map.2 ⟨(d, schema), List.mem_filter.2 ⟨hentry, hnamed⟩, rfl⟩)

/-- Every definition that has a name for a type stands as that type. -/
theorem stands_of_get? {settings : Settings} {api : ApiDescription}
    (h : Compiles settings api catalog resources types) {d name : String} {schema : Schema}
    (hname : (Naming.of catalog resources).types.get? d = some name)
    (htarget : catalog.target? d = some schema) :
    Stands catalog (.of catalog resources) types name schema := by
  obtain ⟨w, rfl, hleads, hs, hc⟩ := exists_covers h
  have hdone := hleads.mem_done (mem_roots_of_get? h.allExtracted hname) hname
  exact hs.stands (hc.faithful d name schema hname htarget hdone _ (List.Subset.refl _))

/-- The status of a resource stands as the type of its name, whichever root writes it. -/
theorem status_stands {settings : Settings} {api : ApiDescription}
    (h : Compiles settings api catalog resources types) {r : Resource} (hr : r ∈ resources) :
    Stands catalog (.of catalog resources) types r.statusType r.status := by
  have hroot := statusRoot_mem_roots catalog (.of catalog resources) hr
  -- The state has a root of its own, or its definition goes by the name of the status and is a
  -- root.
  rcases statusRoot_cases (.of catalog resources) r with heq | ⟨d, hstatus, hgiven, _⟩
  · obtain ⟨w, rfl, hleads, hs, _⟩ := exists_covers h
    obtain ⟨w₁, w₂, hbefore, hturn, hafter⟩ := hleads.exists_of_mem (heq ▸ hroot)
    exact hs.stands (Leads.mirrored hturn hbefore.taken hafter.written.subset)
  · exact stands_of_get? h hgiven ((h.allExtracted.each r hr).status_eq d hstatus)

end

/-- The types of a package mirror its schemas. Every definition that is an object or an enumeration,
every spec and every status stands as exactly one type, under the name it was assigned. Any other
type goes by a name that nothing was assigned: it belongs to the one field that refers to it, and is
reached from a type with an assigned name. -/
theorem types_mirror_schemas {settings : Settings} {api : ApiDescription}
    {resources : List Resource} {types : List TypeDef}
    (h : Compiles settings api catalog resources types) :
    (∀ d schema, catalog.get? d = some schema → schema.isNamed = true →
      ∃ name, (Naming.of catalog resources).types.get? d = some name ∧
        Stands catalog (.of catalog resources) types name schema) ∧
    (∀ r ∈ resources,
      (Naming.of catalog resources).types.get? r.schemaName = some r.specType ∧
      Stands catalog (.of catalog resources) types r.specType r.spec ∧
      Stands catalog (.of catalog resources) types r.statusType r.status) ∧
    ∀ t ∈ types, Assigned catalog resources t.name ∨
      t.name ∉ (Naming.of catalog resources).taken ∧
      (referencedNames types).count t.name = 1 ∧
      ∃ n, Assigned catalog resources n ∧ Reaches types n t.name := by
  have hx := h.allExtracted
  refine ⟨?_, ?_, ?_⟩
  · intro d schema hget hnamed
    obtain ⟨name, hname⟩ := Naming.exists_name_of_isNamed hget hnamed resources
    exact ⟨name, hname, stands_of_get? h hname (Catalog.target?_of_isNamed hget hnamed)⟩
  · intro r hr
    have hname := Naming.get?_schemaName hx hr
    exact ⟨hname, stands_of_get? h hname (hx.each r hr).spec_eq, status_stands h hr⟩
  · intro t ht
    obtain ⟨w, rfl, _, hs, hc⟩ := exists_covers h
    refine (hc.known t.name (hs.mem_done.2 ⟨t, ht, rfl⟩)).imp_right ?_
    intro hnew
    refine ⟨hnew, ?_, hc.reached t ht⟩
    rw [← hc.owned t.name hnew]
    exact List.count_eq_one_of_mem hs.nodup_written (List.mem_map_of_mem ht)

end

/-! ### Stations

A weather station has a field for every kind of schema: the five scalars, a map of lists, another name
of a list, a definition that refers back to the station, and an object without a name. -/

namespace Station

/-- A schema that has this type and says nothing else. -/
def typed (type : String) : Document.SchemaObject := { type := some (.single type) }

/-- Stations, what they are made of, and the operations that create and read them. -/
def api : ApiDescription where
  info := ⟨"Stations", "1", none, []⟩
  definitions := .ofList
    [("Station",
      { properties :=
          [("label", typed "string"), ("storeys", typed "integer"), ("latitude", typed "number"),
           ("active", typed "boolean"), ("since", { typed "string" with format := some "date-time" }),
           ("readings", { typed "object" with
              additionalProperties := some (.schema
                { typed "array" with items := some (typed "number") }) }),
           ("remarks", { ref := "#/definitions/Remarks" }),
           ("keeper", { ref := "#/definitions/Keeper" }),
           ("mast", { properties := [("height", typed "number")] })],
        required := ["label"] }),
     ("Remarks", { typed "array" with items := some (typed "string") }),
     ("Keeper", { properties :=
        [("station", { ref := "#/definitions/Station" }), ("shift", { ref := "#/definitions/Shift" })] }),
     ("Shift", { literals := [.string "day", .string "night"] }),
     ("StationState", { properties := [("online", typed "boolean")] })]
  operations :=
    [⟨"/stations", .post, some "CreateStation", some "Station", []⟩,
     ⟨"/stations/\x7bid\x7d", .get, some "GetStation", none, [⟨"200", "StationState"⟩]⟩]

/-- What a station is made of. -/
def fields : List (Field Schema) :=
  [⟨"label", .primitive .string, true⟩, ⟨"storeys", .primitive .integer, false⟩,
   ⟨"latitude", .primitive .number, false⟩, ⟨"active", .primitive .boolean, false⟩,
   ⟨"since", .primitive .dateTime, false⟩,
   ⟨"readings", .map (.array (.primitive .number)), false⟩,
   ⟨"remarks", .array (.primitive .string), false⟩, ⟨"keeper", .reference "Keeper", false⟩,
   ⟨"mast", .object [⟨"height", .primitive .number, false⟩], false⟩]

/-- What is known of the state of a station. -/
def state : Schema := .object [⟨"online", .primitive .boolean, false⟩]

def catalog : Catalog := .ofList
  [("Station", .object fields), ("Remarks", .array (.primitive .string)),
   ("Keeper", .object [⟨"station", .reference "Station", false⟩, ⟨"shift", .reference "Shift", false⟩]),
   ("Shift", .enumeration ["day", "night"]), ("StationState", state)]

/-- The only kind of resource. -/
def station : Resource where
  kind := "Station"
  plural := "stations"
  schemaName := "Station"
  spec := .object fields
  status := state
  statusSchemaName := some "StationState"
  operations := [.create, .read]
  specType := "StationSpec"
  statusType := "StationStatus"

def shift : TypeDef := ⟨"Shift", "Shift", .enumeration [⟨"day", "Day"⟩, ⟨"night", "Night"⟩]⟩

def keeper : TypeDef :=
  ⟨"Keeper", "Keeper", .struct [⟨"Station", "station", .reference "StationSpec", false, true⟩,
    ⟨"Shift", "shift", .reference "Shift", false, false⟩]⟩

def mast : TypeDef :=
  ⟨"StationSpecMast", "Station.mast", .struct [⟨"Height", "height", .number, false, false⟩]⟩

def spec : TypeDef :=
  ⟨"StationSpec", "Station", .struct
    [⟨"Label", "label", .string, true, false⟩, ⟨"Storeys", "storeys", .integer, false, false⟩,
     ⟨"Latitude", "latitude", .number, false, false⟩, ⟨"Active", "active", .boolean, false, false⟩,
     ⟨"Since", "since", .dateTime, false, false⟩,
     ⟨"Readings", "readings", .map (.list .number), false, false⟩,
     ⟨"Remarks", "remarks", .list .string, false, false⟩,
     ⟨"Keeper", "keeper", .reference "Keeper", false, false⟩,
     ⟨"Mast", "mast", .reference "StationSpecMast", false, false⟩]⟩

def status : TypeDef :=
  ⟨"StationStatus", "StationState", .struct [⟨"Online", "online", .boolean, false, false⟩]⟩

/-- The types of the package, in the order in which they are written. -/
def types : List TypeDef := [shift, keeper, mast, spec, status]

/-- Stations compile. -/
theorem compiles : Compiles {} api catalog [station] types where
  resolved := by cbv
  extracted := by cbv
  written := by cbv

/-- No definition is assigned the name of the mast, and neither is the spec or the status. -/
theorem mast_not_assigned : ¬ Assigned catalog [station] "StationSpecMast" := by
  have hnames : (Naming.of catalog [station]).names =
      ["StationSpec", "StationStatus", "Keeper", "Shift"] := by cbv
  rintro (⟨d, _, _, _, hname⟩ | ⟨r, hr, hspec | hstatus⟩)
  · have hmem := Naming.mem_names_iff.2 ⟨d, hname⟩
    rw [hnames] at hmem
    exact absurd hmem (by decide)
  · cases List.mem_singleton.1 hr
    exact absurd hspec (by decide)
  · cases List.mem_singleton.1 hr
    exact absurd hstatus (by decide)

end Station

/-- A station stands as a struct with a field of its own type for every scalar, its state as another
one, and its shifts as an enumeration. The one type that nothing was assigned is the mast of a
station, which is written for the field `mast` and reached from there. -/
theorem station_mirrors_schemas :
    Compiles {} Station.api Station.catalog [Station.station] Station.types ∧
    Station.spec.fields.map FieldDefinition.type =
      [.string, .integer, .number, .boolean, .dateTime, .map (.list .number), .list .string,
       .reference "Keeper", .reference "StationSpecMast"] ∧
    Stands Station.catalog (.of Station.catalog [Station.station]) Station.types "StationSpec"
      (.object Station.fields) ∧
    Stands Station.catalog (.of Station.catalog [Station.station]) Station.types "StationStatus"
      Station.state ∧
    (∃ name, (Naming.of Station.catalog [Station.station]).types.get? "Shift" = some name ∧
      Stands Station.catalog (.of Station.catalog [Station.station]) Station.types name
        (.enumeration ["day", "night"])) ∧
    "StationSpecMast" ∉ (Naming.of Station.catalog [Station.station]).taken ∧
    (referencedNames Station.types).count "StationSpecMast" = 1 ∧
    ∃ n, Assigned Station.catalog [Station.station] n ∧
      Reaches Station.types n "StationSpecMast" := by
  obtain ⟨hdefinitions, hresources, htypes⟩ := types_mirror_schemas Station.compiles
  obtain ⟨-, hspec, hstatus⟩ := hresources Station.station (List.mem_singleton.2 rfl)
  refine ⟨Station.compiles, rfl, hspec, hstatus, hdefinitions "Shift" _ rfl rfl, ?_⟩
  exact (htypes Station.mast (by simp [Station.types])).resolve_left Station.mast_not_assigned

end ControllerTypes.TypeDef
