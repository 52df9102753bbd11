import ControllerTypes.Proofs.Compiles
import ControllerTypes.Proofs.Resolution.Reordered
import ControllerTypes.Proofs.Resource.Reordered
import ControllerTypes.Proofs.TypeDef.Front
import ControllerTypes.Proofs.TypeDef.Unrivalled
import ControllerTypes.Proofs.TypeDef.Writable

/-!
# `ControllerTypes.Proofs.Reordered`: definitions that no resource needs, in another order

A description may have definitions that no resource needs, and they may stand anywhere. Two
descriptions that differ only in the places of these compile both or not at all, and to the same
resources. The types that a resource needs are also the same, and in the same order.

Definitions are worked out and named in their order, though, and those that no resource needs take
part in both. So this takes two conditions on them (`Movable`). They lead to steady definitions
only, since what stands on a cycle of references may come out one way or another. And each of them
is unrivalled, since of two definitions that would be given the same name the first one gets it.
`unreached_takes_name` shows what happens without the second: moving a definition that no
resource needs gives another name to a type that one does need.
-/

set_option autoImplicit false

namespace ControllerTypes

open Document Named Relation Resolution Run TypeDef

section
variable {settings : Settings} {api api' : ApiDescription} {catalog catalog' : Catalog}
  {resources resources' : List Resource} {types types' : List TypeDef} {d : String}

/-- References lead to the definition from the spec or the status of a resource. -/
def Reached (settings : Settings) (api : ApiDescription) (d : String) : Prop :=
  ∃ catalog resources, resolveAll api.definitions = .ok catalog ∧
    Extraction.resources api.operations catalog settings = .ok resources ∧
    ∃ r ∈ resources, ∃ start, (start = r.schemaName ∨ r.statusSchemaName = some start) ∧
      ReflTransGen (Refers api.definitions) start d

open Classical in
/-- The descriptions differ in the places of definitions that no resource reaches, and in nothing
else. -/
structure Reordered (settings : Settings) (api api' : ApiDescription) : Prop where
  info : api.info = api'.info
  operations : api.operations = api'.operations
  entries : api.definitions.entries.Perm api'.definitions.entries
  order : api.definitions.names.filter (Reached settings api) =
    api'.definitions.names.filter (Reached settings api)

/-- The definitions that no resource reaches can be told neither by what they are resolved to nor by
the names they take. -/
structure Movable (settings : Settings) (api : ApiDescription) : Prop where
  steady : ∀ d ∈ api.definitions.names, ¬ Reached settings api d →
    ∀ n, ReflTransGen (Refers api.definitions) d n → Steady api.definitions n
  unrivalled : ∀ catalog resources, resolveAll api.definitions = .ok catalog →
    Extraction.resources api.operations catalog settings = .ok resources →
    ∀ d, Naming.NamedAfterItself catalog resources d → ¬ Reached settings api d →
      Naming.Unrivalled catalog resources d

/-- A definition that no resource reaches leads to this one. -/
def Behind (settings : Settings) (api : ApiDescription) (d : String) : Prop :=
  ∃ u ∈ api.definitions.names, ¬ Reached settings api u ∧ ReflTransGen (Refers api.definitions) u d

/-- No reference leads out of these. -/
theorem sealed_behind : Sealed api.definitions (Behind settings api) :=
  fun _ _ ⟨u, hu, hreached, hpath⟩ hstep => ⟨u, hu, hreached, hpath.tail hstep⟩

namespace Reordered

variable (h : Reordered settings api api')
include h

/-- The definitions are the same. -/
theorem get?_eq (d : String) : api.definitions.get? d = api'.definitions.get? d :=
  Table.get?_eq_of_perm h.entries d

open Classical in
/-- The definitions that nothing unreached leads to come in the same order. -/
theorem order_not_behind : api.definitions.names.filter (fun d => ¬ Behind settings api d) =
    api'.definitions.names.filter fun d => ¬ Behind settings api d := by
  have hfilter (names : List String) (hsub : ∀ d ∈ names, d ∈ api.definitions.names) :
      (names.filter (Reached settings api)).filter (fun d => ¬ Behind settings api d) =
        names.filter fun d => ¬ Behind settings api d := by
    -- What nothing unreached leads to is reached itself, since every definition leads to itself.
    rw [List.filter_filter]
    refine List.filter_congr fun d hd => ?_
    by_cases hreached : Reached settings api d
    · simp [hreached]
    · have hbehind : Behind settings api d := ⟨d, hsub d hd, hreached, .refl⟩
      simp [hbehind]
  rw [← hfilter _ fun _ hd => hd, h.order, hfilter]
  intro d hd
  exact (h.entries.map Prod.fst).mem_iff.2 hd

open Classical in
/-- The definitions of the catalogs that a resource reaches come in the same order. -/
theorem order_catalog (hresolved : resolveAll api.definitions = .ok catalog)
    (hresolved' : resolveAll api'.definitions = .ok catalog') :
    catalog.names.filter (fun d => Reached settings api d) =
      catalog'.names.filter fun d => Reached settings api d := by
  rw [(resolved_of_resolveAll hresolved).names_eq, (resolved_of_resolveAll hresolved').names_eq]
  exact h.order

open Classical in
/-- Schemas that stand for the same give the same resources. -/
theorem extracted (hresolved : resolveAll api.definitions = .ok catalog)
    (hresolved' : resolveAll api'.definitions = .ok catalog')
    (hget : ∀ d, catalog.get? d = catalog'.get? d)
    (hextracted : Extraction.resources api.operations catalog settings = .ok resources) :
    Extraction.resources api'.operations catalog' settings = .ok resources := by
  rw [← h.operations]
  refine Extraction.resources_agree hextracted hget ?_ (h.order_catalog hresolved hresolved')
  -- The definition of a resource is reached from that resource, without a step.
  exact fun r hr => decide_eq_true
    ⟨catalog, resources, hresolved, hextracted, r, hr, r.schemaName, .inl rfl, .refl⟩

variable (hm : Movable settings api)
include hm

/-- The definitions are resolved to the same schemas. -/
theorem exists_catalog (hresolved : resolveAll api.definitions = .ok catalog) :
    ∃ catalog', resolveAll api'.definitions = .ok catalog' ∧
      ∀ d, catalog.get? d = catalog'.get? d :=
  exists_resolveAll hresolved h.get?_eq sealed_behind
    (fun _ ⟨u, hu, hreached, hpath⟩ => hm.steady u hu hreached _ hpath) h.order_not_behind

/-- And that goes for the other order as well. -/
theorem exists_catalog_symm (hresolved' : resolveAll api'.definitions = .ok catalog') :
    ∃ catalog, resolveAll api.definitions = .ok catalog ∧
      ∀ d, catalog.get? d = catalog'.get? d := by
  have hsame (d : String) := (h.get?_eq d).symm
  -- The two descriptions refer to the same definitions, so what is sealed in one is sealed in the
  -- other.
  have hU : Sealed api'.definitions (Behind settings api) := by
    intro d n hd hstep
    rw [← refers_congr hsame] at hstep
    exact sealed_behind d n hd hstep
  obtain ⟨catalog, hresolved, hget⟩ := exists_resolveAll hresolved' hsame hU
    (fun _ ⟨u, hu, hreached, hpath⟩ =>
      steady_congr h.get?_eq (hm.steady u hu hreached _ hpath)) h.order_not_behind.symm
  exact ⟨catalog, hresolved, fun d => (hget d).symm⟩

open Classical in
/-- The same definitions go by the same names, and the same names are taken. -/
theorem naming (hresolved : resolveAll api.definitions = .ok catalog)
    (hresolved' : resolveAll api'.definitions = .ok catalog')
    (hget : ∀ d, catalog.get? d = catalog'.get? d)
    (hextracted : Extraction.resources api.operations catalog settings = .ok resources) :
    Alike catalog catalog' (.of catalog resources) (.of catalog' resources) ∧
      ∀ n, n ∈ (Naming.of catalog resources).taken ↔ n ∈ (Naming.of catalog' resources).taken := by
  have hx := Extraction.allExtracted_of_resources hextracted
  have hstart {r : Resource} (hr : r ∈ resources) {d : String}
      (hd : d = r.schemaName ∨ r.statusSchemaName = some d) :
      decide (Reached settings api d) = true :=
    decide_eq_true ⟨catalog, resources, hresolved, hextracted, r, hr, d, hd, .refl⟩
  -- A resource lends names to its own definitions only, and these are reached.
  have hlent (d n : String) (hn : (Naming.statuses resources).get? d = some n) :
      decide (Reached settings api d) = true := by
    rcases Naming.get?_statuses_cases hx hn with ⟨r, hr, heq, _⟩ | ⟨r, hr, hstatus, _⟩
    · exact hstart hr (.inl heq.symm)
    · exact hstart hr (.inr hstatus)
  obtain ⟨htypes, htaken⟩ := Naming.naming_agree hget (h.order_catalog hresolved hresolved') hlent
    fun d hnamed hreached =>
      hm.unrivalled catalog resources hresolved hextracted d hnamed (of_decide_eq_false hreached)
  exact ⟨⟨hget, target?_congr hget, htypes⟩, htaken⟩

/-- A description compiles in the other order as well, and both catalogs look the same to the walk
over types. -/
theorem compiles (hc : Compiles settings api catalog resources types) :
    ∃ catalog' types', Compiles settings api' catalog' resources types' := by
  obtain ⟨catalog', hresolved', hget⟩ := h.exists_catalog hm hc.resolved
  have hextracted' := h.extracted hc.resolved hresolved' hget hc.extracted
  obtain ⟨ha, -⟩ := h.naming hm hc.resolved hresolved' hget hc.extracted
  obtain ⟨types', hwritten'⟩ := exists_extract hc.allExtracted
    (Extraction.allExtracted_of_resources hextracted') ha hc.written
  exact ⟨catalog', types', hresolved', hextracted', hwritten'⟩

/-- What compiles in the other order compiles in this one. -/
theorem compiles_symm (hc : Compiles settings api' catalog' resources' types') :
    ∃ catalog resources types, Compiles settings api catalog resources types := by
  obtain ⟨catalog, hresolved, hget⟩ := h.exists_catalog_symm hm hc.resolved
  -- Nothing is known of the resources of this order yet. They are found as long as no schema is
  -- missing.
  have htargets (d : String) (hd : d ∈ catalog'.names) :
      ∃ schema, catalog'.target? d = some schema :=
    (target?_of_checkAliasCycles (checkAliasCycles_of_resolveAll hc.resolved) hd).imp
      fun _ htarget => htarget.1
  obtain ⟨resources, hextracted⟩ := Extraction.exists_resources (h.operations ▸ hc.extracted)
    (fun d => (hget d).symm) htargets
  -- The resources are those of the other order, so its types are at hand.
  obtain rfl : resources = resources' := Except.ok.inj
    ((h.extracted hresolved hc.resolved hget hextracted).symm.trans hc.extracted)
  obtain ⟨ha, -⟩ := h.naming hm hresolved hc.resolved hget hextracted
  obtain ⟨types, hwritten⟩ := exists_extract hc.allExtracted
    (Extraction.allExtracted_of_resources hextracted) ha.symm hc.written
  exact ⟨catalog, resources, types, hresolved, hextracted, hwritten⟩

open Classical in
/-- Both orders give the same resources and the same types that these need. -/
theorem agree (hc : Compiles settings api catalog resources types)
    (hc' : Compiles settings api' catalog' resources' types') :
    resources = resources' ∧
      types.filter (Needed resources types) = types'.filter (Needed resources' types') := by
  obtain ⟨catalog'', hresolved, hget⟩ := h.exists_catalog hm hc.resolved
  obtain rfl : catalog'' = catalog' := Except.ok.inj (hresolved.symm.trans hc'.resolved)
  obtain rfl : resources = resources' := Except.ok.inj
    ((h.extracted hc.resolved hresolved hget hc.extracted).symm.trans hc'.extracted)
  obtain ⟨ha, htaken⟩ := h.naming hm hc.resolved hresolved hget hc.extracted
  -- What resources need is written from the roots of resources, in front of everything else, and
  -- these roots are the same.
  obtain ⟨w, hleads, hfront⟩ := exists_front hc.allExtracted hc.written
  obtain ⟨w', hleads', hfront'⟩ := exists_front hc'.allExtracted hc'.written
  have hroots : resourceRoots (.of catalog resources) resources =
      resourceRoots (.of catalog'' resources) resources := by
    simp only [resourceRoots, statusRoot_congr ha.name]
  rw [← hroots] at hleads'
  rw [hfront, hfront']
  exact ⟨rfl, (hleads.agree ha hleads' ⟨rfl, rfl, htaken⟩).written⟩

end Reordered

open Classical in
/-- Two descriptions that differ in the places of definitions that no resource reaches compile both
or not at all, if these are movable. If they compile, their resources are the same, and so are the
types that resources need, in the same order. -/
theorem unreached_reordered (h : Reordered settings api api') (hm : Movable settings api)
    (version : String) :
    ((∃ compiled, CompiledApi.ofDescription settings version api = .ok compiled) ↔
      ∃ compiled, CompiledApi.ofDescription settings version api' = .ok compiled) ∧
    ∀ compiled compiled', CompiledApi.ofDescription settings version api = .ok compiled →
      CompiledApi.ofDescription settings version api' = .ok compiled' →
      compiled.resources = compiled'.resources ∧
      compiled.types.filter (Needed compiled.resources compiled.types) =
        compiled'.types.filter (Needed compiled'.resources compiled'.types) := by
  refine ⟨⟨?_, ?_⟩, ?_⟩
  · rintro ⟨compiled, hcompiled⟩
    obtain ⟨_, hc⟩ := compiles_of_ofDescription hcompiled
    obtain ⟨_, _, hc'⟩ := h.compiles hm hc
    exact (hc'.exists_ofDescription version).imp fun _ h => h.1
  · -- `Reordered` speaks of the first description, so this direction has a lemma of its own.
    rintro ⟨compiled', hcompiled'⟩
    obtain ⟨_, hc'⟩ := compiles_of_ofDescription hcompiled'
    obtain ⟨_, _, _, hc⟩ := h.compiles_symm hm hc'
    exact (hc.exists_ofDescription version).imp fun _ h => h.1
  · intro compiled compiled' hcompiled hcompiled'
    obtain ⟨_, hc⟩ := compiles_of_ofDescription hcompiled
    obtain ⟨_, hc'⟩ := compiles_of_ofDescription hcompiled'
    exact h.agree hm hc hc'

end

/-! ### Pumps with valves

A pump has a valve, and is the only resource. A third definition, which neither of them refers to,
stands behind the two or in front of them. -/

namespace Pumps

/-- A pump with a valve at its inlet. -/
def pump : SchemaObject := { properties := [("inlet", { ref := "#/definitions/Valve" })] }

/-- A valve of some width. -/
def valve : SchemaObject := { properties := [("width", { type := some (.single "integer") })] }

/-- What nothing refers to. -/
def other : SchemaObject := { properties := [("label", { type := some (.single "string") })] }

/-- The description with these definitions. -/
def api (definitions : List (String × SchemaObject)) : ApiDescription where
  info := ⟨"Pumps", "1", none, []⟩
  definitions := .ofList definitions
  operations := [⟨"/pumps", .post, some "CreatePump", some "Pump", []⟩]

/-- The third definition behind the others. -/
def last (name : String) : ApiDescription :=
  api [("Pump", pump), ("Valve", valve), (name, other)]

/-- The third definition in front of the others. -/
def first (name : String) : ApiDescription :=
  api [(name, other), ("Pump", pump), ("Valve", valve)]

def pumpFields : List (Field Schema) := [⟨"inlet", .reference "Valve", false⟩]

def valveFields : List (Field Schema) := [⟨"width", .primitive .integer, false⟩]

def otherFields : List (Field Schema) := [⟨"label", .primitive .string, false⟩]

/-- The only resource. -/
def resource : Resource where
  kind := "Pump"
  plural := "pumps"
  schemaName := "Pump"
  spec := .object pumpFields
  status := .emptyObject
  statusSchemaName := none
  operations := [.create]
  specType := "PumpSpec"
  statusType := "PumpStatus"

/-- An object with nothing but scalars mentions no definition. -/
theorem not_mentions_of_scalars {raw : SchemaObject} {n : String}
    (hform : raw.form = .object raw.properties)
    (hscalars : ∀ x ∈ raw.properties, x.2.form = .scalar) : ¬ Mentions raw n := by
  intro h
  have hmentions := h.of_form
  rw [hform] at hmentions
  obtain ⟨x, hx, hinner⟩ := hmentions
  have hnone := hinner.of_form
  rw [hscalars x hx] at hnone
  exact hnone

/-- A valve refers to nothing. -/
theorem not_mentions_valve (n : String) : ¬ Mentions valve n :=
  not_mentions_of_scalars (by cbv) (List.forall_mem_singleton.2 (by cbv))

/-- Neither does the third definition. -/
theorem not_mentions_other (n : String) : ¬ Mentions other n :=
  not_mentions_of_scalars (by cbv) (List.forall_mem_singleton.2 (by cbv))

/-- A pump mentions valves and nothing else. -/
theorem mentions_pump {n : String} : Mentions pump n ↔ n = "Valve" := by
  have hform : pump.form = .object [("inlet", { ref := "#/definitions/Valve" })] := by cbv
  have hname : definitionName? "#/definitions/Valve" = some "Valve" := by cbv
  constructor
  · intro h
    have hmentions := h.of_form
    rw [hform] at hmentions
    obtain ⟨x, hx, hinner⟩ := hmentions
    cases List.mem_singleton.1 hx
    exact Option.some.inj (hinner.of_form.symm.trans hname)
  · rintro rfl
    exact .property hform List.mem_cons_self (.reference rfl hname)

variable {name : String} (hpump : name ≠ "Pump") (hvalve : name ≠ "Valve")
include hpump hvalve

/-- The definitions stand in the order in which they were given, if no two share a name. -/
theorem entries_last :
    (last name).definitions.entries = [("Pump", pump), ("Valve", valve), (name, other)] :=
  ofList_of_nodup (by simp [Named.names, hpump.symm, hvalve.symm])

/-- And so they do in the other order. -/
theorem entries_first :
    (first name).definitions.entries = [(name, other), ("Pump", pump), ("Valve", valve)] :=
  ofList_of_nodup (by simp [Named.names, hpump, hvalve])

/-- The resource reaches pumps and valves. -/
theorem reached_iff {catalog : Catalog}
    (hresolved : resolveAll (last name).definitions = .ok catalog)
    (hextracted : Extraction.resources (last name).operations catalog {} = .ok [resource])
    {d : String} : Reached {} (last name) d ↔ d = "Pump" ∨ d = "Valve" := by
  have hget {x : String × SchemaObject}
      (hx : x ∈ [("Pump", pump), ("Valve", valve), (name, other)]) :
      (last name).definitions.get? x.1 = some x.2 :=
    Table.get?_eq_some_iff.2 (entries_last hpump hvalve ▸ hx)
  have hpump := hget List.mem_cons_self
  have hvalve := hget (List.mem_cons_of_mem _ List.mem_cons_self)
  constructor
  · rintro ⟨catalog', resources, hresolved', hextracted', r, hr, start, hstart, hpath⟩
    cases hresolved.symm.trans hresolved'
    cases hextracted.symm.trans hextracted'
    cases List.mem_singleton.1 hr
    obtain rfl := hstart.resolve_right fun h => nomatch h
    -- The path begins at a pump, goes on to its valve, and ends there.
    induction hpath with
    | refl => exact .inl rfl
    | tail _ hstep ih =>
      obtain ⟨raw, hraw, hmentions⟩ := hstep
      rcases ih with rfl | rfl
      · cases hpump.symm.trans hraw
        exact .inr (mentions_pump.1 hmentions)
      · cases hvalve.symm.trans hraw
        exact absurd hmentions (not_mentions_valve _)
  · intro hd
    refine ⟨catalog, _, hresolved, hextracted, resource, List.mem_cons_self, "Pump", .inl rfl, ?_⟩
    rcases hd with rfl | rfl
    · exact .refl
    · exact .single ⟨pump, hpump, mentions_pump.2 rfl⟩

/-- Only the third definition has another place. -/
theorem reordered {catalog : Catalog}
    (hresolved : resolveAll (last name).definitions = .ok catalog)
    (hextracted : Extraction.resources (last name).operations catalog {} = .ok [resource]) :
    Reordered {} (last name) (first name) where
  info := rfl
  operations := rfl
  entries := by
    rw [entries_last hpump hvalve, entries_first hpump hvalve]
    exact List.perm_append_singleton _ [_, _]
  order := by
    rw [Table.names, Table.names, entries_last hpump hvalve, entries_first hpump hvalve]
    simp [Named.names, reached_iff hpump hvalve hresolved hextracted, hpump, hvalve]

omit hpump hvalve

/-- The third definition leads nowhere, so it is steady. -/
theorem steady_other {n : String}
    (hother : (last name).definitions.get? name = some other)
    (hpath : ReflTransGen (Refers (last name).definitions) name n) :
    Steady (last name).definitions n := by
  have hleaf {k : String} : ¬ Refers (last name).definitions name k := by
    rintro ⟨raw, hraw, hmentions⟩
    cases hother.symm.trans hraw
    exact not_mentions_other k hmentions
  -- The only path is the one without a step.
  obtain rfl : n = name := by
    rcases hpath.cases_head with heq | ⟨k, hstep, _⟩
    · exact heq.symm
    · exact absurd hstep hleaf
  intro raw k hraw hmentions
  exact absurd ⟨raw, hraw, hmentions⟩ hleaf

/-- What the definitions are resolved to. -/
def catalog (name : String) : Catalog := .ofList
  [("Pump", .object pumpFields), ("Valve", .object valveFields), (name, .object otherFields)]

def valveType : TypeDef :=
  ⟨"Valve", "Valve", .struct [⟨"Width", "width", .integer, false, false⟩]⟩

def spec : TypeDef :=
  ⟨"PumpSpec", "Pump", .struct [⟨"Inlet", "inlet", .reference "Valve", false, false⟩]⟩

def status : TypeDef := ⟨"PumpStatus", "Pump.status", .struct []⟩

/-- The type of the third definition. -/
def otherType (name source : String) : TypeDef :=
  ⟨name, source, .struct [⟨"Label", "label", .string, false, false⟩]⟩

/-- Pumps and hoses compile. -/
theorem compiles_hose : Compiles {} (last "Hose") (catalog "Hose") [resource]
    [valveType, spec, status, otherType "Hose" "Hose"] where
  resolved := by cbv
  extracted := by cbv
  written := by cbv

/-- Hoses can be moved. Nothing refers to them, and nobody else is called like that. -/
theorem movable_hose : Movable {} (last "Hose") where
  steady := by
    intro d hd hreached n hpath
    rw [reached_iff (by decide) (by decide) compiles_hose.resolved compiles_hose.extracted,
      not_or] at hreached
    rw [Table.names, entries_last (by decide) (by decide)] at hd
    obtain rfl : d = "Hose" := by simpa [Named.names, hreached] using hd
    exact steady_other (by cbv) hpath
  unrivalled := by
    intro catalog resources hresolved hextracted d hd hreached
    cases compiles_hose.resolved.symm.trans hresolved
    cases compiles_hose.extracted.symm.trans hextracted
    rw [reached_iff (by decide) (by decide) compiles_hose.resolved compiles_hose.extracted,
      not_or] at hreached
    -- Of the three only the name `Hose` is of interest: the other two are reached.
    have hnames {e : String} (he : Naming.NamedAfterItself (catalog "Hose") [resource] e) :
        e = "Pump" ∨ e = "Valve" ∨ e = "Hose" := by
      obtain ⟨⟨schema, hget, _⟩, _⟩ := he
      have hmem := Table.mem_names_of_get? hget
      rw [show (catalog "Hose").names = ["Pump", "Valve", "Hose"] from rfl] at hmem
      simpa using hmem
    obtain rfl : d = "Hose" := by simpa [hreached] using hnames hd
    have hown : Naming.ownName "Hose" = "Hose" := by
      unfold Naming.ownName
      cbv
    unfold Naming.Unrivalled
    rw [hown]
    refine ⟨by decide, fun e he hne htried => ?_⟩
    -- Whoever tries for the name has to be called by the beginning of it.
    have hstarts := htried.starts
    rcases hnames he with rfl | rfl | rfl
    · exact absurd hstarts (by decide)
    · exact absurd hstarts (by decide)
    · exact hne rfl

/-- The third definition may be called like a valve. -/
theorem compiles_valve : Compiles {} (last "valve") (catalog "valve") [resource]
    [valveType, spec, status, otherType "Valve1" "valve"] where
  resolved := by cbv
  extracted := by cbv
  written := by cbv

def firstCatalog : Catalog := .ofList
  [("valve", .object otherFields), ("Pump", .object pumpFields), ("Valve", .object valveFields)]

/-- In front of the others it is given the name first. -/
theorem compiles_first_valve : Compiles {} (first "valve") firstCatalog [resource]
    [⟨"Valve1", "Valve", valveType.shape⟩,
      ⟨"PumpSpec", "Pump", .struct [⟨"Inlet", "inlet", .reference "Valve1", false, false⟩]⟩,
      status, otherType "Valve" "valve"] where
  resolved := by cbv
  extracted := by cbv
  written := by cbv

end Pumps

open Classical in
/-- Hoses may stand in front of pumps. -/
theorem hose_moved :
    Reordered {} (Pumps.last "Hose") (Pumps.first "Hose") ∧ Movable {} (Pumps.last "Hose") ∧
    ∃ compiled compiled',
      CompiledApi.ofDescription {} "v1alpha1" (Pumps.last "Hose") = .ok compiled ∧
      CompiledApi.ofDescription {} "v1alpha1" (Pumps.first "Hose") = .ok compiled' ∧
      compiled.resources = compiled'.resources ∧
      compiled.types.filter (Needed compiled.resources compiled.types) =
        compiled'.types.filter (Needed compiled'.resources compiled'.types) := by
  have hreordered := Pumps.reordered (by decide) (by decide) Pumps.compiles_hose.resolved
    Pumps.compiles_hose.extracted
  obtain ⟨hboth, hsame⟩ := unreached_reordered hreordered Pumps.movable_hose "v1alpha1"
  obtain ⟨compiled, hcompiled, _⟩ := Pumps.compiles_hose.exists_ofDescription "v1alpha1"
  obtain ⟨compiled', hcompiled'⟩ := hboth.1 ⟨compiled, hcompiled⟩
  exact ⟨hreordered, Pumps.movable_hose, compiled, compiled', hcompiled, hcompiled',
    hsame compiled compiled' hcompiled hcompiled'⟩

open Classical in
/-- A definition that no resource reaches can take the name of a type that one needs, if it stands
in front of that. -/
theorem unreached_takes_name :
    ¬ ∀ (settings : Settings) (version : String) (api api' : ApiDescription),
      Reordered settings api api' →
      ((∃ compiled, CompiledApi.ofDescription settings version api = .ok compiled) ↔
        ∃ compiled, CompiledApi.ofDescription settings version api' = .ok compiled) ∧
      ∀ compiled compiled', CompiledApi.ofDescription settings version api = .ok compiled →
        CompiledApi.ofDescription settings version api' = .ok compiled' →
        compiled.resources = compiled'.resources ∧
        compiled.types.filter (Needed compiled.resources compiled.types) =
          compiled'.types.filter (Needed compiled'.resources compiled'.types) := by
  intro halways
  have hreordered := Pumps.reordered (by decide) (by decide) Pumps.compiles_valve.resolved
    Pumps.compiles_valve.extracted
  obtain ⟨compiled, hcompiled, hresources, htypes⟩ :=
    Pumps.compiles_valve.exists_ofDescription "v1alpha1"
  obtain ⟨compiled', hcompiled', _, htypes'⟩ :=
    Pumps.compiles_first_valve.exists_ofDescription "v1alpha1"
  obtain ⟨_, hsame⟩ := (halways {} "v1alpha1" _ _ hreordered).2 _ _ hcompiled hcompiled'
  -- A pump has a valve in the first order, whose type is missing in the second.
  have hneeded : Pumps.valveType ∈ compiled.types.filter
      (Needed compiled.resources compiled.types) := by
    rw [hresources, htypes]
    refine List.mem_filter.2 ⟨List.mem_cons_self, decide_eq_true ?_⟩
    refine ⟨Pumps.resource, List.mem_cons_self, .inl (.single ⟨Pumps.spec, ?_, rfl, ?_⟩)⟩
    · exact List.mem_cons_of_mem _ List.mem_cons_self
    · exact ⟨_, List.mem_cons_self, rfl⟩
  have hthere := (List.mem_filter.1 (hsame ▸ hneeded)).1
  rw [htypes'] at hthere
  exact absurd hthere (by decide)

end ControllerTypes
