import ControllerTypes.Proofs.Resolution.Closed
import ControllerTypes.Proofs.TypeDef.Agrees
import ControllerTypes.Proofs.TypeDef.Stuck

/-!
# `ControllerTypes.Proofs.TypeDef.Faults`: why a package has no types

Of all the ways in which the walk over types can fail only two come about: a field leads to
something without a counterpart, or to the same definition again (`blames`).

* A reference to nothing, and a definition that stands for nothing, are for the earlier stages to
  refuse. What they leave is `Grounded`, and every name of the walk stands for something.
* What has a name as a type is an object or an enumeration, since the specs and states of resources
  are objects (`owner_of_target?`).
* The guard does not fire where the walk ends by itself (`agrees_extract`).

Together with `Owner.not_stuck` this says when a package has types (`extract_fails_iff`).
-/

set_option autoImplicit false

namespace ControllerTypes.TypeDef

open Name Run

section
variable {catalog : Catalog} {resources : List Resource}

/-! ### References that lead somewhere -/

/-- Every reference in the schema leads to a definition. -/
def Grounded (catalog : Catalog) (schema : Schema) : Prop :=
  ∀ n, schema.RefersTo n → ∃ s, catalog.get? n = some s

/-- Every definition of a catalog that was resolved is grounded. -/
theorem grounded_of_resolveAll {defs : Definitions}
    (h : Resolution.resolveAll defs = .ok catalog) {d : String} {schema : Schema}
    (hget : catalog.get? d = some schema) : Grounded catalog schema := by
  intro n hrefers
  have hr := Resolution.resolved_of_resolveAll h
  obtain ⟨answers, hall, _⟩ := Resolution.resolvesAll_of_resolveAll h
  -- What a reference leads to is in the making or finished. At the end nothing is in the making.
  rcases hall.closed .start d schema n (hr.get?_eq d ▸ hget) hrefers with hactive | ⟨s, hdone⟩
  · cases hactive
  · exact ⟨s, (hr.get?_eq n).trans hdone⟩

section
variable (hclosed : ∀ d schema, catalog.get? d = some schema → Grounded catalog schema)
include hclosed

/-- What a definition stands for is grounded. -/
theorem grounded_of_target? {d : String} {schema : Schema} (h : catalog.target? d = some schema) :
    Grounded catalog schema := by
  -- The last step of the chain of names is a definition of the catalog, and so is grounded.
  exact Catalog.target?_induction h (fun d hget _ => hclosed d schema hget) fun _ _ _ ih => ih

/-- What a grounded schema leads to is grounded. -/
theorem Unwraps.grounded {schema stands : Schema} {aliases : List String}
    (h : Unwraps catalog schema aliases stands) (hg : Grounded catalog schema) :
    Grounded catalog stands := by
  induction h with
  | start => exact hg
  | items _ ih => exact fun n hrefers => ih n (.items hrefers)
  | values _ ih => exact fun n hrefers => ih n (.values hrefers)
  -- Behind a definition it is the catalog that is grounded, whatever the reference was like.
  | passed _ hget _ _ _ => exact hclosed _ _ hget

/-- The fields of an owner are grounded. -/
theorem Owner.grounded (hx : AllExtracted catalog resources) {name : String}
    {fields : List (Field Schema)} (h : Owner catalog resources name fields) :
    ∀ f ∈ fields, Grounded catalog f.schema := by
  have hobject {fields : List (Field Schema)} (hg : Grounded catalog (.object fields)) :
      ∀ f ∈ fields, Grounded catalog f.schema :=
    fun f hf n hrefers => hg n (.field hf hrefers)
  induction h with
  | definition hget => exact hobject (hclosed _ _ hget)
  | spec hr hspec => exact hobject (grounded_of_target? hclosed (hspec ▸ (hx.each _ hr).spec_eq))
  | @status r _ hr hstatus =>
    -- A state of its own comes from a definition. Without one the state is empty, and so are its
    -- fields.
    cases hname : r.statusSchemaName with
    | none =>
      cases hstatus.symm.trans ((hx.each r hr).status_empty hname)
      exact List.forall_mem_nil _
    | some d =>
      exact hobject (grounded_of_target? hclosed (hstatus ▸ (hx.each r hr).status_eq d hname))
  | inline _ hf hunwraps _ ih => exact hobject (hunwraps.grounded hclosed (ih _ hf))

end

/-! ### Steps and what makes them fail -/

section
variable {α β : Type} {taken : List String} {P : Error → Prop}

/-- If the step fails, the failure is as `P` says. If it does not, the names `taken` stay taken. -/
def Blames (taken : List String) (P : Error → Prop) (x : Step α) : Prop :=
  ∀ w, taken ⊆ w.taken →
    (∀ e, x.run w = .error e → P e) ∧ ∀ a w', x.run w = .ok (a, w') → taken ⊆ w'.taken

namespace Blames

/-- A step that answers does not fail. -/
theorem pure (a : α) : Blames taken P (Pure.pure a) := by
  refine fun w hw => ⟨nofun, ?_⟩
  rintro b w' ⟨⟩
  exact hw

/-- A failure that is as `P` says may be thrown. -/
theorem throw {e : Error} (he : P e) : Blames taken P (throw e : Step α) := by
  refine fun w hw => ⟨?_, fun a w' h => nomatch h⟩
  rintro e' ⟨⟩
  exact he

/-- Writing a type does not fail, and takes no name back. -/
theorem write (t : TypeDef) : Blames taken P (TypeDef.write t) := by
  refine fun w hw => ⟨nofun, ?_⟩
  rintro b w' ⟨⟩
  exact hw

/-- Steps fail one after the other. -/
theorem bind {x : Step α} {f : α → Step β} (hx : Blames taken P x)
    (hf : ∀ a, Blames taken P (f a)) : Blames taken P (x >>= f) := by
  intro w hw
  obtain ⟨herror, hkeeps⟩ := hx w hw
  -- The two fail either in the first step, or in the second after a first that kept the names.
  constructor
  · intro e h
    rw [StateT.run_bind] at h
    cases hfirst : x.run w with
    | error e' =>
      rw [hfirst] at h
      cases h
      exact herror e hfirst
    | ok r =>
      rw [hfirst] at h
      exact (hf r.1 r.2 (hkeeps r.1 r.2 hfirst)).1 e h
  · intro b w' h
    obtain ⟨a, w₁, hfirst, hsecond⟩ := run_bind_eq_ok.1 h
    exact (hf a w₁ (hkeeps a w₁ hfirst)).2 b w' hsecond

/-- A step that only looks at the state does not fail. -/
theorem get {f : Walk → Step β} (hf : ∀ w, Blames taken P (f w)) :
    Blames taken P (MonadState.get >>= f) :=
  fun w hw => hf w w hw

/-- The name that is taken for an object is new to all that are taken then. -/
theorem takeLifted {owner field : String} {f : String → Step β}
    (hf : ∀ taken', taken ⊆ taken' →
      Blames taken P (f (takeName (owner ++ pascalCase field) taken' .types).1)) :
    Blames taken P (TypeDef.takeLifted owner field >>= f) :=
  fun w hw => hf w.taken hw { w with taken := (liftedName w owner field).2 }
    (List.Subset.trans hw (List.subset_cons_self _ _))

/-- A step fails as it does with its answer. -/
theorem discard {x : Step α} (hx : Blames taken P x) : Blames taken P (discard x) :=
  hx.bind fun _ => .pure _

/-- A loop fails where one of its rounds does. -/
theorem forM {f : β → Step PUnit} {xs : List β} (h : ∀ x ∈ xs, Blames taken P (f x)) :
    Blames taken P (xs.forM f) := by
  induction xs with
  | nil => exact .pure _
  | cons x rest ih =>
    obtain ⟨hfirst, hrest⟩ := List.forall_mem_cons.1 h
    exact hfirst.bind fun _ => ih hrest

end Blames

end

/-! ### What makes the walk fail -/

/-- A field of an owner is stuck, and the failure says so. -/
def Reported (catalog : Catalog) (resources : List Resource) (e : Error) : Prop :=
  ∃ name fields f fault, Owner catalog resources name fields ∧ f ∈ fields ∧
    Stuck catalog f.schema fault ∧ e = .typeShape name f.name fault

/-- A failure of the step is that of the guard, or that of a stuck field. -/
abbrev Explained {α : Type} (catalog : Catalog) (resources : List Resource) (x : Step α) : Prop :=
  Blames (Naming.of catalog resources).taken
    (fun e => IsEndless e ∨ Reported catalog resources e) x

section
variable (hx : AllExtracted catalog resources)
include hx

/-- What has a name as a type is an object or an enumeration, and an object is an owner. -/
theorem owner_of_target? {d name : String} {schema : Schema}
    (hname : (Naming.of catalog resources).types.get? d = some name)
    (htarget : catalog.target? d = some schema) :
    schema.isNamed = true ∧
      ∀ fields, schema = .object fields → Owner catalog resources name fields := by
  -- The name was lent by a resource, as its spec or its state, or the definition is named after
  -- itself.
  rcases Naming.get?_of_cases hx hname with
    ⟨r, hr, rfl, rfl⟩ | ⟨r, hr, hstatus, rfl⟩ | ⟨_, _, own, hget, hnamed⟩
  · cases htarget.symm.trans (hx.each r hr).spec_eq
    obtain ⟨fields, hobject⟩ := (hx.each r hr).spec_object
    exact ⟨by rw [hobject]; rfl, fun _ heq => .spec hr heq⟩
  · cases htarget.symm.trans ((hx.each r hr).status_eq d hstatus)
    obtain ⟨fields, hobject⟩ := (hx.each r hr).status_object
    exact ⟨by rw [hobject]; rfl, fun _ heq => .status hr heq⟩
  · -- A definition that is an object itself stands for itself.
    cases htarget.symm.trans (Catalog.target?_of_isNamed hget hnamed)
    refine ⟨hnamed, ?_⟩
    rintro fields rfl
    exact .definition hget hname

/-- Every call fails because of a stuck field, or the guard makes it fail. -/
theorem blames (hclosed : ∀ d schema, catalog.get? d = some schema → Grounded catalog schema) :
    (∀ p d, (∃ name, (Naming.of catalog resources).types.get? d = some name) →
      Explained catalog resources (visit catalog (.of catalog resources) p d)) ∧
    (∀ p name source schema, p.aliases = [] → schema.isNamed = true →
      (∀ fields, schema = .object fields → Owner catalog resources name fields) →
      Explained catalog resources (emit catalog (.of catalog resources) p name source schema)) ∧
    (∀ p owner source identifiers fields, p.aliases = [] →
      (∃ all, Owner catalog resources owner all ∧ fields ⊆ all) →
      Explained catalog resources
        (structFields catalog (.of catalog resources) p owner source identifiers fields)) ∧
    (∀ p owner source field schema,
      (∃ all f, Owner catalog resources owner all ∧ f ∈ all ∧ f.name = field ∧
        Unwraps catalog f.schema p.aliases schema) →
      Explained catalog resources
        (fieldType catalog (.of catalog resources) p owner source field schema)) := by
  apply visit.mutual_induct catalog (.of catalog resources)
  -- `visit`: no name, a name that is being written, and a name that is not.
  · rintro p d hnone ⟨name, hname⟩
    cases hname.symm.trans hnone
  · intro p d name hname hwithin _
    rw [visit_of_name hname, if_pos hwithin]
    exact .pure _
  · intro p d name hname hwithin ih _
    rw [visit_of_name hname, if_neg hwithin]
    refine .get fun w => ?_
    split
    · exact .pure _
    · obtain ⟨schema, htarget⟩ := Naming.exists_target_of_get? hx hname
      obtain ⟨hnamed, howner⟩ := owner_of_target? hx hname htarget
      rw [htarget]
      exact (ih schema rfl hnamed howner).bind fun _ => .pure _
  -- `emit`: an object, an enumeration, and what is neither.
  · intro p name source fields ih hopens _ howner
    rw [emit]
    exact (ih hopens ⟨fields, howner fields rfl, List.Subset.refl _⟩).bind fun _ => .write _
  · intro p name source literals _ _ _
    rw [emit]
    exact .write _
  · intro p name source other hobject henumeration _ hnamed _
    cases other with
    | object fields => exact absurd rfl (hobject fields)
    | enumeration literals => exact absurd rfl (henumeration literals)
    | primitive | array | map | unsupported | reference => cases hnamed
  -- `structFields`
  · intro p owner source identifiers _ _
    rw [structFields]
    exact .pure _
  · rintro p owner source identifiers field rest ihtype ihrest hopens ⟨all, howner, hsub⟩
    obtain ⟨hfirst, hothers⟩ := List.cons_subset.1 hsub
    rw [structFields]
    exact (ihtype ⟨all, field, howner, hfirst, rfl, hopens ▸ .start⟩).bind fun _ =>
      (ihrest _ hopens ⟨all, howner, hothers⟩).bind fun _ => .pure _
  -- `fieldType`: the scalars, lists and maps, and what has no counterpart.
  · intro p owner source field primitive _
    rw [fieldType]
    exact .pure _
  · rintro p owner source field items ih ⟨all, f, howner, hf, hname, hunwraps⟩
    rw [fieldType]
    exact (ih ⟨all, f, howner, hf, hname, hunwraps.items⟩).bind fun _ => .pure _
  · rintro p owner source field values ih ⟨all, f, howner, hf, hname, hunwraps⟩
    rw [fieldType]
    exact (ih ⟨all, f, howner, hf, hname, hunwraps.values⟩).bind fun _ => .pure _
  · rintro p owner source field detail ⟨all, f, howner, hf, rfl, hunwraps⟩
    rw [fieldType]
    exact .throw (.inr ⟨owner, all, f, _, howner, hf, .unsupported hunwraps, rfl⟩)
  -- `fieldType` of a reference: to nothing, to a type, and to any other definition.
  · rintro p owner source field target hnone ⟨all, f, howner, hf, _, hunwraps⟩
    obtain ⟨_, hsome⟩ :=
      hunwraps.grounded hclosed (howner.grounded hclosed hx f hf) target .reference
    cases hnone.symm.trans hsome
  · intro p owner source field target schema hget hnamed ih _
    rw [fieldType_of_get hget, if_pos hnamed]
    exact (ih (Naming.exists_name_of_isNamed hget hnamed resources)).bind fun _ => .pure _
  · rintro p owner source field target schema hget hnamed halias ⟨all, f, howner, hf, rfl, hunwraps⟩
    rw [fieldType_of_get hget, if_neg hnamed, if_pos halias]
    exact .throw (.inr ⟨owner, all, f, _, howner, hf, .again hunwraps halias, rfl⟩)
  · intro p owner source field target schema hget hnamed halias hopener _
    rw [fieldType_of_get hget, if_neg hnamed, if_neg halias, if_pos hopener]
    exact .throw (.inl trivial)
  · rintro p owner source field target schema hget hnamed halias hopener ih
      ⟨all, f, howner, hf, hname, hunwraps⟩
    rw [fieldType_of_get hget, if_neg hnamed, if_neg halias, if_neg hopener]
    exact ih ⟨all, f, howner, hf, hname, hunwraps.passed hget (by simpa using hnamed) halias⟩
  -- `fieldType` of an object or an enumeration without a name.
  · rintro p owner source field schema hprimitive harray hmap hunsupported hreference ih
      ⟨all, f, howner, hf, rfl, hunwraps⟩
    have hnamed := isNamed_of_other hprimitive harray hmap hunsupported hreference
    rw [fieldType_of_isNamed hnamed]
    refine .takeLifted fun taken htaken => (ih _ rfl hnamed ?_).bind fun _ => .pure _
    rintro fields rfl
    exact .inline howner hf hunwraps htaken

/-- If a package has no types, a field is stuck, or the guard has fired. -/
theorem reported_of_extract
    (hclosed : ∀ d schema, catalog.get? d = some schema → Grounded catalog schema) {e : Error}
    (h : extract catalog resources = .error e) : IsEndless e ∨ Reported catalog resources e := by
  obtain ⟨hvisit, hemit, -⟩ := blames hx hclosed
  have hresource (r : Resource) (hr : r ∈ resources) :
      Explained catalog resources (writeResource catalog (.of catalog resources) r) := by
    obtain ⟨_, hobject⟩ := (hx.each r hr).status_object
    -- The state is written under its own name, whatever definition it came from.
    have hstatus := hemit ⟨[r.statusType], [], []⟩ r.statusType (r.schemaName ++ ".status") r.status
      rfl (by rw [hobject]; rfl) fun _ heq => .status hr heq
    refine (hvisit _ _ ⟨_, Naming.get?_schemaName hx hr⟩).discard.bind fun _ => ?_
    split
    · split
      · next hgiven => exact (hvisit _ _ ⟨_, hgiven⟩).discard
      · exact hstatus
    · exact hstatus
  have hdefinition (x : String × Schema) (hmem : x ∈ catalog.entries) :
      Explained catalog resources
        (if x.2.isNamed then discard <| visit catalog (.of catalog resources) ⟨[], [], []⟩ x.1
          else Pure.pure ⟨⟩) := by
    split
    · next hnamed =>
      have hget := Named.Table.get?_eq_some_iff.2 hmem
      exact (hvisit _ _ (Naming.exists_name_of_isNamed hget hnamed resources)).discard
    · exact .pure _
  -- The whole walk starts with the names that were taken for definitions and resources.
  have hwalk := ((Blames.forM hresource).bind fun _ => .forM hdefinition)
    { taken := (Naming.of catalog resources).taken } (List.Subset.refl _)
  have herror {x : Except Error (Unit × Walk)}
      (h : (x >>= fun r => .ok r.2.written) = (.error e : Except Error (List TypeDef))) :
      x = .error e := by
    cases x with
    | error e' =>
      cases h
      rfl
    | ok r => cases h
  exact hwalk.1 e (herror h)

end

end

/-! ### A description -/

/-- Of a description that is resolved and whose resources are found, where the walk over types comes
to an end: it fails exactly if a field of an owner is stuck, and the failure is that of such a
field. -/
theorem extract_fails_iff {api : ApiDescription} {settings : Settings} {catalog : Catalog}
    {resources : List Resource} (h : Resolution.resolveAll api.definitions = .ok catalog)
    (hresources : Extraction.resources api.operations catalog settings = .ok resources)
    {depth : Nat} {result : Except Error (List TypeDef)}
    (hends : Bounded.extract catalog resources depth = some result) :
    extract catalog resources = result ∧
    ((∃ e, result = .error e) ↔
      ∃ name fields f fault, Owner catalog resources name fields ∧ f ∈ fields ∧
        Stuck catalog f.schema fault) ∧
    ∀ e, result = .error e →
      ∃ name fields f fault, Owner catalog resources name fields ∧ f ∈ fields ∧
        Stuck catalog f.schema fault ∧ e = .typeShape name f.name fault := by
  have hx := Extraction.allExtracted_of_resources hresources
  obtain ⟨hextract, hguard⟩ := agrees_extract hends
  have hreported (e : Error) (herror : result = .error e) : Reported catalog resources e :=
    (reported_of_extract hx (fun d schema => grounded_of_resolveAll h)
      (hextract.trans herror)).resolve_left (hguard e herror)
  refine ⟨hextract, ⟨?_, ?_⟩, hreported⟩
  · -- A failure is reported by a stuck field, so there is one.
    rintro ⟨e, herror⟩
    obtain ⟨name, fields, f, fault, howner, hf, hstuck, _⟩ := hreported e herror
    exact ⟨name, fields, f, fault, howner, hf, hstuck⟩
  · -- Had the package types, all its fields could be written, the stuck one included.
    rintro ⟨name, fields, f, fault, howner, hf, hstuck⟩
    cases hresult : result with
    | error e => exact ⟨e, rfl⟩
    | ok types => exact absurd hstuck (howner.not_stuck hx (hextract.trans hresult) hf)

/-! ### Parts of parts

The boxes of a cabinet have no name. A box has parts, and these are lists of parts and nothing else.
A scan has no counterpart, but no field leads to one. -/

namespace Cabinets

open Document

/-- A box without a name, whose parts are parts again. -/
def box : SchemaObject where
  properties := [("parts", { ref := "#/definitions/Parts" })]

/-- Cabinets, their parts and a scan, and the operation that creates cabinets. -/
def api : ApiDescription where
  info := ⟨"Cabinets", "1", none, []⟩
  definitions := .ofList
    [("Cabinet",
      { properties := [("boxes", { type := some (.single "array"), items := some box })] }),
     ("Parts", { type := some (.single "array"), items := some { ref := "#/definitions/Parts" } }),
     ("Scan", { type := some (.single "file") })]
  operations := [⟨"/cabinets", .post, some "CreateCabinet", some "Cabinet", []⟩]

/-- Parts, as they are written out where they are used. -/
def parts : Field Schema := ⟨"parts", .array (.reference "Parts"), false⟩

/-- The boxes of a cabinet, with the box where it is used. -/
def boxes : Field Schema := ⟨"boxes", .array (.object [parts]), false⟩

/-- What the definitions were resolved to: a scan has no counterpart. -/
def catalog : Catalog := .ofList
  [("Cabinet", .object [boxes]), ("Parts", .array (.reference "Parts")),
   ("Scan", .unsupported "type \"file\"")]

/-- The only kind of resource. -/
def cabinet : Resource where
  kind := "Cabinet"
  plural := "cabinets"
  schemaName := "Cabinet"
  spec := .object [boxes]
  status := .emptyObject
  statusSchemaName := none
  operations := [.create]
  specType := "CabinetSpec"
  statusType := "CabinetStatus"

/-- The definitions are resolved, scans included. -/
theorem resolveAll_definitions : Resolution.resolveAll api.definitions = .ok catalog := by cbv

/-- A cabinet is found as a resource. -/
theorem resources_eq : Extraction.resources api.operations catalog {} = .ok [cabinet] := by cbv

/-- The walk gets as far as the parts of a box. -/
theorem bounded_extract : Bounded.extract catalog [cabinet] 12 =
    some (.error (.typeShape "CabinetSpecBoxes" "parts" (.recursiveAlias "Parts"))) := by
  cbv

end Cabinets

/-- The parts of a box are stuck, and that is what the failure says. -/
theorem cabinet_fails :
    Resolution.resolveAll Cabinets.api.definitions = .ok Cabinets.catalog ∧
    Extraction.resources Cabinets.api.operations Cabinets.catalog {} = .ok [Cabinets.cabinet] ∧
    Bounded.extract Cabinets.catalog [Cabinets.cabinet] 12 =
      some (.error (.typeShape "CabinetSpecBoxes" "parts" (.recursiveAlias "Parts"))) ∧
    extract Cabinets.catalog [Cabinets.cabinet] =
      .error (.typeShape "CabinetSpecBoxes" "parts" (.recursiveAlias "Parts")) ∧
    ∃ name fields f fault, Owner Cabinets.catalog [Cabinets.cabinet] name fields ∧ f ∈ fields ∧
      Stuck Cabinets.catalog f.schema fault ∧
      Error.typeShape "CabinetSpecBoxes" "parts" (.recursiveAlias "Parts")
        = .typeShape name f.name fault := by
  obtain ⟨hextract, _, herrors⟩ := extract_fails_iff Cabinets.resolveAll_definitions
    Cabinets.resources_eq Cabinets.bounded_extract
  exact ⟨Cabinets.resolveAll_definitions, Cabinets.resources_eq, Cabinets.bounded_extract, hextract,
    herrors _ rfl⟩

end ControllerTypes.TypeDef
