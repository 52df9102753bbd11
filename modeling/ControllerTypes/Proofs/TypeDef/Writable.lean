import ControllerTypes.Proofs.TypeDef.Lockstep
import ControllerTypes.Proofs.TypeDef.Origin

/-!
# `ControllerTypes.Proofs.TypeDef.Writable`: which catalogs have types

The walk over types fails where a schema has no counterpart, and where definitions that are no types
go round in a circle. Both are matters of a schema and of what it refers to, and have nothing to do
with what was written before. `Writable` says of a schema that the walk gets through it: there is
one rule for each form, and the rule for a definition that is no type has the two guards of the
walk. What was written is writable (`Leads.writable`), and a walk never fails on writable schemas
(`total`).

So a catalog has types exactly if the definitions and states that need one are writable
(`exists_extract_iff`), and with one catalog every other that looks the same has types
(`exists_extract`).
-/

set_option autoImplicit false

namespace ControllerTypes.TypeDef

open Name Run

variable {catalog catalog' : Catalog} {naming naming' : Naming} {p : Place} {call : Call}
  {w w' : Walk} {schema : Schema} {openers openers' aliases : List String}

/-! ### Schemas that can be written -/

/-- The walk gets through the schema, inside of the definitions `aliases` that are no types, with
`openers` remembered. -/
inductive Writable (catalog : Catalog) : List String → List String → Schema → Prop where
  | primitive {openers aliases : List String} {primitive : Primitive} :
      Writable catalog openers aliases (.primitive primitive)
  | array {openers aliases : List String} {items : Schema}
      (hitems : Writable catalog openers aliases items) :
      Writable catalog openers aliases (.array items)
  | map {openers aliases : List String} {values : Schema}
      (hvalues : Writable catalog openers aliases values) :
      Writable catalog openers aliases (.map values)
  | named {openers aliases : List String} {target : String} {schema : Schema}
      (hget : catalog.get? target = some schema) (hnamed : schema.isNamed = true) :
      Writable catalog openers aliases (.reference target)
  | passed {openers aliases : List String} {target : String} {schema : Schema}
      (hget : catalog.get? target = some schema) (hnamed : schema.isNamed = false)
      (halias : target ∉ aliases) (hopener : ¬ (aliases = [] ∧ target ∈ openers))
      (hschema : Writable catalog (if aliases = [] then target :: openers else openers)
        (target :: aliases) schema) :
      Writable catalog openers aliases (.reference target)
  | object {openers aliases : List String} {fields : List (Field Schema)}
      (hfields : ∀ field ∈ fields, Writable catalog openers [] field.schema) :
      Writable catalog openers aliases (.object fields)
  | enumeration {openers aliases : List String} {literals : List String} :
      Writable catalog openers aliases (.enumeration literals)

/-- Fewer definitions may be remembered. -/
theorem Writable.mono (h : Writable catalog openers aliases schema) (hsub : openers' ⊆ openers) :
    Writable catalog openers' aliases schema := by
  induction h generalizing openers' with
  | primitive => exact .primitive
  | array _ ih => exact .array (ih hsub)
  | map _ ih => exact .map (ih hsub)
  | named hget hnamed => exact .named hget hnamed
  -- Fewer openers refuse less, also after one more was added.
  | passed hget hnamed halias hopener _ ih =>
    refine .passed hget hnamed halias (fun hguard => hopener ⟨hguard.1, hsub hguard.2⟩) (ih ?_)
    split
    · exact List.cons_subset_cons _ hsub
    · exact hsub
  | object _ ih => exact .object fun field hfield => ih field hfield hsub
  | enumeration => exact .enumeration

/-- The definitions around an object or an enumeration do not matter to it. -/
theorem Writable.of_isNamed {aliases' : List String} (h : Writable catalog openers aliases schema)
    (hnamed : schema.isNamed = true) : Writable catalog openers aliases' schema := by
  -- The aliases are forgotten where an object begins.
  cases h with
  | object hfields => exact .object hfields
  | enumeration => exact .enumeration
  | primitive | array | map | named | passed => cases hnamed

/-- The schema can be written as a type of its own. -/
def Standalone (catalog : Catalog) (schema : Schema) : Prop :=
  schema.isNamed = true ∧ Writable catalog [] [] schema

/-- Whether a schema can be written does not depend on the order of the catalog. -/
theorem writable_congr (hget : ∀ d, catalog.get? d = catalog'.get? d)
    (h : Writable catalog openers aliases schema) : Writable catalog' openers aliases schema := by
  induction h with
  | primitive => exact .primitive
  | array _ ih => exact .array ih
  | map _ ih => exact .map ih
  | named hthere hnamed => exact .named ((hget _).symm.trans hthere) hnamed
  | passed hthere hnamed halias hopener _ ih =>
    exact .passed ((hget _).symm.trans hthere) hnamed halias hopener ih
  | object _ ih => exact .object ih
  | enumeration => exact .enumeration

/-! ### What was written is writable -/

/-- What a call writes at a place is writable there. A type is written at a place of its own, which
is inside of no definition that is no type. -/
def Call.Writable (catalog : Catalog) (p : Place) : Call → Prop
  | visit .. => True
  | emit _ _ schema =>
    p.aliases = [] → schema.isNamed = true ∧ TypeDef.Writable catalog p.openers [] schema
  | fields _ _ _ asked _ =>
    ∀ field ∈ asked, TypeDef.Writable catalog p.openers p.aliases field.schema
  | type _ _ _ schema _ _ => TypeDef.Writable catalog p.openers p.aliases schema

/-- What a call wrote at a place is writable there. -/
theorem Leads.writable (h : Leads catalog naming p call w w') : call.Writable catalog p := by
  -- The rules of `Leads` and those of `Writable` correspond one for one.
  induction h with
  | within | done | enter => trivial
  | struct _ ih => exact fun hopens => ⟨rfl, .object (hopens ▸ ih)⟩
  | enumeration => exact fun _ => ⟨rfl, .enumeration⟩
  | nil => exact List.forall_mem_nil _
  | cons _ _ ihtype ihrest => exact List.forall_mem_cons.2 ⟨ihtype, ihrest⟩
  | primitive => exact Writable.primitive
  | array _ ih => exact Writable.array ih
  | map _ ih => exact Writable.map ih
  | named hget hnamed => exact Writable.named hget hnamed
  | passed hget hnamed halias hopener _ ih => exact Writable.passed hget hnamed halias hopener ih
  | lifted hnamed _ ih => exact (ih rfl).2.of_isNamed hnamed

/-- A type that is written from its own root stands alone. -/
theorem Leads.standalone {name source : String} {within : List String}
    (h : Leads catalog naming ⟨within, openers, []⟩ (.emit name source schema) w w') :
    Standalone catalog schema := by
  obtain ⟨hnamed, hwritable⟩ := h.writable rfl
  exact ⟨hnamed, hwritable.mono (List.nil_subset _)⟩

/-- Each definition whose type is written stands alone. -/
def Walk.Standalone (catalog : Catalog) (naming : Naming) (w : Walk) : Prop :=
  ∀ d name, naming.types.get? d = some name → name ∈ w.done →
    ∃ schema, catalog.target? d = some schema ∧ TypeDef.Standalone catalog schema

/-- Every call keeps it so. A type that is written for a definition is written at a place of its own
and for what the definition stands for. -/
theorem Leads.keeps_standalone (hn : naming.Proper) (h : Leads catalog naming p call w w')
    (hs : w.Sound naming p.within) (hfits : call.Fits catalog naming p.within)
    (hopens : ∀ name source schema, call = .emit name source schema → p.aliases = [])
    (hw : w.Standalone catalog naming) : w'.Standalone catalog naming := by
  induction h with
  | within | done | nil | primitive => exact hw
  | enter hname hwithin hdone htarget _ ih =>
    exact ih (hs.enterNamed hn hname hdone) (fits_enter hn hname hwithin htarget)
      (fun _ _ _ _ => rfl) hw
  -- The struct that is finished stands alone by its own call, and every other type did so before.
  | @struct p _ _ _ _ _ _ hfields ih =>
    intro d name hname hdone
    rcases List.mem_cons.1 hdone with rfl | hdone
    · obtain ⟨within, openers, aliases⟩ := p
      obtain rfl : aliases = [] := hopens _ _ _ rfl
      exact ⟨_, hfits.2 d hname, (Leads.struct hfields).standalone⟩
    · exact ih hs trivial (fun _ _ _ heq => nomatch heq) hw d name hname hdone
  | enumeration =>
    intro d name hname hdone
    rcases List.mem_cons.1 hdone with rfl | hdone
    · exact ⟨_, hfits.2 d hname, rfl, .enumeration⟩
    · exact hw d name hname hdone
  | cons htype _ ihtype ihrest =>
    exact ihrest (htype.sound hn hs trivial) trivial (fun _ _ _ heq => nomatch heq)
      (ihtype hs trivial (fun _ _ _ heq => nomatch heq) hw)
  | array _ ih | map _ ih | named _ _ _ ih | passed _ _ _ _ _ ih =>
    exact ih hs trivial (fun _ _ _ heq => nomatch heq) hw
  | lifted _ _ ih =>
    exact ih (hs.lift _ _) (fits_lift hn hs _ _ _ _) (fun _ _ _ _ => rfl) hw

/-! ### What is writable is written -/

/-- The step succeeds in whatever state the walk is. -/
def Total {α : Type} (x : Step α) : Prop := ∀ w, ∃ r, x.run w = .ok r

namespace Total

variable {α β : Type} {x : Step α} {f : α → Step β}

/-- A step that answers succeeds. -/
theorem pure (a : α) : Total (Pure.pure a : Step α) := fun w => ⟨(a, w), rfl⟩

/-- Steps that succeed do so one after the other. -/
theorem bind (hx : Total x) (hf : ∀ a, Total (f a)) : Total (x >>= f) := by
  intro w
  obtain ⟨⟨a, w₁⟩, ha⟩ := hx w
  obtain ⟨r, hr⟩ := hf a w₁
  exact ⟨r, run_bind_eq_ok.2 ⟨a, w₁, ha, hr⟩⟩

/-- Looking at the state succeeds. -/
theorem get : Total (MonadState.get : Step Walk) := fun w => ⟨(w, w), rfl⟩

/-- Writing a type succeeds. -/
theorem write (t : TypeDef) : Total (TypeDef.write t) := fun w => ⟨((), w.add t), rfl⟩

/-- Taking a name for an object succeeds. -/
theorem takeLifted (owner field : String) : Total (TypeDef.takeLifted owner field) :=
  fun _ => ⟨_, rfl⟩

/-- A step succeeds if it does so without its answer. -/
theorem discard (hx : Total x) : Total (discard x) := by
  intro w
  obtain ⟨⟨a, w'⟩, ha⟩ := hx w
  exact ⟨((), w'), run_discard_eq_ok.2 ⟨a, ha⟩⟩

/-- A loop succeeds if each round does. -/
theorem forM {f : α → Step PUnit} {xs : List α} (h : ∀ x ∈ xs, Total (f x)) :
    Total (xs.forM f) := by
  induction xs with
  | nil => exact .pure _
  | cons x rest ih =>
    obtain ⟨hfirst, hrest⟩ := List.forall_mem_cons.1 h
    exact .bind hfirst fun _ => ih hrest

end Total

/-- The walk succeeds on what is writable, if each definition that needs a type has a name, and each
that has a name stands alone. -/
theorem total
    (hneeds : ∀ d schema, catalog.get? d = some schema → schema.isNamed = true →
      ∃ name, naming.types.get? d = some name)
    (hstands : ∀ d name, naming.types.get? d = some name →
      ∃ schema, catalog.target? d = some schema ∧ Standalone catalog schema) :
    (∀ p d, (∃ name, naming.types.get? d = some name) → Total (visit catalog naming p d)) ∧
    (∀ p name source schema, p.aliases = [] → schema.isNamed = true →
      Writable catalog p.openers [] schema → Total (emit catalog naming p name source schema)) ∧
    (∀ p owner source identifiers fields,
      (∀ field ∈ fields, Writable catalog p.openers p.aliases field.schema) →
      Total (structFields catalog naming p owner source identifiers fields)) ∧
    (∀ p owner source field schema, Writable catalog p.openers p.aliases schema →
      Total (fieldType catalog naming p owner source field schema)) := by
  apply visit.mutual_induct catalog naming
  -- `visit`: no name, a name that is being written, and a name that is not.
  · rintro p d hnone ⟨name, hname⟩
    cases hname.symm.trans hnone
  · intro p d name hname hwithin _
    rw [visit_of_name hname, if_pos hwithin]
    exact .pure _
  · intro p d name hname hwithin ih _
    rw [visit_of_name hname, if_neg hwithin]
    refine .bind .get fun w => ?_
    split
    · exact .pure _
    · obtain ⟨schema, htarget, hnamed, hwritable⟩ := hstands d name hname
      rw [htarget]
      exact .bind (ih schema rfl hnamed hwritable) fun _ => .pure _
  -- `emit`: an object, an enumeration, and what is neither.
  · intro p name source fields ih hopens _ hwritable
    cases hwritable with
    | object hfields =>
      rw [emit]
      exact .bind (ih (hopens ▸ hfields)) fun _ => .write _
  · intro p name source literals _ _ _
    rw [emit]
    exact .write _
  · intro p name source other hobject henumeration _ hnamed _
    cases other with
    | object fields => exact absurd rfl (hobject fields)
    | enumeration literals => exact absurd rfl (henumeration literals)
    | primitive | array | map | unsupported | reference => cases hnamed
  -- `structFields`
  · intro p owner source identifiers _
    rw [structFields]
    exact .pure _
  · intro p owner source identifiers field rest ihtype ihrest hfields
    obtain ⟨hfirst, hothers⟩ := List.forall_mem_cons.1 hfields
    rw [structFields]
    exact .bind (ihtype hfirst) fun _ => .bind (ihrest _ hothers) fun _ => .pure _
  -- `fieldType`: the scalars, lists and maps, and what has no counterpart.
  · intro p owner source field primitive _
    rw [fieldType]
    exact .pure _
  · intro p owner source field items ih hwritable
    cases hwritable with
    | array hitems =>
      rw [fieldType]
      exact .bind (ih hitems) fun _ => .pure _
  · intro p owner source field values ih hwritable
    cases hwritable with
    | map hvalues =>
      rw [fieldType]
      exact .bind (ih hvalues) fun _ => .pure _
  · intro p owner source field detail hwritable
    cases hwritable
  -- `fieldType` of a reference: to nothing, to a type, and to any other definition.
  · intro p owner source field target hnone hwritable
    cases hwritable with
    | named hget | passed hget => cases hnone.symm.trans hget
  · intro p owner source field target schema hget hnamed ih _
    rw [fieldType_of_get hget, if_pos hnamed]
    exact .bind (ih (hneeds target schema hget hnamed)) fun _ => .pure _
  · intro p owner source field target schema hget hnamed halias hwritable
    cases hwritable with
    | named hget' hnamed' =>
      cases hget.symm.trans hget'
      exact absurd hnamed' hnamed
    | passed _ _ hnot => exact absurd halias hnot
  · intro p owner source field target schema hget hnamed halias hopener hwritable
    cases hwritable with
    | named hget' hnamed' =>
      cases hget.symm.trans hget'
      exact absurd hnamed' hnamed
    | passed _ _ _ hnot => exact absurd hopener hnot
  · intro p owner source field target schema hget hnamed halias hopener ih hwritable
    rw [fieldType_of_get hget, if_neg hnamed, if_neg halias, if_neg hopener]
    cases hwritable with
    | named hget' hnamed' =>
      cases hget.symm.trans hget'
      exact absurd hnamed' hnamed
    | passed hget' _ _ _ hschema =>
      cases hget.symm.trans hget'
      exact ih hschema
  -- `fieldType` of an object or an enumeration without a name.
  · intro p owner source field schema hprimitive harray hmap hunsupported hreference ih hwritable
    have hnamed := isNamed_of_other hprimitive harray hmap hunsupported hreference
    rw [fieldType]
    · exact .bind (.takeLifted _ _) fun lifted =>
        .bind (ih lifted rfl hnamed (hwritable.of_isNamed hnamed)) fun _ => .pure _
    all_goals assumption

/-! ### Catalogs that have types -/

section
variable {resources : List Resource} {types : List TypeDef}

/-- A catalog with its resources has types exactly if the definitions that go by the name of a type
stand for something that can be one, and so does every state. -/
theorem exists_extract_iff (hx : AllExtracted catalog resources) :
    (∃ types, extract catalog resources = .ok types) ↔
      (∀ d name, (Naming.of catalog resources).types.get? d = some name →
        ∃ schema, catalog.target? d = some schema ∧ Standalone catalog schema) ∧
      ∀ r ∈ resources, Standalone catalog r.status := by
  have hn := Naming.proper_of hx
  constructor
  · -- Every definition with a name has its turn as a root, and what was written stands alone.
    rintro ⟨types, h⟩
    obtain ⟨w, -, hleads, -, hw⟩ := extract_invariant
      (I := fun w => w.Standalone catalog (.of catalog resources)) hx h
      (fun root _ w w' hroot hs hfresh hw => by
        obtain ⟨p, call, hturn, hsound, hfits, _, _, _, hopens⟩ := Root.exists_call hroot hs hfresh
        exact hturn.keeps_standalone hn hsound hfits (fun _ _ _ _ => hopens) hw)
      (fun _ _ _ hdone => nomatch hdone)
    have hdefinitions {d name : String}
        (hname : (Naming.of catalog resources).types.get? d = some name) :=
      hw d name hname (hleads.mem_done (mem_roots_of_get? hx hname) hname)
    refine ⟨fun d name hname => hdefinitions hname, fun r hr => ?_⟩
    have hroot := statusRoot_mem_roots catalog (.of catalog resources) hr
    -- A status is written from its own root, or it is the type of its definition.
    rcases statusRoot_cases (.of catalog resources) r with heq | ⟨d, hstatus, hgiven, heq⟩
    · obtain ⟨_, _, _, hturn, _⟩ := hleads.exists_of_mem (heq ▸ hroot)
      exact Leads.standalone hturn
    · obtain ⟨schema, htarget, hstandalone⟩ := hdefinitions hgiven
      cases htarget.symm.trans ((hx.each r hr).status_eq d hstatus)
      exact hstandalone
  · -- No step of the walk fails, from whatever state: not on a resource, and not on a definition.
    rintro ⟨hstands, hstatuses⟩
    have hneeds (d : String) (schema : Schema) (hget : catalog.get? d = some schema)
        (hnamed : schema.isNamed = true) := Naming.exists_name_of_isNamed hget hnamed resources
    obtain ⟨hvisit, hemit, -⟩ := total hneeds hstands
    have hwrite (r : Resource) (hr : r ∈ resources) :
        Total (writeResource catalog (.of catalog resources) r) := by
      have hstatus : Total (writeResource.writeStatus catalog (.of catalog resources) r) :=
        hemit _ _ _ _ rfl (hstatuses r hr).1 (hstatuses r hr).2
      refine .bind (hvisit _ _ ⟨_, Naming.get?_schemaName hx hr⟩).discard fun _ => ?_
      split
      · split
        · next hgiven => exact (hvisit _ _ ⟨_, hgiven⟩).discard
        · exact hstatus
      · exact hstatus
    have hdefine (x : String × Schema) (hmem : x ∈ catalog.entries) :
        Total (if x.2.isNamed then discard <| visit catalog (.of catalog resources) ⟨[], [], []⟩ x.1
          else Pure.pure ⟨⟩) := by
      split
      · next hnamed =>
        exact (hvisit _ _ (hneeds x.1 x.2 (Named.Table.get?_eq_some_iff.2 hmem) hnamed)).discard
      · exact .pure _
    obtain ⟨⟨⟨⟩, w⟩, hrun⟩ := (Total.bind (.forM hwrite) fun _ => .forM hdefine)
      { taken := (Naming.of catalog resources).taken }
    exact ⟨w.written, bind_eq_ok.2 ⟨_, hrun, rfl⟩⟩

/-- If a catalog has types, then so has every other one that looks the same. -/
theorem exists_extract (hx : AllExtracted catalog resources)
    (hx' : AllExtracted catalog' resources)
    (ha : Alike catalog catalog' (.of catalog resources) (.of catalog' resources))
    (h : extract catalog resources = .ok types) :
    ∃ types', extract catalog' resources = .ok types' := by
  obtain ⟨hstands, hstatuses⟩ := (exists_extract_iff hx).1 ⟨types, h⟩
  -- Standing alone is a matter of lookups, which are the same in both catalogs.
  have hstandalone {schema : Schema} (hs : Standalone catalog schema) :
      Standalone catalog' schema :=
    ⟨hs.1, writable_congr ha.get hs.2⟩
  refine (exists_extract_iff hx').2 ⟨fun d name hname => ?_, fun r hr => ?_⟩
  · obtain ⟨schema, htarget, hs⟩ := hstands d name ((ha.name d).trans hname)
    exact ⟨schema, (ha.target d).symm.trans htarget, hstandalone hs⟩
  · exact hstandalone (hstatuses r hr)

end

end ControllerTypes.TypeDef
