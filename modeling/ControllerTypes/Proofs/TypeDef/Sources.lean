import ControllerTypes.Proofs.Resolution.History
import ControllerTypes.Proofs.Source.Lines
import ControllerTypes.Proofs.TypeDef.Exported

/-!
# `ControllerTypes.Proofs.TypeDef.Sources`: where types say they come from

Each type is written down with its source: the definition it was made of, or for an object without a
name the source of its owner and the field it was found in, and so on from there. So a source is put
together from the name of one definition and from keys of fields. The fields in question are written
in the end, each with the type that has it, and if their keys and the names of the definitions are
one line each, then so are all sources (`oneLine_source_of_compiles`).

Only definitions that come up in the result count. Another definition may have any name.
-/

set_option autoImplicit false

namespace ControllerTypes

open Source

/-- The definition comes up as the source of a type or of a part of a resource. -/
def Mentioned (resources : List Resource) (types : List TypeDef) (d : String) : Prop :=
  (∃ t ∈ types, t.source = d) ∨ ∃ r ∈ resources, d ∈ r.shown

section
variable {settings : Settings} {api : ApiDescription} {catalog : Catalog}
  {resources : List Resource} {types : List TypeDef}

/-- The definitions that have names for types are those of the description. -/
theorem mem_definitions_of_named (h : Compiles settings api catalog resources types) {d : String}
    (hd : d ∈ (Naming.of catalog resources).types.names) : d ∈ api.definitions.names := by
  obtain ⟨name, hname⟩ := Named.Table.mem_names_iff.1 hd
  obtain ⟨_, htarget⟩ := Naming.exists_target_of_get? h.allExtracted hname
  exact (Resolution.resolved_of_resolveAll h.resolved).names_eq ▸
    Catalog.mem_names_of_target? htarget

/-- And so are the definitions that resources come from. -/
theorem mem_definitions_of_shown (h : Compiles settings api catalog resources types) {r : Resource}
    (hr : r ∈ resources) : ∀ d ∈ r.shown, d ∈ api.definitions.names := by
  have hx := h.allExtracted.each r hr
  rw [← (Resolution.resolved_of_resolveAll h.resolved).names_eq]
  refine List.forall_mem_cons.2 ⟨Catalog.mem_names_of_target? hx.spec_eq, fun d hd => ?_⟩
  exact Catalog.mem_names_of_target? (hx.status_eq d (Option.mem_toList.1 hd))

end

namespace TypeDef

variable {catalog : Catalog} {naming : Naming} {p : Place} {call : Call} {w w' : Walk}

/-- A source is one line if it is a definition, and so are the keys of the fields. -/
structure Unbroken (naming : Naming) (t : TypeDef) : Prop where
  source : t.source ∈ naming.types.names → OneLine t.source
  keys : ∀ f ∈ t.fields, OneLine f.jsonName

/-- The source a call works for is one line, and so are the keys of the fields it is about. -/
def Call.Unbroken : Call → Prop
  | visit _ _ _ => True
  | emit _ source _ => OneLine source
  | fields _ source _ _ definitions => OneLine source ∧ ∀ f ∈ definitions, OneLine f.jsonName
  | type _ source field _ _ _ => OneLine source ∧ OneLine field

/-- What is emitted is written down with its source. -/
theorem Leads.exists_source {name source : String} {schema : Schema}
    (h : Leads catalog naming p (.emit name source schema) w w') :
    ∃ t ∈ w'.written, t.source = source := by
  cases h with
  | struct | enumeration =>
    exact ⟨_, List.mem_append_right _ (List.mem_singleton.2 rfl), rfl⟩

/-- Every call writes types whose sources are one line, if what is written in the end gives no reason
against it. -/
theorem Leads.oneLine_source (h : Leads catalog naming p call w w') (hcall : call.Unbroken)
    (hw : ∀ t ∈ w.written, OneLine t.source) (hend : ∀ t ∈ w'.written, t.Unbroken naming) :
    ∀ t ∈ w'.written, OneLine t.source := by
  -- The induction follows the sources: a definition, or the source of the owner and a key.
  induction h with
  | within | done | nil | primitive => exact hw
  | enter hname _ _ _ hemit ih =>
    -- The type of the definition is written in the end with that source, so the source is one line.
    obtain ⟨t, ht, rfl⟩ := hemit.exists_source
    exact ih ((hend t ht).source (Named.Table.mem_names_of_get? hname)) hw hend
  | struct _ ih =>
    obtain ⟨hend', hnew⟩ := Walk.forall_written_add.1 hend
    exact Walk.forall_written_add.2 ⟨ih ⟨hcall, hnew.keys⟩ hw hend', hcall⟩
  | enumeration => exact Walk.forall_written_add.2 ⟨hw, hcall⟩
  -- The first field is written in the end as well, since nothing is taken back.
  | cons _ hrest ihtype ihrest =>
    obtain ⟨hsource, hkeys⟩ := hcall
    obtain ⟨hkey, hothers⟩ := List.forall_mem_cons.1 hkeys
    have hfirst := ihtype ⟨hsource, hkey⟩ hw fun t ht => hend t (hrest.extends.written.subset ht)
    exact ihrest ⟨hsource, hothers⟩ hfirst hend
  | array _ ih | map _ ih | passed _ _ _ _ _ ih => exact ih hcall hw hend
  | named _ _ _ ih => exact ih trivial hw hend
  | lifted _ _ ih =>
    -- The dot between a source and a key breaks no line.
    have hdot : OneLine "." := by decide
    exact ih (oneLine_append.2 ⟨oneLine_append.2 ⟨hcall.1, hdot⟩, hcall.2⟩) hw hend

/-- The sources of a package are one line each if the keys of its fields are, and the definitions
that it mentions. -/
theorem oneLine_source_of_compiles {settings : Settings} {api : ApiDescription}
    {resources : List Resource} {types : List TypeDef}
    (h : Compiles settings api catalog resources types)
    (hdefinitions : ∀ d ∈ api.definitions.names, Mentioned resources types d → OneLine d)
    (hkeys : ∀ t ∈ types, ∀ f ∈ t.fields, OneLine f.jsonName) : ∀ t ∈ types, OneLine t.source := by
  -- A resource mentions its own definition.
  have hresource (r : Resource) (hr : r ∈ resources) : OneLine r.schemaName :=
    hdefinitions _ (mem_definitions_of_shown h hr _ List.mem_cons_self)
      (.inr ⟨r, hr, List.mem_cons_self⟩)
  -- The invariant has the end as its hypothesis: what is written in the end is fine as far as it
  -- was written by now.
  obtain ⟨w, rfl, _, _, hall⟩ := extract_invariant
    (I := fun w => (∀ t ∈ w.written, t.Unbroken (.of catalog resources)) →
      ∀ t ∈ w.written, OneLine t.source) h.allExtracted h.written
    (fun root hroot w w' hturn _ _ hw hend => by
      have hstart := hw fun t ht => hend t ((Root.extends hturn).written.subset ht)
      cases root with
      | definition d =>
        obtain ⟨_, hvisit⟩ := hturn
        exact hvisit.oneLine_source trivial hstart hend
      | status r =>
        have hpath : OneLine (r.schemaName ++ ".status") :=
          oneLine_append.2 ⟨hresource r (mem_of_status_mem_roots hroot), by decide⟩
        exact Leads.oneLine_source hturn hpath hstart hend)
    (fun _ _ ht => nomatch ht)
  exact hall fun t ht => ⟨fun hnamed => hdefinitions _ (mem_definitions_of_named h hnamed)
    (.inl ⟨t, ht, rfl⟩), hkeys t ht⟩

end TypeDef

end ControllerTypes
