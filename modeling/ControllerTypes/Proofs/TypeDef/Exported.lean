import ControllerTypes.Proofs.Compiles
import ControllerTypes.Proofs.Name.Exported
import ControllerTypes.Proofs.TypeDef.Sound

/-!
# `ControllerTypes.Proofs.TypeDef.Exported`: the names of types are exported

Every name of a type is an identifier, or is put together from identifiers: kinds and definitions
are spelled as identifiers, a resource puts a word behind its kind, and a type without a definition
is called after its owner and its field. Numbers behind a name leave it what it is. So Go exports
all types of a package (`exported_of_compiles`), and none of them can be mistaken for a type that Go
brings along.
-/

set_option autoImplicit false

namespace ControllerTypes

open Name Named

variable {catalog : Catalog} {resources : List Resource}

/-! ### The names that resources bring with them -/

/-- Every kind is exported. -/
theorem Extraction.exported_kind {operations : List ApiOperation} {settings : Settings}
    (h : Extraction.resources operations catalog settings = .ok resources) :
    ∀ r ∈ resources, Exported r.kind := by
  intro r hr
  have hkind := List.mem_map_of_mem (f := Resource.kind) hr
  rw [kinds_of_resources h] at hkind
  exact exported_of_mem_kindsOf hkind

/-- The type of a spec is exported if the kind is. -/
theorem Resource.Extracted.exported_specType {r : Resource} (h : r.Extracted catalog)
    (hkind : Exported r.kind) : Exported r.specType := by
  rw [h.specType_eq]
  have hword : "Spec".toList.all Text.isAsciiAlphanumeric = true := by decide
  exact hkind.append (List.all_eq_true.1 hword)

/-- The type of a status is exported if the kind is. -/
theorem Resource.Extracted.exported_statusType {r : Resource} (h : r.Extracted catalog)
    (hkind : Exported r.kind) : Exported r.statusType := by
  rw [h.statusType_eq]
  have hword : "Status".toList.all Text.isAsciiAlphanumeric = true := by decide
  exact hkind.append (List.all_eq_true.1 hword)

/-! ### The names of definitions -/

namespace Naming

/-- A definition that is named gets an exported name. -/
theorem exported_add {naming : Naming} (h : ∀ d n, naming.types.get? d = some n → Exported n)
    (definition : String) (schema : Schema) :
    ∀ d n, (naming.add definition schema).types.get? d = some n → Exported n := by
  intro d n hget
  unfold add at hget
  split at hget
  · rw [Table.get?_insertNew] at hget
    rcases Option.or_eq_some_iff.1 hget with hget | ⟨_, hget⟩
    · exact h d n hget
    · split at hget
      · cases hget
        exact exported_takeName (exported_goIdentifier definition (by decide)) _ _
      · cases hget
  · exact h d n hget

/-- Every name that a definition is given is exported. -/
theorem exported_names (hx : AllExtracted catalog resources)
    (hkinds : ∀ r ∈ resources, Exported r.kind) :
    ∀ n ∈ (Naming.of catalog resources).names, Exported n := by
  have hlent (d n : String) (hget : (statuses resources).get? d = some n) : Exported n := by
    rcases get?_statuses_cases hx hget with ⟨r, hr, _, rfl⟩ | ⟨r, hr, _, rfl⟩
    · exact (hx.each r hr).exported_specType (hkinds r hr)
    · exact (hx.each r hr).exported_statusType (hkinds r hr)
  intro n hn
  obtain ⟨d, hget⟩ := mem_names_iff.1 hn
  have hfold : ∀ d n, (Naming.of catalog resources).types.get? d = some n → Exported n :=
    List.foldlRecOn (motive := fun naming : Naming =>
      ∀ d n, naming.types.get? d = some n → Exported n) catalog.entries _ hlent
      fun _ h x _ => exported_add h x.1 x.2
  exact hfold d n hget

end Naming

/-! ### The types of a walk

A type has its name from a definition, from the status of a resource, or from the field it was found
in. What holds of the first two and is handed on to the third holds of all. -/

namespace TypeDef

variable {P : String → Prop} {naming : Naming} {p : Place} {call : Call} {w w' : Walk}

/-- The name of the type a call works for has the property. -/
def Call.NameHas (P : String → Prop) : Call → Prop
  | visit _ _ _ => True
  | emit name _ _ => P name
  | fields owner _ _ _ _ => P owner
  | type owner _ _ _ _ _ => P owner

/-- Every call writes types whose names have the property. -/
theorem Leads.nameHas (hnames : ∀ n ∈ naming.names, P n)
    (hlifted : ∀ owner field taken, P owner →
      P (takeName (owner ++ pascalCase field) taken .types).1)
    (h : Leads catalog naming p call w w') (hcall : call.NameHas P)
    (hw : ∀ t ∈ w.written, P t.name) : ∀ t ∈ w'.written, P t.name := by
  induction h with
  | within | done | nil | primitive => exact hw
  | enter hname _ _ _ _ ih => exact ih (hnames _ (naming.mem_names hname)) hw
  | struct _ ih => exact Walk.forall_written_add.2 ⟨ih hcall hw, hcall⟩
  | enumeration => exact Walk.forall_written_add.2 ⟨hw, hcall⟩
  | cons _ _ ihtype ihrest => exact ihrest hcall (ihtype hcall hw)
  | array _ ih | map _ ih | passed _ _ _ _ _ ih => exact ih hcall hw
  | named _ _ _ ih => exact ih trivial hw
  | @lifted _ owner _ field _ _ _ _ _ ih => exact ih (hlifted owner field _ hcall) hw

section
variable {settings : Settings} {api : ApiDescription} {types : List TypeDef}
  (h : Compiles settings api catalog resources types)
include h

/-- All types of a package have names with the property. -/
theorem nameHas_of_compiles (hnames : ∀ n ∈ (Naming.of catalog resources).names, P n)
    (hstatus : ∀ r ∈ resources, P r.statusType)
    (hlifted : ∀ owner field taken, P owner →
      P (takeName (owner ++ pascalCase field) taken .types).1) : ∀ t ∈ types, P t.name := by
  obtain ⟨w, rfl, _, _, hall⟩ := extract_invariant (I := fun w => ∀ t ∈ w.written, P t.name)
    h.allExtracted h.written
    (fun root hroot w w' hturn hs hfresh hw => by
      cases root with
      | definition d =>
        obtain ⟨_, hvisit⟩ := hturn
        exact hvisit.nameHas hnames hlifted trivial hw
      | status r =>
        have hname : P r.statusType := hstatus r (mem_of_status_mem_roots hroot)
        exact Leads.nameHas hnames hlifted hturn hname hw)
    (fun _ ht => nomatch ht)
  exact hall

/-- All types of a package have exported names. -/
theorem exported_of_compiles : ∀ t ∈ types, Exported t.name := by
  have hkinds := Extraction.exported_kind h.extracted
  exact nameHas_of_compiles h (Naming.exported_names h.allExtracted hkinds)
    (fun r hr => (h.allExtracted.each r hr).exported_statusType (hkinds r hr))
    fun _ _ taken howner => exported_takeName
      (howner.append fun _ => isAsciiAlphanumeric_of_mem_pascalCase) taken .types

end

end TypeDef

end ControllerTypes
