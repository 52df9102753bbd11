import ControllerTypes.Proofs.Name.OneWord
import ControllerTypes.Proofs.TypeDef.Exported

/-!
# `ControllerTypes.Proofs.TypeDef.Spelled`: how types and what is in them are spelled

The fields of a struct and the values of an enumeration are given identifiers one after the other,
and each keeps clear of those before it. So they are exported, and no two in one type are the same
(`TypeShape.Identified`, `identified_of_compiles`).

The names of types are exported as well, so none of all these names has an underscore. This is what
the constants of a package need, which are put together with one: `TypeDef.Spelled` says it of a
type, and `spelled_of_compiles` of all types of a package.
-/

set_option autoImplicit false

namespace ControllerTypes

open Name

/-- Every kind is one word. -/
theorem Extraction.oneWord_kind {operations : List ApiOperation} {catalog : Catalog}
    {settings : Settings} {resources : List Resource}
    (h : Extraction.resources operations catalog settings = .ok resources) :
    ∀ r ∈ resources, OneWord r.kind :=
  fun r hr => (exported_kind h r hr).oneWord

/-- The identifiers in a body are exported, and no two of them are the same. -/
def TypeShape.Identified : TypeShape → Prop
  | struct fields => (fields.map FieldDefinition.name).Nodup ∧ ∀ f ∈ fields, Exported f.name
  | enumeration values => (values.map EnumValue.goName).Nodup ∧ ∀ v ∈ values, Exported v.goName

namespace TypeDef

/-! ### The values of an enumeration -/

/-- The identifiers are distinct and exported, and none of them was taken. -/
theorem distinctIdentifiers_spec {lead : String} (hlead : Exported lead) (names : List String) :
    ∀ taken, (distinctIdentifiers lead taken names).Nodup ∧
      ∀ s ∈ distinctIdentifiers lead taken names, Exported s ∧ s ∉ taken := by
  induction names with
  | nil =>
    intro taken
    exact ⟨List.nodup_nil, fun s hs => nomatch hs⟩
  | cons name rest ih =>
    intro taken
    have hnew := takeName_fst_not_mem (goIdentifier name lead) taken .nothing
    have hexported := exported_takeName (exported_goIdentifier name hlead) taken .nothing
    obtain ⟨hnodup, heach⟩ := ih (takeName (goIdentifier name lead) taken .nothing).2
    refine ⟨List.nodup_cons.2 ⟨?_, hnodup⟩, List.forall_mem_cons.2 ⟨⟨hexported, hnew⟩, ?_⟩⟩
    · exact fun hmem => (heach _ hmem).2 List.mem_cons_self
    · intro s hs
      exact ⟨(heach s hs).1, fun hmem => (heach s hs).2 (List.mem_cons_of_mem _ hmem)⟩

/-- There are as many identifiers as there are names. -/
theorem length_distinctIdentifiers (lead : String) (names : List String) :
    ∀ taken, (distinctIdentifiers lead taken names).length = names.length := by
  induction names with
  | nil =>
    intro taken
    rfl
  | cons name rest ih =>
    intro taken
    rw [distinctIdentifiers, List.length_cons, List.length_cons, ih]

/-- The values of an enumeration are its literals. -/
theorem map_value_enumValues (literals : List String) :
    (enumValues literals).map EnumValue.value = literals := by
  rw [enumValues, List.map_zipWith]
  apply List.ext_getElem
  · rw [List.length_zipWith, length_distinctIdentifiers, Nat.min_self]
  · intro i _ _
    rw [List.getElem_zipWith]

/-- The values of an enumeration have the identifiers of its literals. -/
theorem map_goName_enumValues (literals : List String) :
    (enumValues literals).map EnumValue.goName = distinctIdentifiers "Value" [] literals := by
  rw [enumValues, List.map_zipWith]
  apply List.ext_getElem
  · rw [List.length_zipWith, length_distinctIdentifiers, Nat.min_self]
  · intro i _ _
    rw [List.getElem_zipWith]

/-! ### The types of a walk -/

/-- The name of the type is one word, and so are the names of its values, which are distinct. -/
structure Spelled (t : TypeDef) : Prop where
  name : OneWord t.name
  values : ∀ values, t.shape = .enumeration values →
    (values.map EnumValue.goName).Nodup ∧ ∀ v ∈ values, OneWord v.goName

variable {catalog : Catalog} {naming : Naming} {p : Place} {call : Call} {w w' : Walk}

/-- The identifiers that a call answers are exported, and it was free to give them. -/
def Call.Identified : Call → Prop
  | fields _ _ identifiers _ definitions => (definitions.map FieldDefinition.name).Nodup ∧
      ∀ f ∈ definitions, Exported f.name ∧ f.name ∉ identifiers
  | visit _ _ _ | emit _ _ _ | type _ _ _ _ _ _ => True

/-- The values of an enumeration have distinct identifiers. -/
theorem identified_enumValues (literals : List String) :
    (TypeShape.enumeration (enumValues literals)).Identified := by
  have hlead : Exported "Value" := by decide
  obtain ⟨hnodup, heach⟩ := distinctIdentifiers_spec hlead literals []
  rw [← map_goName_enumValues] at hnodup heach
  exact ⟨hnodup, fun v hv => (heach _ (List.mem_map_of_mem hv)).1⟩

/-- Every call writes types with distinct identifiers. -/
theorem Leads.identified (h : Leads catalog naming p call w w')
    (hw : ∀ t ∈ w.written, t.shape.Identified) :
    (∀ t ∈ w'.written, t.shape.Identified) ∧ call.Identified := by
  induction h with
  | within | done | primitive => exact ⟨hw, trivial⟩
  | struct _ ih =>
    obtain ⟨hwritten, hnodup, heach⟩ := ih hw
    have hstruct : (TypeShape.struct _).Identified := ⟨hnodup, fun f hf => (heach f hf).1⟩
    exact ⟨Walk.forall_written_add.2 ⟨hwritten, hstruct⟩, trivial⟩
  | enumeration => exact ⟨Walk.forall_written_add.2 ⟨hw, identified_enumValues _⟩, trivial⟩
  | nil => exact ⟨hw, List.nodup_nil, fun _ hf => nomatch hf⟩
  | @cons _ _ _ identifiers field _ _ _ _ _ _ _ _ _ ihtype ihrest =>
    obtain ⟨hwritten, hnodup, heach⟩ := ihrest (ihtype hw).1
    have hlead : Exported "Field" := by decide
    have hexported := exported_takeName (exported_goIdentifier field.name hlead) identifiers .nothing
    have hnew := takeName_fst_not_mem (goIdentifier field.name "Field") identifiers .nothing
    refine ⟨hwritten, List.nodup_cons.2 ⟨fun hmem => ?_, hnodup⟩,
      List.forall_mem_cons.2 ⟨⟨hexported, hnew⟩, fun f hf => ⟨(heach f hf).1, fun hmem => ?_⟩⟩⟩
    · -- A later field keeps clear of this one, whose name is among those taken.
      obtain ⟨f, hf, hname⟩ := List.mem_map.1 hmem
      exact (heach f hf).2 (hname ▸ List.mem_cons_self)
    · exact (heach f hf).2 (List.mem_cons_of_mem _ hmem)
  | enter _ _ _ _ _ ih | array _ ih | map _ ih | named _ _ _ ih | passed _ _ _ _ _ ih
  | lifted _ _ ih => exact ⟨(ih hw).1, trivial⟩

section
variable {settings : Settings} {api : ApiDescription} {resources : List Resource}
  {types : List TypeDef} (h : Compiles settings api catalog resources types)
include h

/-- All types of a package have distinct identifiers. -/
theorem identified_of_compiles : ∀ t ∈ types, t.shape.Identified := by
  obtain ⟨w, rfl, _, _, hall⟩ := extract_invariant
    (I := fun w => ∀ t ∈ w.written, t.shape.Identified) h.allExtracted h.written
    (fun root _ w w' hturn hs hfresh hw => by
      obtain ⟨_, _, hleads, _⟩ := Root.exists_call hturn hs hfresh
      exact (hleads.identified hw).1)
    (fun _ ht => nomatch ht)
  exact hall

/-- All types of a package are spelled well. -/
theorem spelled_of_compiles : ∀ t ∈ types, t.Spelled := by
  intro t ht
  refine ⟨(exported_of_compiles h t ht).oneWord, fun values hshape => ?_⟩
  obtain ⟨hnodup, heach⟩ := hshape ▸ identified_of_compiles h t ht
  exact ⟨hnodup, fun v hv => (heach v hv).oneWord⟩

end

end TypeDef

end ControllerTypes
