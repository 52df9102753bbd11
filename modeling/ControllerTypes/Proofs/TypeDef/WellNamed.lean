import ControllerTypes.Proofs.Resolution.Distinct
import ControllerTypes.Proofs.TypeDef.Finite
import ControllerTypes.Proofs.TypeDef.Spelled

/-!
# `ControllerTypes.Proofs.TypeDef.WellNamed`: no two names in a package collide

A document may call its definitions, properties and literals what it likes. `TypeDef.WellNamed` is
what Go and the serialized form need of a type that was made of them.

* Its name is exported and not reserved. A definition and a type without one get their names from a
  supply that leaves the reserved ones out. The names of specs and statuses do not go through it, and
  `isReserved_append` is why they need not: no reserved name ends like theirs.
* Its fields have distinct names and so have its values, since each is given one that is not taken
  (`identified_of_compiles`).
* Its fields have distinct keys, and its values stand for distinct literals. This is not the work of
  the walk, which writes down what it finds (`Leads.keyed`). It holds since schemas that are resolved
  have distinct fields and literals, and that in turn since a document that is decoded lists no
  property twice.

`wellNamed_of_read` puts this together for every document that compiles.
-/

set_option autoImplicit false

namespace ControllerTypes

open Name Text

/-! ### Reserved names -/

/-- A name is not reserved if no reserved name ends like it. -/
theorem Name.isReserved_append (s : String) {word : String}
    (hwords : ∀ w ∈ goWords, ¬ (asciiLower word).toList <:+ w.toList)
    (htypes : ∀ t ∈ importedTypes, ¬ word.toList <:+ t.toList) : isReserved (s ++ word) = false := by
  -- Go's words are compared in lower case, and lower case goes letter by letter.
  have hlower : (asciiLower (s ++ word)).toList =
      (asciiLower s).toList ++ (asciiLower word).toList := by
    simp only [asciiLower, String.toList_ofList, String.toList_append, List.map_append]
  rw [isReserved, Bool.or_eq_false_iff]
  constructor
  · refine Bool.eq_false_iff.2 fun hmem => hwords _ (List.contains_iff_mem.1 hmem) ?_
    exact ⟨_, hlower.symm⟩
  · refine Bool.eq_false_iff.2 fun hmem => htypes _ (List.contains_iff_mem.1 hmem) ?_
    exact ⟨_, String.toList_append.symm⟩

/-- No reserved name ends in `Spec`. -/
theorem Resource.Extracted.isReserved_specType {catalog : Catalog} {r : Resource}
    (h : r.Extracted catalog) : isReserved r.specType = false :=
  h.specType_eq ▸ isReserved_append r.kind (by decide) (by decide)

/-- No reserved name ends in `Status`. -/
theorem Resource.Extracted.isReserved_statusType {catalog : Catalog} {r : Resource}
    (h : r.Extracted catalog) : isReserved r.statusType = false :=
  h.statusType_eq ▸ isReserved_append r.kind (by decide) (by decide)

namespace TypeDef

section
variable {settings : Settings} {api : ApiDescription} {catalog : Catalog}
  {resources : List Resource} {types : List TypeDef}

/-- No type of a package has a reserved name. -/
theorem isReserved_of_compiles (h : Compiles settings api catalog resources types) :
    ∀ t ∈ types, isReserved t.name = false := by
  have hx := h.allExtracted
  refine nameHas_of_compiles (P := fun n => isReserved n = false) h (fun n hn => ?_)
    (fun r hr => (hx.each r hr).isReserved_statusType)
    fun owner field taken _ => bars_takeName_fst (owner ++ pascalCase field) taken .types
  -- A definition has a name that a resource lends, or one from the supply, which leaves the
  -- reserved ones out.
  obtain ⟨d, hget⟩ := Naming.mem_names_iff.1 hn
  rcases Naming.get?_of_cases hx hget with ⟨r, hr, _, rfl⟩ | ⟨r, hr, _, rfl⟩ | ⟨_, hunreserved, _⟩
  · exact (hx.each r hr).isReserved_specType
  · exact (hx.each r hr).isReserved_statusType
  · exact hunreserved

end

end TypeDef

/-! ### Keys and literals -/

/-- No two fields in a body have one key, and no two values stand for one literal. -/
def TypeShape.Keyed : TypeShape → Prop
  | struct fields => (fields.map FieldDefinition.jsonName).Nodup
  | enumeration values => (values.map EnumValue.value).Nodup

namespace TypeDef

section
variable {catalog : Catalog} {naming : Naming} {p : Place} {call : Call} {w w' : Walk}

/-- The schemas the call is made for have distinct fields and literals. -/
def Call.Distinct : Call → Prop
  | visit _ _ _ => True
  | emit _ _ schema | type _ _ _ schema _ _ => schema.Distinct
  | fields _ _ _ asked _ => ∀ f ∈ asked, f.schema.Distinct

/-- The fields that a call answers have the keys it was asked for. -/
def Call.Keyed : Call → Prop
  | fields _ _ _ asked definitions =>
    definitions.map FieldDefinition.jsonName = asked.map Field.name
  | visit _ _ _ | emit _ _ _ | type _ _ _ _ _ _ => True

/-- A call for schemas with distinct fields and literals writes types with distinct keys. -/
theorem Leads.keyed (hget : ∀ d schema, catalog.get? d = some schema → schema.Distinct)
    (htarget : ∀ d schema, catalog.target? d = some schema → schema.Distinct)
    (h : Leads catalog naming p call w w') (hcall : call.Distinct)
    (hw : ∀ t ∈ w.written, t.shape.Keyed) :
    (∀ t ∈ w'.written, t.shape.Keyed) ∧ call.Keyed := by
  -- Keys are taken over from the schema one by one, so the distinctness of its fields is that of
  -- the keys.
  induction h with
  | within | done | primitive => exact ⟨hw, trivial⟩
  | enter _ _ _ htargetd _ ih => exact ⟨(ih (htarget _ _ htargetd) hw).1, trivial⟩
  | struct _ ih =>
    cases hcall with
    | object hnames hschemas =>
      obtain ⟨hwritten, hkeys⟩ := ih hschemas hw
      -- The answer for the fields has the keys that the object has.
      rw [← hkeys] at hnames
      exact ⟨Walk.forall_written_add.2 ⟨hwritten, hnames⟩, trivial⟩
  | enumeration =>
    cases hcall with
    | enumeration hliterals =>
      refine ⟨Walk.forall_written_add.2 ⟨hw, ?_⟩, trivial⟩
      show ((enumValues _).map EnumValue.value).Nodup
      rwa [map_value_enumValues]
  | nil => exact ⟨hw, rfl⟩
  | cons _ _ ihtype ihrest =>
    obtain ⟨hfirst, hrest⟩ := List.forall_mem_cons.1 hcall
    obtain ⟨hwritten, hkeys⟩ := ihrest hrest (ihtype hfirst hw).1
    exact ⟨hwritten, congrArg (_ :: ·) hkeys⟩
  | array _ ih =>
    cases hcall with
    | array hitems => exact ⟨(ih hitems hw).1, trivial⟩
  | map _ ih =>
    cases hcall with
    | map hvalues => exact ⟨(ih hvalues hw).1, trivial⟩
  | named _ _ _ ih => exact ⟨(ih trivial hw).1, trivial⟩
  | passed hgett _ _ _ _ ih => exact ⟨(ih (hget _ _ hgett) hw).1, trivial⟩
  | lifted _ _ ih => exact ⟨(ih hcall hw).1, trivial⟩

/-- The types of a package have distinct keys if no definition lists a property twice. -/
theorem keyed_of_compiles {settings : Settings} {api : ApiDescription} {resources : List Resource}
    {types : List TypeDef} (h : Compiles settings api catalog resources types)
    (hdefs : ∀ d raw, api.definitions.get? d = some raw → raw.Distinct) :
    ∀ t ∈ types, t.shape.Keyed := by
  have hx := h.allExtracted
  have hget (d : String) (schema : Schema) (hd : catalog.get? d = some schema) :
      schema.Distinct := Resolution.distinct_of_resolveAll hdefs h.resolved hd
  have htarget (d : String) (schema : Schema) (hd : catalog.target? d = some schema) :
      schema.Distinct := Resolution.distinct_target? hdefs h.resolved hd
  obtain ⟨w, rfl, _, _, hall⟩ := extract_invariant (I := fun w => ∀ t ∈ w.written, t.shape.Keyed)
    hx h.written
    (fun root hroot w w' hturn _ _ hw => by
      have hkeyed {p : Place} {call : Call}
          (hleads : Leads catalog (.of catalog resources) p call w w') (hcall : call.Distinct) :=
        hleads.keyed hget htarget hcall hw
      cases root with
      | definition d =>
        obtain ⟨_, hvisit⟩ := hturn
        exact (hkeyed hvisit trivial).1
      | status r =>
        have hr := hx.each r (mem_of_status_mem_roots hroot)
        -- A status comes from a definition, or it is the empty object.
        have hstatus : r.status.Distinct := by
          cases hname : r.statusSchemaName with
          | none =>
            rw [hr.status_empty hname]
            exact .object List.nodup_nil fun _ hf => (List.not_mem_nil hf).elim
          | some d => exact htarget d _ (hr.status_eq d hname)
        exact (hkeyed hturn hstatus).1)
    (fun _ ht => nomatch ht)
  exact hall

end

/-! ### All names of a type -/

/-- The names in a type are fit for Go and for the serialized form. -/
structure WellNamed (t : TypeDef) : Prop where
  exported : Exported t.name
  unreserved : isReserved t.name = false
  /-- Fields and constants are exported, each under a name of its own. -/
  identified : t.shape.Identified
  /-- Fields have keys of their own, and constants literals of their own. -/
  keyed : t.shape.Keyed

/-- The types of a document that compiles have distinct names, and the names in each of them are fit
for Go and for the serialized form. -/
theorem wellNamed_of_read {settings : Settings} {version : String} {format : Document.Format}
    {bytes : ByteArray} {compiled : CompiledApi}
    (h : CompiledApi.read settings version format bytes = .ok compiled) :
    (compiled.types.map TypeDef.name).Nodup ∧ ∀ t ∈ compiled.types, t.WellNamed := by
  obtain ⟨api, hload, hcompile⟩ := Run.bind_eq_ok.1 h
  obtain ⟨catalog, hcompiles⟩ := compiles_of_ofDescription hcompile
  -- A document that is decoded lists no property twice, so its definitions are distinct.
  have hkeyed := keyed_of_compiles hcompiles (Document.load_distinct hload)
  exact ⟨(ordered_of_compiles hcompiles).1, fun t ht => ⟨exported_of_compiles hcompiles t ht,
    isReserved_of_compiles hcompiles t ht, identified_of_compiles hcompiles t ht, hkeyed t ht⟩⟩

/-! ### Names that need care

The only definition of this document goes by a reserved name. It lists one of its properties twice,
another property has the same identifier, and so have two literals of an enumeration. -/

namespace Clock

/-- The document as it is read. -/
def text : String :=
  "\x7b\"definitions\":\x7b\"time\":\x7b\"properties\":\x7b\"time zone\":\x7b\x7d,"
  ++ "\"time-zone\":\x7b\"enum\":[\"utc\",\"utc!\",\"utc\"]\x7d,"
  ++ "\"time zone\":\x7b\"type\":\"integer\"\x7d\x7d\x7d\x7d\x7d"

/-- Three literals: two have one identifier, and the third is the first again. -/
def literals : List Json := [.string "utc", .string "utc!", .string "utc"]

/-- What the text is parsed to: the property that is listed twice has its second value. -/
def members : List (String × Json) :=
  [("definitions", .object [("time", .object [("properties", .object
    [("time zone", .object [("type", .string "integer")]),
     ("time-zone", .object [("enum", .array literals)])])])])]

/-- What is decoded of it. -/
def document : Document where
  definitions := [("time", { properties :=
    [("time zone", { type := some (.single "integer") }), ("time-zone", { literals })] })]

/-- The literal that is there twice counts once. -/
def catalog : Catalog := .ofList
  [("time", .object [⟨"time zone", .primitive .integer, false⟩,
    ⟨"time-zone", .enumeration ["utc", "utc!"], false⟩])]

/-- Two identifiers are numbered, and so is the name of the definition. -/
def types : List TypeDef :=
  [⟨"Time1TimeZone", "time.time-zone", .enumeration [⟨"utc", "Utc"⟩, ⟨"utc!", "Utc1"⟩]⟩,
   ⟨"Time1", "time", .struct [⟨"TimeZone", "time zone", .integer, false, false⟩,
     ⟨"TimeZone1", "time-zone", .reference "Time1TimeZone", false, false⟩]⟩]

/-- What is read of the document in the end. -/
def compiled : CompiledApi where
  info := ⟨"", "", none, []⟩
  group := Settings.apiGroup {} none
  version := "v1"
  resources := []
  types := types

/-- Clocks compile. -/
theorem compiles : Compiles {} (document.describe {}) catalog [] types where
  resolved := by cbv
  extracted := by cbv
  written := by cbv

/-- And the document is read from its bytes. -/
theorem read_text : CompiledApi.read {} "v1" .json text.toUTF8 = .ok compiled := by
  have hparse : Json.parse? text = some (.object members) := by cbv
  have hdecode : Document.decode members = .ok document := by cbv
  exact compiles.read_toUTF8 (by cbv) hparse hdecode "v1"

end Clock

/-- Clocks are well named all the same. -/
theorem clock_wellNamed :
    CompiledApi.read {} "v1" .json Clock.text.toUTF8 = .ok Clock.compiled ∧
    (Clock.types.map TypeDef.name).Nodup ∧ ∀ t ∈ Clock.types, t.WellNamed :=
  ⟨Clock.read_text, wellNamed_of_read Clock.read_text⟩

end TypeDef

end ControllerTypes
