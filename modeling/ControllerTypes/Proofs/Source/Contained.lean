import ControllerTypes.Proofs.TypeDef.Finite
import ControllerTypes.Proofs.TypeDef.Sources
import ControllerTypes.Proofs.TypeDef.Spelled

/-!
# `ControllerTypes.Proofs.Source.Contained`: texts of a document in Go files

The generated files hold texts that were copied from a document: names of definitions in comments,
keys of fields in the tags of structs, and the short name of the service in the API group. Such a
text must not end the line or the tag it stands in, for what follows would be read as Go.

The files of a package and its tags are whole exactly if these texts are harmless, which is not the
case of every document (`contained_iff`): nothing takes the line feeds out of names and keys, as is
done for the title, and nothing quotes the keys, as is done for literals. `Scroll` is a document with
such names.
-/

set_option autoImplicit false

namespace ControllerTypes

open Name Source

/-! ### The names in a package are plain -/

section
variable {settings : Settings} {api : ApiDescription} {catalog : Catalog}
  {resources : List Resource} {types : List TypeDef}
  (h : Compiles settings api catalog resources types)
include h

/-- The types of a package are plain, and so are the types of their fields: all names are exported,
and a reference goes to a type of the package. -/
theorem plain_types_of_compiles : ∀ t ∈ types, t.Plain := by
  have hexported := TypeDef.exported_of_compiles h
  intro t ht
  have hidentified := TypeDef.identified_of_compiles h t ht
  refine ⟨plain_of_exported (hexported t ht), fun f hf => ⟨?_, plain_goType fun n href => ?_⟩, ?_⟩
  · unfold TypeDef.fields at hf
    split at hf
    · next fields hshape =>
      rw [hshape] at hidentified
      exact plain_of_exported (hidentified.2 f hf)
    · cases hf
  · -- The name that a field refers to is that of another type, which is exported as well.
    obtain ⟨u, hu, rfl⟩ :=
      (TypeDef.ordered_of_compiles h).2.exists_of_reference ht hf href
    exact plain_of_exported (hexported u hu)
  · intro values hshape v hv
    rw [hshape] at hidentified
    exact plain_of_exported (hidentified.2 v hv)

/-- The resources of a package are plain: the kind is exported, and everything else about names is
derived from it. -/
theorem plain_resources_of_compiles : ∀ r ∈ resources, r.Plain := by
  intro r hr
  have hkind := Extraction.exported_kind h.extracted r hr
  have hx := h.allExtracted.each r hr
  have hplural := Extraction.plural_of_resourceOf (Extraction.resourceOf_of_mem h.extracted r hr)
  exact ⟨plain_of_exported hkind, hplural ▸ plain_plural (plain_of_exported hkind),
    plain_of_exported (hx.exported_specType hkind), plain_of_exported (hx.exported_statusType hkind)⟩

end

/-! ### The API group -/

/-- The group of a package is one line if the short name of the `service` is, and the suffix.
Without a name the word in its place is one. -/
theorem Settings.oneLine_apiGroup_iff {settings : Settings} {service : Option String} :
    OneLine (settings.apiGroup service) ↔
      (∀ name ∈ service, OneLine name) ∧ OneLine settings.groupSuffix := by
  -- What is taken off the name are quotation marks only.
  have hunquote (s : String) : OneLine (unquote s) ↔ OneLine s := by
    rw [OneLine, unquote, String.toList_ofList, List.mem_filter, and_iff_left (by decide)]
    rfl
  have hdot : OneLine "." := by decide
  rw [apiGroup, oneLine_append, oneLine_append, hunquote, and_iff_left hdot]
  cases service with
  | none =>
    have hunknown : OneLine "unknown" := by decide
    exact and_congr_left' (iff_of_true hunknown fun _ h => absurd h (Option.not_mem_none _))
  | some name => simp only [Option.getD_some, Option.mem_some_iff, forall_eq']

/-! ### The tags of fields -/

/-- The sign that a tag begins and ends with. -/
def Source.backquote : Char := Char.ofNat 0x60

/-- The line of the field has no backquotes but those around its tag. -/
def FieldDefinition.KeepsTag (f : FieldDefinition) : Prop :=
  (fieldLine f).toList.count backquote = 2

instance (f : FieldDefinition) : Decidable f.KeepsTag :=
  inferInstanceAs (Decidable ((fieldLine f).toList.count backquote = 2))

/-- A tag ends early if and only if there is a backquote in the key. The other parts of the line
have none: `hname` and `htype` say so of the names, and the rest is fixed. -/
theorem FieldDefinition.keepsTag_iff {f : FieldDefinition} (hname : Plain f.name)
    (htype : Plain f.goType) : f.KeepsTag ↔ backquote ∉ f.jsonName.toList := by
  have hplain : isPlain backquote = false := by decide
  have hname := List.count_eq_zero.2 (hname.not_mem hplain)
  have htype := List.count_eq_zero.2 (htype.not_mem hplain)
  have hflag : (if f.required then "" else ",omitempty").toList.count backquote = 0 := by
    split <;> decide
  have htab : "\t".toList.count backquote = 0 := by decide
  have hblank : " ".toList.count backquote = 0 := by decide
  have hopen : " `json:\"".toList.count backquote = 1 := by decide
  have hclose : "\"`".toList.count backquote = 1 := by decide
  rw [KeepsTag, fieldLine]
  -- The backquotes of a line are those of its parts, and two of these are the tag's own.
  simp only [String.toList_append, List.count_append, hname, htype, hflag, htab, hblank, hopen,
    hclose]
  rw [← List.count_eq_zero]
  omega

/-! ### What the texts of a document must not have -/

namespace CompiledApi

/-- Nothing that was copied into the package ends the line or the tag it stands in. -/
structure Contained (compiled : CompiledApi) : Prop where
  lines : ∀ file ∈ compiled.planned, compiled.KeepsLines file
  tags : ∀ t ∈ compiled.types, ∀ f ∈ t.fields, f.KeepsTag

/-- The files of a package have the lines they are made of, and its tags end where they should,
exactly if there is no line feed in the version and the group, in the definitions that the package
mentions and in the keys of its fields, and no backquote in the keys. -/
theorem contained_iff {settings : Settings} {version : String} {api : ApiDescription}
    {compiled : CompiledApi} (h : ofDescription settings version api = .ok compiled) :
    compiled.Contained ↔
      (OneLine version ∧ OneLine settings.groupSuffix) ∧
      (∀ name ∈ api.info.serviceAlias, OneLine name) ∧
      (∀ d ∈ api.definitions.names, Mentioned compiled.resources compiled.types d → OneLine d) ∧
      ∀ t ∈ compiled.types, ∀ f ∈ t.fields,
        OneLine f.jsonName ∧ backquote ∉ f.jsonName.toList := by
  obtain ⟨catalog, hcompiles⟩ := compiles_of_ofDescription h
  have hpackage : compiled.version = version ∧
      compiled.group = settings.apiGroup api.info.serviceAlias := by
    simp only [ofDescription, Run.bind_eq_ok] at h
    obtain ⟨_, _, _, _, _, _, h⟩ := h
    cases h
    exact ⟨rfl, rfl⟩
  obtain ⟨rfl, hgroup⟩ := hpackage
  have htypes := plain_types_of_compiles hcompiles
  -- The two halves of `Contained` are treated apart: files have lines, and fields have tags.
  have hlines := forall_keepsLines_iff htypes (plain_resources_of_compiles hcompiles)
  rw [hgroup, Settings.oneLine_apiGroup_iff] at hlines
  have htags : (∀ t ∈ compiled.types, ∀ f ∈ t.fields, f.KeepsTag) ↔
      ∀ t ∈ compiled.types, ∀ f ∈ t.fields, backquote ∉ f.jsonName.toList :=
    forall₂_congr fun t ht => forall₂_congr fun f hf =>
      f.keepsTag_iff ((htypes t ht).fields f hf).1 ((htypes t ht).fields f hf).2
  constructor
  · rintro ⟨hfiles, hends⟩
    obtain ⟨⟨halias, hsuffix⟩, hversion, hshown, hresources⟩ := hlines.1 hfiles
    refine ⟨⟨hversion, hsuffix⟩, halias, ?_, fun t ht f hf => ⟨?_, htags.1 hends t ht f hf⟩⟩
    · rintro d _ (⟨t, ht, rfl⟩ | ⟨r, hr, hd⟩)
      · exact hshown t ht _ List.mem_cons_self
      · exact hresources r hr d hd
    · exact hshown t ht _ (List.mem_cons_of_mem _ (List.mem_map_of_mem hf))
  · rintro ⟨⟨hversion, hsuffix⟩, halias, hdefinitions, hkeys⟩
    -- A type without a definition comes from a path of fields, whose names are keys.
    have hsources := TypeDef.oneLine_source_of_compiles hcompiles hdefinitions
      fun t ht f hf => (hkeys t ht f hf).1
    refine ⟨hlines.2 ⟨⟨halias, hsuffix⟩, hversion, fun t ht => ?_, fun r hr d hd => ?_⟩,
      htags.2 fun t ht f hf => (hkeys t ht f hf).2⟩
    · exact List.forall_mem_cons.2
        ⟨hsources t ht, List.forall_mem_map.2 fun f hf => (hkeys t ht f hf).1⟩
    · exact hdefinitions d (mem_definitions_of_shown hcompiles hr d hd) (.inr ⟨r, hr, hd⟩)

/-- Trees and nodes have harmless names. -/
theorem forest_contained : ∃ compiled, ofDescription {} "v1alpha1" Forest.api = .ok compiled ∧
    compiled.types = [Forest.node, Forest.sort, Forest.spec, Forest.status] ∧
    compiled.Contained := by
  obtain ⟨compiled, hcompiled, hresources, htypes⟩ :=
    Forest.compiles.exists_ofDescription "v1alpha1"
  refine ⟨compiled, hcompiled, htypes, (contained_iff hcompiled).2 ?_⟩
  rw [htypes]
  have hdefinitions : ∀ d ∈ Forest.api.definitions.names, OneLine d := by decide
  exact ⟨by decide, by decide, fun d hd _ => hdefinitions d hd, by decide⟩

/-! ### Names that do not stay in their places

A definition has a line feed in its name, and the only property of it a backquote. -/

namespace Scroll

def text : String :=
  "\x7b\"swagger\":\"2.0\",\"info\":\x7b\"title\":\"Scroll\",\"version\":\"1\"\x7d,\"paths\":\x7b\x7d,"
  ++ "\"definitions\":\x7b\"Foo\\nBar\":"
  ++ "\x7b\"properties\":\x7b\"a`b\":\x7b\"type\":\"string\"\x7d\x7d\x7d\x7d\x7d"

def members : List (String × Json) :=
  [("swagger", .string "2.0"),
   ("info", .object [("title", .string "Scroll"), ("version", .string "1")]),
   ("paths", .object []),
   ("definitions", .object [("Foo\nBar", .object
     [("properties", .object [("a`b", .object [("type", .string "string")])])])])]

def document : Document where
  swagger := some "2.0"
  info := { title := "Scroll", version := "1" }
  definitions := [("Foo\nBar", { properties :=
    [("a`b", { type := some (.single "string") })] })]

def catalog : Catalog := .ofList [("Foo\nBar", .object [⟨"a`b", .primitive .string, false⟩])]

def field : FieldDefinition := ⟨"AB", "a`b", .string, false, false⟩

def compiled : CompiledApi where
  info := ⟨"Scroll", "1", none, []⟩
  group := Settings.apiGroup {} none
  version := "v1alpha1"
  resources := []
  types := [⟨"FooBar", "Foo\nBar", .struct [field]⟩]

/-- The only definition of the scroll compiles to one type and to no resource. -/
theorem compiles : Compiles {} (document.describe {}) catalog [] compiled.types where
  resolved := by cbv
  extracted := by cbv
  written := by cbv

set_option maxRecDepth 1024 in
/-- The text of the scroll is read as that package, with the line feed and the backquote in it. -/
theorem read_text : read {} "v1alpha1" .json text.toUTF8 = .ok compiled := by
  have hparse : Json.parse? text = some (.object members) := by cbv
  have hdecode : Document.decode members = .ok document := by cbv
  exact compiles.read_toUTF8 (by decide +kernel) hparse hdecode "v1alpha1"

end Scroll

/-- The name of the definition goes on in a line of its own, and the key ends its tag. -/
theorem scroll_not_contained :
    read {} "v1alpha1" .json Scroll.text.toUTF8 = .ok Scroll.compiled ∧
    ¬ Scroll.compiled.KeepsLines ⟨.types, "types.go", none⟩ ∧ ¬ Scroll.field.KeepsTag := by
  refine ⟨Scroll.read_text, ?_, by decide⟩
  rw [keepsLines_iff_of_lines rfl (length_typesFile _ _)]
  decide

end CompiledApi

end ControllerTypes
