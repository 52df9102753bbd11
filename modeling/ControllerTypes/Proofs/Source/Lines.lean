import ControllerTypes.Emission.Templates
import ControllerTypes.Proofs.Source.OneLine

/-!
# `ControllerTypes.Proofs.Source.Lines`: how many lines a file has

A file has as many lines as it was made of if and only if every text that was put into one of them
is one line. Whether that is so is asked of each file in turn, and `forall_keepsLines_iff` puts them
together.

Most of what is put into a line is plain: names, plurals and types of fields (`TypeDef.Plain`,
`Resource.Plain`). Titles and literals are taken care of where they are written. What is left is
written as it is: the version and the group of the package, the keys of fields and the names of the
definitions that types and resources come from (`TypeDef.shown`, `Resource.shown`).
-/

set_option autoImplicit false

namespace ControllerTypes

open Source

/-! ### The lines a file is made of -/

/-- The lines of a title as comments, with the empty one in front. -/
def Source.titleLines (title : String) : Nat :=
  if title = "" then 0 else 1 + (Text.lines title.toList).length

/-- The lines of a type: one for each field or literal, and those around them. -/
def TypeDef.lineCount (t : TypeDef) : Nat :=
  match t.shape with
  | .struct fields => 4 + fields.length
  | .enumeration values => 6 + values.length

/-- The lines of the remark on where the status comes from. -/
def Resource.remarkLines (r : Resource) : Nat :=
  if r.statusSchemaName.any (· != "") then 2 else 0

namespace CompiledApi

/-- The lines a file is made of. Only the numbers of types, fields, literals and lines of the title
enter, and whether there is a remark on the status. -/
def lineCount (api : CompiledApi) (file : Planned) : Nat :=
  match file.kind with
  | .documentation => 5 + titleLines api.info.title
  | .registration => 20
  | .types => 10 + (api.types.map TypeDef.lineCount).sum
  | .resource => 30 + (file.resource.map Resource.remarkLines).getD 0

/-- The file is rendered as a text with no more lines than it is made of. -/
def KeepsLines (api : CompiledApi) (file : Planned) : Prop :=
  ∃ text : String, Templates.renderer file.kind (api.context file) = .ok text.toUTF8 ∧
    lineFeeds text = api.lineCount file

end CompiledApi

namespace Source

/-- The documentation has five lines of its own, and those of the `title`. -/
theorem length_documentation (p : Package) (title : String) :
    (p.documentation title).length = 5 + titleLines title := by
  have hcomment : (comment title).length = (Text.lines title.toList).length := List.length_map _
  rw [Package.documentation, titleLines, List.length_append, List.length_append]
  split
  · rfl
  · simp only [List.length_cons, List.length_nil, hcomment]
    omega

/-- A declaration has as many lines as `TypeDef.lineCount` says: one for each field or literal, and
those around them. -/
theorem length_declaration (t : TypeDef) : (declaration t).length = t.lineCount := by
  unfold declaration TypeDef.lineCount
  cases t.shape <;>
    simp only [List.length_append, List.length_map, List.length_cons, List.length_nil] <;> omega

/-- The file of the types has ten lines of its own, and those of the types. -/
theorem length_typesFile (p : Package) (types : List TypeDef) :
    (typesFile p types).length = 10 + (types.map TypeDef.lineCount).sum := by
  rw [typesFile, List.length_append, List.length_flatMap]
  simp only [length_declaration]
  rfl

/-- The file of a resource has thirty lines of its own, and those of the remark on its status. -/
theorem length_resourceFile (p : Package) (r : Resource) :
    (resourceFile p r).length = 30 + r.remarkLines := by
  have hremark : (statusRemark r).length = r.remarkLines := by
    unfold statusRemark Resource.remarkLines
    cases r.statusSchemaName with
    | none => rfl
    | some name =>
      by_cases hname : name = ""
      · subst hname
        rfl
      · simp [Option.filter, hname]
  rw [resourceFile, List.length_append, List.length_append, List.length_append, hremark]
  -- The remark stands in the middle of the file.
  show 16 + r.remarkLines + 14 = 30 + r.remarkLines
  omega

/-! ### Which texts have to be one line -/

section
variable {p : Package}

/-- A text that is known to be one line asks for nothing. -/
theorem oneLine_true {s : String} (h : OneLine s) : OneLine s ↔ True := iff_true_intro h

/-- The documentation has only lines in it if the group and the version are one line each. A title
may be anything, since each line of it is a comment of its own. -/
theorem forall_oneLine_documentation {title : String} :
    (∀ l ∈ p.documentation title, OneLine l) ↔ OneLine p.group ∧ OneLine p.version := by
  -- The title asks for nothing, in contrast to the other texts.
  have htitle : (∀ l ∈ (if title = "" then [] else "//" :: comment title), OneLine l) ↔ True := by
    refine iff_true_intro ?_
    split
    · exact fun _ h => nomatch h
    · exact List.forall_mem_cons.2 ⟨by decide, fun _ => oneLine_of_mem_comment⟩
  rw [Package.documentation, List.forall_mem_append, List.forall_mem_append, htitle]
  simp only [List.forall_mem_cons, oneLine_append, Package.clause]
  -- The words between the texts are closed terms, which `decide` sees to be one line.
  simp (disch := decide) only [oneLine_true, true_and, and_true]
  simp only [List.not_mem_nil, false_implies, implies_true, and_true]
  tauto

/-- The registration has only lines in it if the group and the version are one line each. -/
theorem forall_oneLine_registration :
    (∀ l ∈ p.registration, OneLine l) ↔ OneLine p.group ∧ OneLine p.version := by
  simp only [Package.registration, List.forall_mem_cons, oneLine_append, Package.clause]
  simp (disch := decide) only [oneLine_true, true_and, and_true]
  simp only [List.not_mem_nil, false_implies, implies_true, and_true]
  tauto

/-- The header of a file with types shows the version, and nothing else. -/
theorem forall_oneLine_typeHeader : (∀ l ∈ p.typeHeader, OneLine l) ↔ OneLine p.version := by
  simp only [Package.typeHeader, List.forall_mem_cons, oneLine_append, Package.clause]
  simp (disch := decide) only [oneLine_true, true_and]
  simp only [List.not_mem_nil, false_implies, implies_true, and_true]

end

end Source

/-! ### Types and resources -/

/-- The names in a type are plain: its own, and those of its fields or constants. So are the types of
its fields. -/
structure TypeDef.Plain (t : TypeDef) : Prop where
  name : Source.Plain t.name
  fields : ∀ f ∈ t.fields, Source.Plain f.name ∧ Source.Plain f.goType
  values : ∀ values, t.shape = .enumeration values → ∀ v ∈ values, Source.Plain v.goName

/-- The names of a resource are plain. -/
structure Resource.Plain (r : Resource) : Prop where
  kind : Source.Plain r.kind
  plural : Source.Plain r.plural
  specType : Source.Plain r.specType
  statusType : Source.Plain r.statusType

/-- The texts of a document that are written with a type as they are. -/
def TypeDef.shown (t : TypeDef) : List String := t.source :: t.fields.map FieldDefinition.jsonName

/-- The texts of a document that are written with a resource as they are. -/
def Resource.shown (r : Resource) : List String := r.schemaName :: r.statusSchemaName.toList

namespace Source

/-- The line of a field is one exactly if the key is: `hname` and `htype` leave nothing else that
could have a line feed. -/
theorem oneLine_fieldLine_iff {f : FieldDefinition} (hname : Plain f.name)
    (htype : Plain f.goType) : OneLine (fieldLine f) ↔ OneLine f.jsonName := by
  have hflag : OneLine (if f.required then "" else ",omitempty") := by
    split <;> decide
  simp only [fieldLine, oneLine_append, oneLine_true hname.oneLine, oneLine_true htype.oneLine,
    oneLine_true hflag]
  simp (disch := decide) only [oneLine_true, true_and, and_true]

/-- A constant is one line, whatever its literal. -/
theorem oneLine_constant {type : String} {v : EnumValue} (htype : Plain type)
    (hname : Plain v.goName) : OneLine (constant type v) := by
  simp only [constant, constantName, oneLine_append, oneLine_true htype.oneLine,
    oneLine_true hname.oneLine, oneLine_true (oneLine_quote v.value)]
  decide

/-- A type shows where it comes from and the keys of its fields, and no other text of a document:
these are its `shown`. -/
theorem forall_oneLine_declaration {t : TypeDef} (h : t.Plain) :
    (∀ l ∈ declaration t, OneLine l) ↔ ∀ s ∈ t.shown, OneLine s := by
  have hname := oneLine_true h.name.oneLine
  have hsource : OneLine ("// " ++ t.name ++ " is generated from " ++ t.source) ↔
      OneLine t.source := by
    simp only [oneLine_append, hname]
    simp (disch := decide) only [oneLine_true, true_and]
  have hblank : OneLine "" ↔ True := iff_true_intro (by decide)
  rw [declaration, List.forall_mem_append, List.forall_mem_cons, List.forall_mem_singleton, hblank,
    true_and, hsource, TypeDef.shown, List.forall_mem_cons]
  refine and_congr_right fun _ => ?_
  -- What is left are the lines of the body, and only those of fields show anything.
  have hopening (s : String) : OneLine ("type " ++ t.name ++ s) ↔ OneLine s := by
    simp only [oneLine_append, hname]
    simp (disch := decide) only [oneLine_true, true_and]
  cases hshape : t.shape with
  | struct fields =>
    have heq : t.fields = fields := by rw [TypeDef.fields, hshape]
    have hbrace : OneLine "\x7d" := by decide
    rw [List.forall_mem_append, List.forall_mem_append, List.forall_mem_singleton, hopening,
      List.forall_mem_singleton, List.forall_mem_map, List.forall_mem_map, heq]
    rw [oneLine_true (by decide), true_and, and_iff_left hbrace]
    refine forall₂_congr fun f hf => ?_
    obtain ⟨hfield, htype⟩ := h.fields f (heq ▸ hf)
    exact oneLine_fieldLine_iff hfield htype
  | enumeration values =>
    have heq : t.fields = [] := by rw [TypeDef.fields, hshape]
    rw [heq]
    refine iff_of_true ?_ fun _ hs => nomatch hs
    rw [List.forall_mem_append, List.forall_mem_append, List.forall_mem_map]
    refine ⟨⟨?_, fun v hv => oneLine_constant h.name (h.values values hshape v hv)⟩, by decide⟩
    simp only [List.forall_mem_cons, hopening]
    decide

/-- The file of the types shows the version, and what is `shown` with each type. -/
theorem forall_oneLine_typesFile {p : Package} {types : List TypeDef} (h : ∀ t ∈ types, t.Plain) :
    (∀ l ∈ typesFile p types, OneLine l) ↔
      OneLine p.version ∧ ∀ t ∈ types, ∀ s ∈ t.shown, OneLine s := by
  have himport : ∀ l ∈ ["// Keeps the metav1 import when no type uses a timestamp", "var (",
      "\t_ = &metav1.Time\x7b\x7d", ")"], OneLine l := by
    decide
  rw [typesFile, List.forall_mem_append, List.forall_mem_append, forall_oneLine_typeHeader,
    and_iff_left himport, List.forall_mem_flatMap]
  exact and_congr_right fun _ => forall₂_congr fun t ht => forall_oneLine_declaration (h t ht)

/-- The remark on the status shows the name of its definition, where there is one. -/
theorem forall_oneLine_statusRemark {r : Resource} :
    (∀ l ∈ statusRemark r, OneLine l) ↔ ∀ d ∈ r.statusSchemaName, OneLine d := by
  unfold statusRemark
  rcases r.statusSchemaName with _ | name
  · simp only [Option.filter_none, Option.not_mem_none, List.not_mem_nil, false_implies,
      implies_true]
  · -- A status from a definition without a name has no remark.
    by_cases hname : name = ""
    · subst hname
      decide
    · rw [Option.filter_some, if_pos (bne_iff_ne.2 hname)]
      simp only [List.forall_mem_cons, oneLine_append, Option.mem_some_iff, forall_eq']
      simp (disch := decide) only [oneLine_true, true_and]
      simp only [List.not_mem_nil, false_implies, implies_true, and_true]

/-- The file of a resource shows the version, and the two definitions that are `shown` with the
resource. -/
theorem forall_oneLine_resourceFile {p : Package} {r : Resource} (h : r.Plain) :
    (∀ l ∈ resourceFile p r, OneLine l) ↔
      OneLine p.version ∧ ∀ s ∈ r.shown, OneLine s := by
  -- The names of the operations are fixed words.
  have hoperations : OneLine (", ".intercalate (r.operations.map Crud.name)) := by
    refine oneLine_intercalate (by decide) (List.forall_mem_map.2 fun c _ => ?_)
    cases c <;> decide
  rw [resourceFile, List.forall_mem_append, List.forall_mem_append, List.forall_mem_append,
    forall_oneLine_typeHeader, forall_oneLine_statusRemark, Resource.shown, List.forall_mem_cons]
  simp only [List.forall_mem_cons, oneLine_append, Package.schemeBuilder, Resource.listKind,
    oneLine_true h.kind.oneLine, oneLine_true h.plural.oneLine, oneLine_true h.specType.oneLine,
    oneLine_true h.statusType.oneLine, oneLine_true hoperations]
  simp (disch := decide) only [oneLine_true, true_and, and_true]
  simp only [List.not_mem_nil, false_implies, implies_true, and_true, Option.mem_toList, and_assoc,
    Option.mem_def]

end Source

/-! ### The files of a package -/

namespace CompiledApi

variable {compiled : CompiledApi} {file : Planned}

/-- A file that is rendered from `ls` has the lines it is made of if each of them is one line. -/
theorem keepsLines_iff_of_lines {ls : List String}
    (h : Templates.lines file.kind (compiled.context file) = .ok ls)
    (hlength : ls.length = compiled.lineCount file) :
    compiled.KeepsLines file ↔ ∀ l ∈ ls, OneLine l := by
  have hrender : Templates.renderer file.kind (compiled.context file) =
      .ok (unlines ls).toUTF8 := by
    rw [Templates.renderer, h]
    rfl
  rw [← lineFeeds_unlines_eq_length_iff, hlength]
  constructor
  · -- A file is octets, and the text of them can be read off.
    rintro ⟨text, htext, hcount⟩
    rw [hrender] at htext
    rwa [String.toByteArray_inj.1 (Except.ok.inj htext)]
  · exact fun hcount => ⟨_, hrender, hcount⟩

/-- The files of a package keep their lines if the group and the version of the package are one line
each, and so are the texts that are shown with its types and resources. -/
theorem forall_keepsLines_iff (htypes : ∀ t ∈ compiled.types, t.Plain)
    (hresources : ∀ r ∈ compiled.resources, r.Plain) :
    (∀ file ∈ compiled.planned, compiled.KeepsLines file) ↔
      OneLine compiled.group ∧ OneLine compiled.version ∧
      (∀ t ∈ compiled.types, ∀ s ∈ t.shown, OneLine s) ∧
      ∀ r ∈ compiled.resources, ∀ s ∈ r.shown, OneLine s := by
  -- Each sort of file is looked at on its own, under whatever name.
  have hdocumentation (name : String) : compiled.KeepsLines ⟨.documentation, name, none⟩ ↔
      OneLine compiled.group ∧ OneLine compiled.version := by
    rw [keepsLines_iff_of_lines rfl (length_documentation _ _), forall_oneLine_documentation]
    rfl
  have hregistration (name : String) : compiled.KeepsLines ⟨.registration, name, none⟩ ↔
      OneLine compiled.group ∧ OneLine compiled.version := by
    rw [keepsLines_iff_of_lines rfl rfl, forall_oneLine_registration]
    rfl
  have htypesFile (name : String) : compiled.KeepsLines ⟨.types, name, none⟩ ↔
      OneLine compiled.version ∧ ∀ t ∈ compiled.types, ∀ s ∈ t.shown, OneLine s := by
    rw [keepsLines_iff_of_lines rfl (length_typesFile _ _)]
    exact forall_oneLine_typesFile htypes
  have hresource (r : Resource) (hr : r ∈ compiled.resources) :
      compiled.KeepsLines ⟨.resource, Name.kindFile r.kind, some r⟩ ↔
        OneLine compiled.version ∧ ∀ s ∈ r.shown, OneLine s := by
    rw [keepsLines_iff_of_lines rfl (length_resourceFile _ _)]
    exact forall_oneLine_resourceFile (hresources r hr)
  -- The plan has the three shared files in front and one for each resource behind.
  rw [planned, List.forall_mem_append, List.forall_mem_map, forall₂_congr hresource]
  simp only [List.forall_mem_cons, hdocumentation, hregistration, htypesFile]
  simp only [List.not_mem_nil, false_implies, implies_true, and_true]
  constructor
  · rintro ⟨⟨⟨hgroup, hversion⟩, _, _, hshown⟩, hrest⟩
    exact ⟨hgroup, hversion, hshown, fun r hr => (hrest r hr).2⟩
  · rintro ⟨hgroup, hversion, hshown, hrest⟩
    exact ⟨⟨⟨hgroup, hversion⟩, ⟨hgroup, hversion⟩, hversion, hshown⟩,
      fun r hr => ⟨hversion, hrest r hr⟩⟩

end CompiledApi

end ControllerTypes
