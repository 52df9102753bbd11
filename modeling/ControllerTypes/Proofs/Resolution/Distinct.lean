import ControllerTypes.Proofs.Document.Distinct
import ControllerTypes.Proofs.Resolution.History
import ControllerTypes.Proofs.Resolution.Merge

/-!
# `ControllerTypes.Proofs.Resolution.Distinct`: fields and literals stay distinct

An object has its fields from one of two places. Either they are the properties of one schema, and
then they have distinct names since the schema lists no property twice. Or they were merged from the
members of a composition, and merging puts a field with a known name in the place of the old one
(`nodup_names_mergeFields`). The literals of an enumeration are written down once each. So whatever
is resolved has distinct fields and literals at every depth (`Schema.Distinct`), as long as no
definition lists a property twice.

`Resolves.distinct` carries this along a query: the memo holds such schemas and the answer is one.
-/

set_option autoImplicit false

namespace ControllerTypes

/-- The fields of every object in the schema have distinct names, and the literals of every
enumeration in it are distinct. -/
inductive Schema.Distinct : Schema → Prop where
  | object {fields : List (Field Schema)} (names : (fields.map Field.name).Nodup)
      (schemas : ∀ f ∈ fields, Distinct f.schema) : Distinct (.object fields)
  | array {items : Schema} (hitems : Distinct items) : Distinct (.array items)
  | map {values : Schema} (hvalues : Distinct values) : Distinct (.map values)
  | enumeration {literals : List String} (hliterals : literals.Nodup) :
      Distinct (.enumeration literals)
  | primitive {p : Primitive} : Distinct (.primitive p)
  | reference {name : String} : Distinct (.reference name)
  | unsupported {detail : String} : Distinct (.unsupported detail)

namespace Resolution

open Document Named Run

/-! ### Merged fields and literals -/

/-- Putting fields in one after the other keeps their names distinct. -/
theorem nodup_names_foldl_upsert (fields all : List (Field Schema))
    (h : (all.map Field.name).Nodup) :
    ((fields.foldl Schema.upsert all).map Field.name).Nodup := by
  induction fields generalizing all with
  | nil => exact h
  | cons f rest ih =>
    refine ih _ ?_
    rw [Schema.names_upsert]
    split
    · exact h
    · next hnew => exact List.nodup_append.2 ⟨h, List.nodup_singleton _, by simpa using hnew⟩

/-- `mergeFields` answers fields with distinct names. -/
theorem nodup_names_mergeFields (fields : List (Field Schema)) :
    ((mergeFields fields).map Field.name).Nodup :=
  nodup_names_foldl_upsert fields [] List.nodup_nil

/-- The `literalTexts` of an enumeration are distinct. -/
theorem nodup_literalTexts (literals : List Json) : (literalTexts literals).Nodup :=
  nodup_eraseDups _

/-! ### Compositions -/

/-- The schema of a part has distinct fields and literals, and so have those of the fields it
gives. -/
def Part.Distinct (p : Part) : Prop :=
  p.schema.Distinct ∧ ∀ f ∈ p.fields.getD [], f.schema.Distinct

section
variable {parts : List Part} {own : List (Field Schema)}

/-- A part stays distinct when its fields are made optional, since only their flags change. -/
theorem Part.Distinct.optional {p : Part} (h : p.Distinct) : p.optional.Distinct := by
  refine ⟨h.1, fun f hf => ?_⟩
  rw [Part.optional] at hf
  cases hfields : p.fields with
  | none =>
    rw [hfields] at hf
    cases hf
  | some fields =>
    rw [hfields] at hf
    obtain ⟨g, hg, rfl⟩ := List.mem_map.1 hf
    exact h.2 g (by rw [hfields]; exact hg)

/-- What a composition without objects comes to is `Distinct`. -/
theorem distinct_firstOther? (hparts : ∀ p ∈ parts, p.Distinct) (detail : String) :
    ((firstOther? parts).getD (.unsupported detail)).Distinct := by
  rcases schema_mem_of_firstOther? (rfl : (firstOther? parts).getD (.unsupported detail) = _)
    with heq | ⟨p, hp, _, heq⟩
  · rw [heq]
    exact .unsupported
  · rw [← heq]
    exact (hparts p hp).1

/-- The schemas of merged fields are `Distinct`, each being that of a field which was put in. -/
theorem distinct_mergeFields (hparts : ∀ p ∈ parts, p.Distinct)
    (hown : ∀ f ∈ own, f.schema.Distinct) :
    ∀ f ∈ mergeFields (partFields parts ++ own), f.schema.Distinct := by
  intro f hf
  obtain ⟨g, hg, _, heq⟩ := exists_of_mem_mergeFields hf
  rw [← heq]
  rcases List.mem_append.1 hg with hg | hg
  · obtain ⟨p, hp, hg⟩ := List.mem_flatMap.1 hg
    exact (hparts p hp).2 g hg
  · exact hown g hg

/-- An `allOf` of distinct parts and own fields is `Distinct`. -/
theorem distinct_combineAll (hparts : ∀ p ∈ parts, p.Distinct)
    (hown : ∀ f ∈ own, f.schema.Distinct) (required : List String) :
    (combineAll parts own required).Distinct := by
  unfold combineAll
  split
  · exact distinct_firstOther? hparts _
  · -- The names are distinct by merging, the schemas since those of the parts are.
    refine .object ?_ fun f hf => ?_
    · rw [map_name_requireNamed]
      exact nodup_names_mergeFields _
    · obtain ⟨g, hg, rfl⟩ := List.mem_map.1 hf
      exact distinct_mergeFields hparts hown g hg

/-- So is a schema of variants. -/
theorem distinct_combineVariants (hparts : ∀ p ∈ parts, p.Distinct)
    (hown : ∀ f ∈ own, f.schema.Distinct) : (combineVariants parts own).Distinct := by
  unfold combineVariants
  split
  · exact distinct_firstOther? hparts _
  · refine .object (nodup_names_mergeFields _) (distinct_mergeFields (fun p hp => ?_) hown)
    obtain ⟨q, hq, rfl⟩ := List.mem_map.1 hp
    exact (hparts q hq).optional

end

/-! ### Queries -/

/-- What the query asks for lists no property twice. -/
def Query.AsksDistinct : Query → Prop
  | .name _ _ => True
  | .schema raw _ => raw.Distinct
  | .members raws _ => ∀ m ∈ raws, m.Distinct
  | .properties _ asked _ => ∀ x ∈ asked, x.2.Distinct

/-- The answer of the query has distinct fields and literals. Properties become fields of the same
names. -/
def Query.AnswersDistinct : Query → Prop
  | .name _ answer | .schema _ answer => answer.Distinct
  | .members _ parts => ∀ p ∈ parts, p.Distinct
  | .properties _ asked fields =>
    fields.map Field.name = names asked ∧ ∀ f ∈ fields, f.schema.Distinct

/-- All finished schemas have distinct fields and literals. -/
def Memo.Distinct (m : Memo) : Prop := ∀ d schema, m.done.get? d = some schema → schema.Distinct

/-- A member gives fields of its own or of a finished definition, so it is distinct by `h` or by
`hm`. -/
theorem Memo.Distinct.part {m : Memo} (hm : m.Distinct) {schema : Schema} (h : schema.Distinct) :
    (Part.mk schema (memberFields m schema)).Distinct := by
  refine ⟨h, fun f hf => ?_⟩
  cases h with
  | object _ schemas => exact schemas f hf
  | @reference name =>
    simp only [memberFields] at hf
    cases hdone : m.done.get? name with
    | none =>
      rw [hdone] at hf
      cases hf
    | some target =>
      rw [hdone] at hf
      have htarget := hm name target hdone
      cases htarget with
      | object _ schemas => exact schemas f hf
      | _ => cases hf
  | _ => cases hf

/-- What `referenceTo` answers is `Distinct` if the definition is. -/
theorem distinct_referenceTo {name : String} {target : Schema} (h : target.Distinct) :
    (referenceTo name target).Distinct := by
  unfold referenceTo
  split
  · exact .reference
  · exact h

/-- A scalar has no fields and no literals. -/
theorem distinct_convertScalar (raw : SchemaObject) : (convertScalar raw).Distinct := by
  unfold convertScalar
  split
  all_goals first | exact .primitive | exact .unsupported

variable {defs : Definitions} {active : List String} {q : Query} {m m' : Memo}

section
variable (hdefs : ∀ d raw, defs.get? d = some raw → raw.Distinct)
include hdefs

/-- A query for what lists no property twice is answered with distinct fields and literals, and the
memo keeps such schemas only. By `hdefs` the definitions list no property twice. -/
theorem Resolves.distinct (h : Resolves defs active q m m') (hq : q.AsksDistinct)
    (hm : m.Distinct) : m'.Distinct ∧ q.AnswersDistinct := by
  induction h with
  | done hdone => exact ⟨hm, hm _ _ hdone⟩
  | active => exact ⟨hm, .reference⟩
  | enter _ _ hraw _ ih =>
    obtain ⟨hm', hanswer⟩ := ih (hdefs _ _ hraw) hm
    refine ⟨fun d schema hdone => ?_, hanswer⟩
    -- The new entry is the answer of the conversion.
    rcases Memo.get?_finish_cases hdone with ⟨_, rfl⟩ | hdone
    · exact hanswer
    · exact hm' d schema hdone
  | reference _ _ _ ih =>
    obtain ⟨hm', hanswer⟩ := ih trivial hm
    exact ⟨hm', distinct_referenceTo hanswer⟩
  | decorated hform _ ih =>
    have honly := hq.form
    rw [hform] at honly
    exact ih honly hm
  | all hform _ _ ihmembers ihown =>
    have hmembers := hq.form
    rw [hform] at hmembers
    obtain ⟨hm₁, hparts⟩ := ihmembers hmembers hm
    obtain ⟨hm', _, hown⟩ := ihown hq.properties hm₁
    exact ⟨hm', distinct_combineAll hparts hown _⟩
  | variants hform _ _ ihmembers ihown =>
    have hmembers := hq.form
    rw [hform] at hmembers
    obtain ⟨hm₁, hparts⟩ := ihmembers hmembers hm
    obtain ⟨hm', _, hown⟩ := ihown hq.properties hm₁
    exact ⟨hm', distinct_combineVariants hparts hown⟩
  | enumeration => exact ⟨hm, .enumeration (nodup_literalTexts _)⟩
  | freeMap => exact ⟨hm, .map .unsupported⟩
  | scalar => exact ⟨hm, distinct_convertScalar _⟩
  | map hform _ ih =>
    have hvalues := hq.form
    rw [hform] at hvalues
    obtain ⟨hm', hanswer⟩ := ih hvalues hm
    exact ⟨hm', .map hanswer⟩
  | array hform _ ih =>
    have hitems := hq.form
    rw [hform] at hitems
    obtain ⟨hm', hanswer⟩ := ih hitems hm
    exact ⟨hm', .array hanswer⟩
  | object hform _ ih =>
    have hproperties := hq.form
    rw [hform] at hproperties
    -- Fields have the names of the properties, which are distinct.
    obtain ⟨hm', hnames, hanswer⟩ := ih hproperties.2 hm
    exact ⟨hm', .object (hnames ▸ hproperties.1) hanswer⟩
  | noMembers => exact ⟨hm, fun _ hp => (List.not_mem_nil hp).elim⟩
  | member _ _ ihschema ihrest =>
    obtain ⟨hfirst, hrest⟩ := List.forall_mem_cons.1 hq
    obtain ⟨hm₁, hanswer⟩ := ihschema hfirst hm
    obtain ⟨hm', hothers⟩ := ihrest hrest hm₁
    exact ⟨hm', List.forall_mem_cons.2 ⟨hm₁.part hanswer, hothers⟩⟩
  | noProperties => exact ⟨hm, rfl, fun _ hf => (List.not_mem_nil hf).elim⟩
  | property _ _ ihschema ihrest =>
    obtain ⟨hfirst, hrest⟩ := List.forall_mem_cons.1 hq
    obtain ⟨hm₁, hanswer⟩ := ihschema hfirst hm
    obtain ⟨hm', hnames, hothers⟩ := ihrest hrest hm₁
    exact ⟨hm', congrArg (_ :: ·) hnames, List.forall_mem_cons.2 ⟨hanswer, hothers⟩⟩

/-- All queries together are answered with schemas that are `Distinct`. -/
theorem ResolvesAll.distinct {answers : List (String × Schema)} (h : ResolvesAll defs answers m m')
    (hm : m.Distinct) : ∀ x ∈ answers, x.2.Distinct := by
  induction h with
  | nil => exact fun _ hx => (List.not_mem_nil hx).elim
  | cons hfirst _ ih =>
    obtain ⟨hm₁, hanswer⟩ := hfirst.distinct hdefs trivial hm
    exact List.forall_mem_cons.2 ⟨hanswer, ih hm₁⟩

/-- A definition that is resolved is `Distinct`. -/
theorem distinct_of_resolveAll {catalog : Catalog} (h : resolveAll defs = .ok catalog) {d : String}
    {schema : Schema} (hget : catalog.get? d = some schema) : schema.Distinct := by
  obtain ⟨answers, hall, _, hentries⟩ := resolvesAll_of_resolveAll h
  have hmem := Table.get?_eq_some_iff.1 hget
  rw [hentries] at hmem
  exact hall.distinct hdefs nofun (d, schema) hmem

/-- What a definition stands for is `Distinct`. -/
theorem distinct_target? {catalog : Catalog} (h : resolveAll defs = .ok catalog) {d : String}
    {schema : Schema} (htarget : catalog.target? d = some schema) : schema.Distinct := by
  exact Catalog.target?_induction htarget (fun _ hget _ => distinct_of_resolveAll hdefs h hget)
    fun _ _ _ ih => ih

end

end Resolution

end ControllerTypes
