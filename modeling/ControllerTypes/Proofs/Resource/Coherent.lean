import ControllerTypes.Proofs.Resource.Concerned

/-!
# `ControllerTypes.Proofs.Resource.Coherent`: the parts of a resource fit together

What can be done with a resource, which read reports its status and what that status is are found in
three passes over the operations. They agree with each other because all three look at the same
operations, those that concern the definition.

`PairedRead` says which read reports the status: the first one of a single item, or the first of all
if they only read lists (`pairedRead?_concerned`). `Coherent` says how the parts of a resource hang
together, and `coherent_of_mem` that they do in every extraction that succeeds.
-/

set_option autoImplicit false

namespace ControllerTypes.Extraction

open Name Run

variable {operations : List ApiOperation} {catalog : Catalog} {settings : Settings}
  {definition : String} {op : ApiOperation}

/-! ### The read that reports a status -/

/-- The operation reads the definition, or something that it is known by. -/
def Reads (operations : List ApiOperation) (definition : String) (op : ApiOperation) : Prop :=
  op.crud = .read ∧ Concerns operations definition op

/-- The operation is the read that reports the status of the definition. -/
inductive PairedRead (operations : List ApiOperation) (definition : String) (op : ApiOperation) :
    Prop
  /-- It is the first of those that read a single item. -/
  | item {before after : List ApiOperation} (split : operations = before ++ op :: after)
      (reads : Reads operations definition op) (single : op.isList = false)
      (first : ∀ e ∈ before, Reads operations definition e → e.isList = true)
  /-- It is the first of all, and none of them reads a single item. -/
  | collection {before after : List ApiOperation} (split : operations = before ++ op :: after)
      (reads : Reads operations definition op)
      (first : ∀ e ∈ before, ¬Reads operations definition e)
      (lists : ∀ e ∈ operations, Reads operations definition e → e.isList = true)

/-- A `PairedRead` is one of the operations that read the definition. -/
theorem PairedRead.reads (h : PairedRead operations definition op) :
    Reads operations definition op := by
  cases h <;> assumption

/-- A `PairedRead` is one of the operations. -/
theorem PairedRead.mem (h : PairedRead operations definition op) : op ∈ operations := by
  cases h <;> simp_all

/-- The reads among the operations that are `concerned` with a definition are those that read it. -/
theorem filter_concerned :
    ((concerned operations definition).filter fun e => e.crud == .read) =
      operations.filter fun e => e.crud == .read &&
        concerns definition (nouns operations definition) e := by
  rw [concerned, List.filter_filter]

/-- `Reads` is what the program decides by the operation's `crud` and by `concerns`. -/
theorem reads_iff :
    (op.crud == .read && concerns definition (nouns operations definition) op) = true ↔
      Reads operations definition op := by
  rw [Bool.and_eq_true, concerns_iff, beq_iff_eq, Reads]

/-- The other side of `reads_iff`, for the operations that a search passes over. -/
theorem not_reads_iff :
    (op.crud == .read && concerns definition (nouns operations definition) op) = false ↔
      ¬Reads operations definition op := by
  rw [← reads_iff, Bool.not_eq_true]

/-- The `PairedRead` is the one that an extraction finds by `pairedRead?`. -/
theorem pairedRead?_concerned :
    pairedRead? (concerned operations definition) = some op ↔
      PairedRead operations definition op := by
  rw [pairedRead?]
  -- An operation is passed over in the first search if it is no read of the definition or a list.
  simp only [filter_concerned, List.find?_filter, List.head?_filter, Option.or_eq_some_iff,
    List.find?_eq_some_iff_append, List.find?_eq_none, Bool.not_eq_true', decide_eq_true_eq,
    decide_eq_false_iff_not, reads_iff, not_reads_iff, not_and, Bool.not_eq_false]
  constructor
  · rintro (⟨⟨reads, single⟩, before, after, split, first⟩ |
      ⟨lists, reads, before, after, split, first⟩)
    · exact .item split reads single first
    · exact .collection split reads first lists
  · rintro (⟨split, reads, single, first⟩ | ⟨split, reads, first, lists⟩)
    · exact .inl ⟨⟨reads, single⟩, _, _, split, first⟩
    · exact .inr ⟨lists, reads, _, _, split, first⟩

/-! ### What can be done with a resource -/

/-- What is `supported` is what the operations do that concern the definition. -/
theorem mem_supported_iff {c : Crud} :
    c ∈ supported (concerned operations definition) ↔
      ∃ op ∈ operations, op.crud = c ∧ Concerns operations definition op := by
  -- The list that is filtered has every operation there is, so it says nothing.
  have hall : c ∈ Crud.all := by cases c <;> decide
  rw [supported, List.mem_filter, and_iff_right hall, List.any_eq_true]
  simp only [mem_concerned_iff, beq_iff_eq, and_assoc, and_comm (a := Concerns _ _ _)]

/-- What is `supported` is listed in the order of `Crud.all`, and nothing twice. -/
theorem pairwise_supported (concerned : List ApiOperation) :
    (supported concerned).Pairwise fun c c' => Crud.all.idxOf c < Crud.all.idxOf c' :=
  List.Pairwise.filter _ (by decide)

/-! ### Where a status comes from -/

/-- A status comes from the definition that the `read` answers, if that is another one and
`IsObject`. -/
theorem statusOf_eq_some_iff {read : Option ApiOperation} {d : String} :
    (statusOf catalog definition read).2 = some d ↔
      d ≠ definition ∧ IsObject catalog d ∧ read.bind ApiOperation.successResponse? = some d := by
  constructor
  · intro h
    have hanswer := answer_of_statusOf h
    obtain ⟨⟨fields, hfields⟩, htarget, _⟩ := statusOf_spec catalog definition read
    refine ⟨?_, ⟨fields, hfields ▸ htarget d h⟩, hanswer⟩
    -- A read that answers the spec itself reports no status.
    rintro rfl
    simp [statusOf, hanswer] at h
  · rintro ⟨hne, ⟨fields, htarget⟩, hanswer⟩
    simp [statusOf, hanswer, hne, htarget]

/-- What the read answers that `pairedRead?` finds is what the `PairedRead` of the definition
answers. -/
theorem bind_pairedRead? {d : String} :
    (pairedRead? (concerned operations definition)).bind ApiOperation.successResponse? = some d ↔
      ∃ op, PairedRead operations definition op ∧ op.Answers d := by
  simp only [Option.bind_eq_some_iff, pairedRead?_concerned, ApiOperation.successResponse?_eq_some_iff]

/-! ### Resources -/

/-- The parts of a resource fit together. -/
structure Coherent (operations : List ApiOperation) (catalog : Catalog) (r : Resource) : Prop where
  spec : ∃ fields, r.spec = .object fields
  status : ∃ fields, r.status = .object fields
  /-- The operations are listed in order, and none twice. -/
  increasing : r.operations.Pairwise fun c c' => Crud.all.idxOf c < Crud.all.idxOf c'
  /-- They are what the operations do that concern the definition. -/
  supported : ∀ c, c ∈ r.operations ↔
    ∃ op ∈ operations, op.crud = c ∧ Concerns operations r.schemaName op
  /-- What carries the definition is among those. -/
  carried : ∀ op ∈ operations, (op.requestBody = some r.schemaName ∨
    ∃ response ∈ op.responses, response.schema = r.schemaName) → op.crud ∈ r.operations
  mutable : .create ∈ r.operations ∨ .update ∈ r.operations
  /-- The status comes from the definition that the paired read answers, if that is another one and
  stands for an object. -/
  reported_iff : ∀ d, r.statusSchemaName = some d ↔ d ≠ r.schemaName ∧ IsObject catalog d ∧
    ∃ op ∈ operations, op.crud = .read ∧ PairedRead operations r.schemaName op ∧ op.Answers d
  /-- It is that object then, and the resource can be read. -/
  reported : ∀ d, r.statusSchemaName = some d →
    catalog.target? d = some r.status ∧ .read ∈ r.operations
  /-- Any other status is empty. -/
  unreported : r.statusSchemaName = none → r.status = .emptyObject

section
variable {resources : List Resource} {r : Resource}

/-- What can be done with a resource is what the operations do that concern its definition. -/
theorem mem_operations_of_mem_iff
    (h : Extraction.resources operations catalog settings = .ok resources) (hr : r ∈ resources)
    {c : Crud} : c ∈ r.operations ↔
      ∃ op ∈ operations, op.crud = c ∧ Concerns operations r.schemaName op := by
  obtain ⟨spec, _, hparts⟩ := parts_of_resourceOf (resourceOf_of_mem h r hr)
  rw [← mem_supported_iff, congrArg Resource.operations hparts]

/-- A resource supports what some operation does that concerns its definition. -/
theorem supports_of_mem_iff
    (h : Extraction.resources operations catalog settings = .ok resources) (hr : r ∈ resources)
    {c : Crud} : r.supports c = true ↔
      ∃ op ∈ operations, op.crud = c ∧ Concerns operations r.schemaName op := by
  rw [Resource.supports_iff, mem_operations_of_mem_iff h hr]

/-- The status of a resource comes from the definition that its `PairedRead` answers, if that is
another one and `IsObject`. -/
theorem statusSchemaName_of_mem_iff
    (h : Extraction.resources operations catalog settings = .ok resources) (hr : r ∈ resources)
    {d : String} : r.statusSchemaName = some d ↔ d ≠ r.schemaName ∧ IsObject catalog d ∧
      ∃ op ∈ operations, op.crud = .read ∧ PairedRead operations r.schemaName op ∧
        op.Answers d := by
  obtain ⟨spec, _, hparts⟩ := parts_of_resourceOf (resourceOf_of_mem h r hr)
  rw [congrArg Resource.statusSchemaName hparts, statusOf_eq_some_iff, bind_pairedRead?]
  -- What is added is that the paired read is an operation and a read, which follows from its being
  -- paired.
  refine and_congr_right fun _ => and_congr_right fun _ => exists_congr fun op => ?_
  exact ⟨fun ⟨hpaired, hanswers⟩ => ⟨hpaired.mem, hpaired.reads.1, hpaired, hanswers⟩,
    fun ⟨_, _, hpaired, hanswers⟩ => ⟨hpaired, hanswers⟩⟩

/-- A resource can be created or updated: what nominates its definition does one of the two and
carries the definition. -/
theorem mutable_of_mem (h : Extraction.resources operations catalog settings = .ok resources)
    (hr : r ∈ resources) : .create ∈ r.operations ∨ .update ∈ r.operations := by
  obtain ⟨op, hop, hnominates⟩ := nominated_of_mem h r hr
  have hconcerns := concerns_of_nominates operations hnominates
  -- Both ways to nominate a definition are those of an operation that creates or updates.
  have hmutating : op.crud = .create ∨ op.crud = .update := by
    cases hnominates <;> assumption
  exact hmutating.imp
    (fun hcrud => (mem_operations_of_mem_iff h hr).2 ⟨op, hop, hcrud, hconcerns⟩)
    fun hcrud => (mem_operations_of_mem_iff h hr).2 ⟨op, hop, hcrud, hconcerns⟩

end

/-- Every resource of an extraction is `Coherent`. -/
theorem coherent_of_mem {resources : List Resource} {r : Resource}
    (h : Extraction.resources operations catalog settings = .ok resources) (hr : r ∈ resources) :
    Coherent operations catalog r := by
  have hextracted := (allExtracted_of_resources h).each r hr
  obtain ⟨spec, _, hparts⟩ := parts_of_resourceOf (resourceOf_of_mem h r hr)
  have hoperations : r.operations = supported (concerned operations r.schemaName) :=
    congrArg Resource.operations hparts
  refine
    { spec := hextracted.spec_object
      status := hextracted.status_object
      increasing := hoperations ▸ pairwise_supported _
      supported := fun _ => mem_operations_of_mem_iff h hr
      carried := ?_
      mutable := mutable_of_mem h hr
      reported_iff := fun _ => statusSchemaName_of_mem_iff h hr
      reported := ?_
      unreported := hextracted.status_empty }
  · -- What carries the definition concerns it, by its request or by one of its responses.
    rintro op hop (body | ⟨response, hresponse, body⟩)
    · exact (mem_operations_of_mem_iff h hr).2 ⟨op, hop, rfl, .request body⟩
    · exact (mem_operations_of_mem_iff h hr).2 ⟨op, hop, rfl, .response hresponse body⟩
  · -- The read that the status comes from is one of the operations that concern the definition.
    intro d hd
    obtain ⟨_, _, op, hop, hcrud, hpaired, _⟩ := (statusSchemaName_of_mem_iff h hr).1 hd
    exact ⟨hextracted.status_eq d hd,
      (mem_operations_of_mem_iff h hr).2 ⟨op, hop, hcrud, hpaired.reads.2⟩⟩

/-! ### A list of buckets -/

namespace Buckets

def list : ApiOperation :=
  ⟨"/buckets/list", .post, some "ListBucket", none, [⟨"200", "BucketPolicy"⟩]⟩

end Buckets

/-- A bucket has its state from the read of a single one, although the list of them comes first. -/
theorem listed_bucket_coherent :
    resources [Buckets.list, Buckets.create, Buckets.read] Buckets.catalog {} =
      .ok [Buckets.bucket "Bucket"] ∧
    Coherent [Buckets.list, Buckets.create, Buckets.read] Buckets.catalog
      (Buckets.bucket "Bucket") := by
  have hresources : resources [Buckets.list, Buckets.create, Buckets.read] Buckets.catalog {} =
      .ok [Buckets.bucket "Bucket"] := by cbv
  exact ⟨hresources, coherent_of_mem hresources List.mem_cons_self⟩

end ControllerTypes.Extraction
