import ControllerTypes.Proofs.Resource.Nominated

/-!
# `ControllerTypes.Proofs.Resource.Concerned`: the operations a resource depends on

An operation concerns a definition if it carries it, or if its noun is one that the definition is
known by: its own name, or the noun of an operation that nominates it. `Concerns` says so, and
`concerns_iff` that this is how an extraction decides.

A resource has its status and what can be done with it from the operations that concern its
definition, and it has nothing else from the operations (`parts_of_resourceOf`). So operations that
do not concern the definition have no part in it. They may come and go anywhere in a description
(`SameBut`): what concerns a definition remains the same (`concerned_of_sameBut`), and so does the
resource, but for the names that depend on other kinds (`unconcerned_do_not_interfere`).
-/

set_option autoImplicit false

namespace ControllerTypes

open Name Run

namespace Extraction

/-- The operation has to do with the definition: it carries it as its request or as a response, or
its noun is one that the definition is known by. -/
inductive Concerns (operations : List ApiOperation) (definition : String) (op : ApiOperation) :
    Prop
  | request (body : op.requestBody = some definition)
  | response {r : ApiResponse} (hr : r ∈ op.responses) (body : r.schema = definition)
  | ownNoun (noun : op.noun? = some (snakeCase definition))
  | sharedNoun {other : ApiOperation} {word : String} (hother : other ∈ operations)
      (nominates : other.Nominates definition) (shared : other.noun? = some word)
      (noun : op.noun? = some word)

section
variable {operations operations' : List ApiOperation} {definition word : String}
  {op : ApiOperation}

/-- A definition is known by its own name and by the nouns of the operations that nominate it. -/
theorem mem_nouns_iff :
    word ∈ nouns operations definition ↔ word = snakeCase definition ∨
      ∃ other ∈ operations, other.Nominates definition ∧ other.noun? = some word := by
  simp only [nouns, List.mem_cons, List.mem_filterMap, List.mem_filter, beq_iff_eq,
    ApiOperation.nominee?_eq_some_iff, and_assoc]

/-- `Concerns` is how an extraction picks the operations of a resource: `concerns`, given the
`nouns` of the definition, decides it. -/
theorem concerns_iff :
    concerns definition (nouns operations definition) op = true ↔
      Concerns operations definition op := by
  -- The two ways of an operation to be picked, each said without the lists it is looked up in.
  have hreferences : op.references definition = true ↔
      op.requestBody = some definition ∨ ∃ r ∈ op.responses, r.schema = definition := by
    simp [ApiOperation.references]
  have hnoun : op.noun?.any (nouns operations definition).contains = true ↔
      ∃ word ∈ nouns operations definition, op.noun? = some word := by
    cases op.noun? <;> simp
  rw [concerns, Bool.or_eq_true, hreferences, hnoun]
  constructor
  · rintro ((body | ⟨r, hr, body⟩) | ⟨word, hword, noun⟩)
    · exact .request body
    · exact .response hr body
    · -- Which of the nouns it is says which of the last two cases it is.
      rcases mem_nouns_iff.1 hword with rfl | ⟨other, hother, nominates, shared⟩
      · exact .ownNoun noun
      · exact .sharedNoun hother nominates shared noun
  · rintro (body | ⟨hr, body⟩ | noun | ⟨hother, nominates, shared, noun⟩)
    · exact .inl (.inl body)
    · exact .inl (.inr ⟨_, hr, body⟩)
    · exact .inr ⟨_, mem_nouns_iff.2 (.inl rfl), noun⟩
    · exact .inr ⟨_, mem_nouns_iff.2 (.inr ⟨_, hother, nominates, shared⟩), noun⟩

/-- An operation that `Nominates` a definition carries it, so it concerns it. -/
theorem concerns_of_nominates (operations : List ApiOperation) (h : op.Nominates definition) :
    Concerns operations definition op := by
  cases h with
  | request _ body => exact .request body
  | response _ _ answer =>
    cases answer with
    | success split => exact .response (by simp [split]) rfl
    | default _ split => exact .response (by simp [split]) rfl

/-! ### The parts of a resource -/

/-- The operations that concern the definition, in order. -/
def concerned (operations : List ApiOperation) (definition : String) : List ApiOperation :=
  operations.filter (concerns definition (nouns operations definition))

/-- The operations in `concerned` are those that `Concerns` is true of. -/
theorem mem_concerned_iff :
    op ∈ concerned operations definition ↔ op ∈ operations ∧ Concerns operations definition op := by
  rw [concerned, List.mem_filter, concerns_iff]

/-- A resource has its `status` and its `operations` from what is `concerned` with the definition,
its `spec` from the definition, and the rest from the `kind`. -/
theorem parts_of_resourceOf {catalog : Catalog} {kind : String} {r : Resource}
    (h : resourceOf catalog operations kind definition = .ok r) :
    ∃ spec, specOf catalog definition = .ok spec ∧
      r = { kind, plural := plural kind, schemaName := definition, spec
            status := (statusOf catalog definition
              (pairedRead? (concerned operations definition))).1
            statusSchemaName := (statusOf catalog definition
              (pairedRead? (concerned operations definition))).2
            operations := supported (concerned operations definition)
            specType := kind ++ "Spec", statusType := kind ++ "Status" } := by
  rw [resourceOf, bind_eq_ok] at h
  obtain ⟨spec, hspec, h⟩ := h
  cases h
  exact ⟨spec, hspec, rfl⟩

end

/-! ### Operations that come and go -/

/-- The lists have the same operations in the same order, but for some of this sort that only one of
them has. -/
inductive SameBut (sort : ApiOperation → Prop) : List ApiOperation → List ApiOperation → Prop
  | nil : SameBut sort [] []
  | same (op : ApiOperation) {rest rest' : List ApiOperation} (h : SameBut sort rest rest') :
      SameBut sort (op :: rest) (op :: rest')
  | removed {op : ApiOperation} {rest rest' : List ApiOperation} (hop : sort op)
      (h : SameBut sort rest rest') : SameBut sort (op :: rest) rest'
  | inserted {op : ApiOperation} {rest rest' : List ApiOperation} (hop : sort op)
      (h : SameBut sort rest rest') : SameBut sort rest (op :: rest')

section
variable {operations operations' : List ApiOperation} {definition : String}

/-- What picks no operation of the `sort` picks the same from both lists. -/
theorem SameBut.filter_eq {sort : ApiOperation → Prop} (h : SameBut sort operations operations')
    {p : ApiOperation → Bool} (hp : ∀ op, sort op → p op = false) :
    operations.filter p = operations'.filter p := by
  -- On how the lists differ: what only one of them has is passed over by `p`.
  induction h with
  | nil => rfl
  | same op _ ih => rw [List.filter_cons, List.filter_cons, ih]
  | removed hop _ ih => rw [List.filter_cons, hp _ hop, if_neg Bool.false_ne_true, ih]
  | inserted hop _ ih => rw [List.filter_cons, hp _ hop, if_neg Bool.false_ne_true, ih]

/-- Whether operations that do not concern a definition are there or not, the `concerned` ones are
the same. -/
theorem concerned_of_sameBut
    (h : SameBut (fun op => ¬Concerns operations definition op) operations operations') :
    concerned operations definition = concerned operations' definition := by
  -- What nominates the definition concerns it, so the nouns are the same in both lists.
  have hnouns : nouns operations definition = nouns operations' definition := by
    rw [nouns, nouns, h.filter_eq fun op hop => ?_]
    rw [beq_eq_false_iff_ne]
    intro hnominee
    exact hop (concerns_of_nominates operations (ApiOperation.nominee?_eq_some_iff.1 hnominee))
  rw [concerned, concerned, ← hnouns]
  refine h.filter_eq fun op hop => ?_
  rw [Bool.eq_false_iff]
  exact fun hconcerns => hop (concerns_iff.1 hconcerns)

/-- Whether operations that do not concern a definition are there or not, it is `Nominated`. -/
theorem nominated_of_sameBut
    (h : SameBut (fun op => ¬Concerns operations definition op) operations operations')
    (hnominated : Nominated operations definition) : Nominated operations' definition := by
  obtain ⟨op, hop, hnominates⟩ := hnominated
  -- What nominates the definition concerns it, so it is in the other list too.
  have hmem := mem_concerned_iff.2 ⟨hop, concerns_of_nominates operations hnominates⟩
  rw [concerned_of_sameBut h] at hmem
  exact ⟨op, (mem_concerned_iff.1 hmem).1, hnominates⟩

/-- The definitions of resources are those of the catalog that are nominated and not ignored. -/
theorem exists_resource_iff {catalog : Catalog} {settings : Settings} {resources : List Resource}
    (h : Extraction.resources operations catalog settings = .ok resources) :
    (∃ r ∈ resources, r.schemaName = definition) ↔
      definition ∈ catalog.names ∧ Nominated operations definition ∧
        settings.ignores definition = false := by
  rw [← List.mem_map, (resourcesOf_eq_ok (resources_eq_ok h)).2.1, List.mem_filter, isCandidate_iff]

end

/-- A definition that is a resource in one description is one in every other that differs from it in
operations that do not concern the definition, and the two resources differ only in the names that
come from the kind. -/
theorem unconcerned_do_not_interfere {operations operations' : List ApiOperation}
    {catalog : Catalog} {settings : Settings} {resources resources' : List Resource} {r : Resource}
    (h : Extraction.resources operations catalog settings = .ok resources)
    (h' : Extraction.resources operations' catalog settings = .ok resources')
    (hr : r ∈ resources)
    (hsame : SameBut (fun op => ¬Concerns operations r.schemaName op) operations operations') :
    ∃ r' ∈ resources', (∀ s ∈ resources', s.schemaName = r.schemaName → s = r') ∧
      r' = { r with kind := r'.kind, plural := plural r'.kind, specType := r'.kind ++ "Spec",
                    statusType := r'.kind ++ "Status" } := by
  -- That there is a resource depends on the definition being nominated, which is the same in both.
  have hcandidate := (exists_resource_iff h).1 ⟨r, hr, rfl⟩
  obtain ⟨r', hr', hname⟩ := (exists_resource_iff h').2
    (hcandidate.imp_right fun hc => hc.imp_left (nominated_of_sameBut hsame))
  refine ⟨r', hr', fun s hs hs' => ?_, ?_⟩
  · exact List.inj_on_of_nodup_map (allExtracted_of_resources h').definitions hs hr'
      (hs'.trans hname.symm)
  · -- The parts of both resources are made from the same operations, so they are the same but for
    -- the kind.
    obtain ⟨spec, hspec, hparts⟩ := parts_of_resourceOf (resourceOf_of_mem h r hr)
    obtain ⟨spec', hspec', hparts'⟩ := parts_of_resourceOf (resourceOf_of_mem h' r' hr')
    rw [hname, ← concerned_of_sameBut hsame] at hparts'
    rw [hname, hspec] at hspec'
    cases hspec'
    rw [hparts', hparts]

/-! ### Buckets, volumes and a pail

Buckets can be created and read, and so can their policies, whose operations begin with the same
word. A pail has the identifier of a bucket, so it takes the kind away from buckets if it is a
resource as well. -/

namespace Buckets

def create : ApiOperation := ⟨"/buckets", .post, some "CreateBucket", some "Bucket", []⟩

def read : ApiOperation := ⟨"/buckets/get", .post, some "GetBucket", none, [⟨"200", "BucketState"⟩]⟩

def readPolicy : ApiOperation :=
  ⟨"/buckets/policy", .post, some "GetBucketPolicy", none, [⟨"200", "BucketPolicy"⟩]⟩

def deleteVolume : ApiOperation := ⟨"/volumes/\x7bid\x7d", .delete, none, none, []⟩

def putPail : ApiOperation := ⟨"/pails", .post, some "PutPail", some "bucket", []⟩

/-- Volumes may be deleted. -/
def operations : List ApiOperation := [create, deleteVolume, read]

/-- Volumes may not, but policies may be read and pails put. -/
def operations' : List ApiOperation := [putPail, readPolicy, create, read]

def catalog : Catalog := .ofList
  [("bucket", .object [⟨"size", .primitive .integer, false⟩]),
   ("Bucket", .object [⟨"name", .primitive .string, true⟩]),
   ("BucketState", .object [⟨"full", .primitive .boolean, false⟩]),
   ("BucketPolicy", .object [⟨"text", .primitive .string, false⟩])]

/-- The resource of buckets under a kind. -/
def bucket (kind : String) : Resource where
  kind := kind
  plural := plural kind
  schemaName := "Bucket"
  spec := .object [⟨"name", .primitive .string, true⟩]
  status := .object [⟨"full", .primitive .boolean, false⟩]
  statusSchemaName := some "BucketState"
  operations := [.create, .read]
  specType := kind ++ "Spec"
  statusType := kind ++ "Status"

end Buckets

/-- Whatever else can be done in a description, a bucket is created and read, and its state is what
the read of it answers. -/
theorem buckets_undisturbed :
    resources Buckets.operations Buckets.catalog {} = .ok [Buckets.bucket "Bucket"] ∧
    SameBut (fun op => ¬Concerns Buckets.operations "Bucket" op) Buckets.operations
      Buckets.operations' ∧
    ∃ rs, resources Buckets.operations' Buckets.catalog {} = .ok rs ∧
      rs.map (fun r => (r.schemaName, r.kind)) = [("bucket", "Bucket"), ("Bucket", "Bucket1")] ∧
      Buckets.bucket "Bucket1" ∈ rs := by
  -- An operation is out of reach of buckets if the decision procedure says so.
  have hfar {op : ApiOperation}
      (h : concerns "Bucket" (nouns Buckets.operations "Bucket") op = false) :
      ¬Concerns Buckets.operations "Bucket" op := by
    rw [← concerns_iff, h]
    exact Bool.false_ne_true
  have hsame : SameBut (fun op => ¬Concerns Buckets.operations "Bucket" op) Buckets.operations
      Buckets.operations' :=
    .inserted (hfar (by cbv)) (.inserted (hfar (by cbv))
      (.same _ (.removed (hfar (by cbv)) (.same _ .nil))))
  have hresources : resources Buckets.operations Buckets.catalog {} =
      .ok [Buckets.bucket "Bucket"] := by cbv
  -- The second extraction is only run for the names. What the bucket is there follows from the
  -- first.
  obtain ⟨rs, hrs, hkinds⟩ : ∃ rs, resources Buckets.operations' Buckets.catalog {} = .ok rs ∧
      rs.map (fun r => (r.schemaName, r.kind)) = [("bucket", "Bucket"), ("Bucket", "Bucket1")] :=
    ⟨_, by cbv, by cbv⟩
  obtain ⟨r, hr, _, hkind⟩ := unconcerned_do_not_interfere hresources hrs List.mem_cons_self hsame
  have hbucket : r = Buckets.bucket r.kind := hkind
  have hmem : ("Bucket", r.kind) ∈ rs.map fun r => (r.schemaName, r.kind) :=
    List.mem_map.2 ⟨r, hr, by rw [hbucket]; rfl⟩
  have hkind_eq : r.kind = "Bucket1" := by simpa [hkinds] using hmem
  rw [hkind_eq] at hbucket
  exact ⟨hresources, hsame, rs, hrs, hkinds, hbucket ▸ hr⟩

end Extraction

end ControllerTypes
