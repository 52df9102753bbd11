import ControllerTypes.Proofs.Lists
import ControllerTypes.Proofs.Resource.Concerned

/-!
# `ControllerTypes.Proofs.Resource.Permuted`: operations in another order

An extraction goes through the operations many times, and nearly all it asks is whether there is one
of some sort. So the order of the operations hardly matters. Which definitions are nominated does
not depend on it, and with that neither does which of them are resources, in which order and under
which kinds; what can be done with a resource does not depend on it either.

The exception is the read that reports the status, which is the first of its sort
(`pairedRead?_eq_some_iff` says what it is where there is only one). `resources_of_perm` is the
result: an extraction succeeds or fails whatever the order of the operations, its resources are the
same but for the statuses, and those are the same as well where no two reads compete.
-/

set_option autoImplicit false

namespace ControllerTypes.Extraction

open Run

section
variable {operations operations' : List ApiOperation} {catalog : Catalog} {settings : Settings}
  {definition : String}

/-! ### What the order leaves alone -/

/-- The same definitions are `Nominated` in any order, since one operation is enough. -/
theorem nominated_of_perm (h : operations.Perm operations') :
    Nominated operations definition ↔ Nominated operations' definition := by
  simp only [Nominated, h.mem_iff]

/-- The same operations concern a definition, since it has the same `nouns`. -/
theorem concerns_of_perm (h : operations.Perm operations') {op : ApiOperation} :
    Concerns operations definition op ↔ Concerns operations' definition op := by
  rw [← concerns_iff, ← concerns_iff, concerns, concerns]
  -- The nouns come in another order, and only which there are is asked for.
  have hnouns (word : String) :
      word ∈ nouns operations definition ↔ word ∈ nouns operations' definition := by
    simp only [mem_nouns_iff, h.mem_iff]
  cases op.noun? <;> simp [hnouns]

/-- The same operations are `concerned` with a definition, in another order. -/
theorem mem_concerned_of_perm (h : operations.Perm operations') {op : ApiOperation} :
    op ∈ concerned operations definition ↔ op ∈ concerned operations' definition := by
  rw [mem_concerned_iff, mem_concerned_iff, h.mem_iff, concerns_of_perm h]

/-- The same definitions become resources, and in the same order, which is that of the `catalog`. -/
theorem candidates_of_perm (h : operations.Perm operations') :
    catalog.names.filter (isCandidate operations settings) =
      catalog.names.filter (isCandidate operations' settings) := by
  refine List.filter_congr fun d _ => ?_
  rw [Bool.eq_iff_iff, isCandidate_iff, isCandidate_iff, nominated_of_perm h]

/-- What is `supported` does not depend on the order either. -/
theorem supported_congr {concerned concerned' : List ApiOperation}
    (h : ∀ op, op ∈ concerned ↔ op ∈ concerned') : supported concerned = supported concerned' := by
  refine List.filter_congr fun c _ => ?_
  rw [Bool.eq_iff_iff, List.any_eq_true, List.any_eq_true]
  simp only [h]

/-! ### Whether an extraction succeeds -/

/-- An extraction succeeds if and only if nothing is `Missing`, and every candidate `IsObject`. -/
theorem exists_resources_iff :
    (∃ rs, resources operations catalog settings = .ok rs) ↔
      ¬Missing operations catalog ∧
        ∀ d ∈ catalog.names.filter (isCandidate operations settings), IsObject catalog d := by
  constructor
  · rintro ⟨rs, h⟩
    refine ⟨not_missing h, fun d hd => ?_⟩
    -- Every candidate has become a resource, and the spec of that is its object.
    obtain ⟨heach, hnames, _⟩ := resourcesOf_eq_ok (resources_eq_ok h)
    obtain ⟨r, hr, rfl⟩ := List.mem_map.1 (hnames ▸ hd)
    obtain ⟨fields, hfields⟩ := (heach r hr).spec_object
    exact ⟨fields, hfields ▸ (heach r hr).spec_eq⟩
  · rintro ⟨hthere, hobjects⟩
    rw [resources_of_not_missing hthere]
    exact exists_resourcesOf hobjects []

/-- Whether an extraction succeeds does not depend on the order of the operations. -/
theorem exists_resources_of_perm (h : operations.Perm operations') :
    (∃ rs, resources operations catalog settings = .ok rs) ↔
      ∃ rs, resources operations' catalog settings = .ok rs := by
  simp only [exists_resources_iff, Missing, nominated_of_perm h, candidates_of_perm h]

/-! ### The read that reports a status -/

/-- No two different reads concern the definition. -/
def OneRead (operations : List ApiOperation) (definition : String) : Prop :=
  ∀ op ∈ operations, ∀ op' ∈ operations, op.crud = .read → op'.crud = .read →
    Concerns operations definition op → Concerns operations definition op' → op = op'

/-- Where no two reads compete, by `hone`, the read that reports the status is the one there is. -/
theorem pairedRead?_eq_some_iff (hone : OneRead operations definition) {op : ApiOperation} :
    pairedRead? (concerned operations definition) = some op ↔
      op ∈ concerned operations definition ∧ op.crud = .read := by
  refine ⟨mem_of_pairedRead?, fun h => ?_⟩
  obtain ⟨hmem, hread⟩ := h
  cases hpaired : pairedRead? (concerned operations definition) with
  | some other =>
    obtain ⟨hmem', hread'⟩ := mem_of_pairedRead? hpaired
    obtain ⟨hop, hconcerns⟩ := mem_concerned_iff.1 hmem
    obtain ⟨hop', hconcerns'⟩ := mem_concerned_iff.1 hmem'
    rw [hone other hop' op hop hread' hread hconcerns' hconcerns]
  | none =>
    -- The read stands in the list, so that has a first one.
    have hnone := (Option.or_eq_none_iff.1 hpaired).2
    rw [List.head?_eq_none_iff, List.filter_eq_nil_iff] at hnone
    exact absurd (beq_iff_eq.2 hread) (hnone op hmem)

/-- Where no two reads compete, the same read reports the status in any order. -/
theorem pairedRead?_of_perm (h : operations.Perm operations')
    (hone : OneRead operations definition) :
    pairedRead? (concerned operations definition) =
      pairedRead? (concerned operations' definition) := by
  have hone' : OneRead operations' definition := by
    simpa only [OneRead, h.mem_iff, concerns_of_perm h] using hone
  ext op
  rw [pairedRead?_eq_some_iff hone, pairedRead?_eq_some_iff hone', mem_concerned_of_perm h]

/-! ### The resources -/

/-- The resource is the other one, but that may have another status. -/
def AgreeButStatus (r r' : Resource) : Prop :=
  r' = { r with status := r'.status, statusSchemaName := r'.statusSchemaName }

/-- What becomes of a definition under a `kind` is the same but for the status, and is the same if
no two reads compete. -/
theorem resourceOf_of_perm (h : operations.Perm operations') {kind : String} {r r' : Resource}
    (hr : resourceOf catalog operations kind definition = .ok r)
    (hr' : resourceOf catalog operations' kind definition = .ok r') :
    AgreeButStatus r r' ∧ (OneRead operations definition → r = r') := by
  obtain ⟨spec, hspec, rfl⟩ := parts_of_resourceOf hr
  obtain ⟨spec', hspec', rfl⟩ := parts_of_resourceOf hr'
  cases hspec.symm.trans hspec'
  have hsupported : supported (concerned operations definition) =
      supported (concerned operations' definition) :=
    supported_congr fun _ => mem_concerned_of_perm h
  refine ⟨by rw [AgreeButStatus, hsupported], fun hone => ?_⟩
  rw [hsupported, pairedRead?_of_perm h hone]

/-- What becomes of a list of definitions is the same in this sense, one by one. -/
theorem resourcesOf_of_perm (h : operations.Perm operations') {definitions taken : List String}
    {rs rs' : List Resource} (hrs : resourcesOf catalog operations taken definitions = .ok rs)
    (hrs' : resourcesOf catalog operations' taken definitions = .ok rs') :
    List.Forall₂ (fun r r' => AgreeButStatus r r' ∧ (OneRead operations r.schemaName → r = r'))
      rs rs' := by
  -- Each definition adds a kind to those `taken`, so the rest has to be about any of them.
  induction definitions generalizing taken rs rs' with
  | nil =>
    cases hrs
    cases hrs'
    exact .nil
  | cons d rest ih =>
    -- A kind depends on the definitions in front only, so both are given the same one.
    simp only [resourcesOf, bind_eq_ok] at hrs hrs'
    obtain ⟨r, hr, others, hothers, hrs⟩ := hrs
    obtain ⟨r', hr', others', hothers', hrs'⟩ := hrs'
    cases hrs
    cases hrs'
    have hname := (resourceOf_eq_ok hr).2.2
    exact .cons (hname ▸ resourceOf_of_perm h hr hr') (ih hothers hothers')

end

/-- In whatever order the operations come, an extraction succeeds or it does not. Its resources come
in the same order and are the same but for the statuses, and if no two reads compete for one of
them, they are the same altogether. -/
theorem resources_of_perm {operations operations' : List ApiOperation}
    (h : operations.Perm operations') (catalog : Catalog) (settings : Settings) :
    ((∃ rs, resources operations catalog settings = .ok rs) ↔
      ∃ rs, resources operations' catalog settings = .ok rs) ∧
    ∀ rs rs', resources operations catalog settings = .ok rs →
      resources operations' catalog settings = .ok rs' →
      List.Forall₂ AgreeButStatus rs rs' ∧
        ((∀ r ∈ rs, OneRead operations r.schemaName) → rs = rs') := by
  refine ⟨exists_resources_of_perm h, fun rs rs' hrs hrs' => ?_⟩
  have hcandidates := resources_eq_ok hrs
  -- Both extractions go through the same definitions, which makes them comparable one by one.
  rw [candidates_of_perm h] at hcandidates
  have hagree := resourcesOf_of_perm h hcandidates (resources_eq_ok hrs')
  refine ⟨hagree.imp fun _ _ hr => hr.1, fun hone => ?_⟩
  -- Where no two reads compete for any resource, to agree is to be equal.
  refine forall₂_unique (R := Eq) (List.forall₂_refl rs) hagree fun r hr _ _ hsame hagrees => ?_
  exact hsame ▸ hagrees.2 (hone r hr)

/-! ### Two reads of a bucket -/

namespace Buckets

def describe : ApiOperation :=
  ⟨"/buckets/describe", .post, some "DescribeBucket", none, [⟨"200", "BucketPolicy"⟩]⟩

end Buckets

/-- A bucket has its state from whichever of two reads comes first, and that is all the order
decides. With one read it decides nothing. -/
theorem reads_compete :
    [Buckets.create, Buckets.read, Buckets.describe].Perm
      [Buckets.describe, Buckets.create, Buckets.read] ∧
    (∃ rs rs',
      resources [Buckets.create, Buckets.read, Buckets.describe] Buckets.catalog {} = .ok rs ∧
      resources [Buckets.describe, Buckets.create, Buckets.read] Buckets.catalog {} = .ok rs' ∧
      rs.map Resource.statusSchemaName = [some "BucketState"] ∧
      rs'.map Resource.statusSchemaName = [some "BucketPolicy"] ∧
      List.Forall₂ AgreeButStatus rs rs') ∧
    OneRead [Buckets.create, Buckets.read] "Bucket" ∧
    resources [Buckets.create, Buckets.read] Buckets.catalog {} = .ok [Buckets.bucket "Bucket"] ∧
    resources [Buckets.read, Buckets.create] Buckets.catalog {} =
      .ok [Buckets.bucket "Bucket"] := by
  have hperm : [Buckets.create, Buckets.read, Buckets.describe].Perm
      [Buckets.describe, Buckets.create, Buckets.read] := by decide
  have hswap : [Buckets.create, Buckets.read].Perm [Buckets.read, Buckets.create] := by decide
  obtain ⟨rs, rs', hrs, hrs', hstatus, hstatus'⟩ : ∃ rs rs',
      resources [Buckets.create, Buckets.read, Buckets.describe] Buckets.catalog {} = .ok rs ∧
      resources [Buckets.describe, Buckets.create, Buckets.read] Buckets.catalog {} = .ok rs' ∧
      rs.map Resource.statusSchemaName = [some "BucketState"] ∧
      rs'.map Resource.statusSchemaName = [some "BucketPolicy"] :=
    ⟨_, _, by cbv, by cbv, by cbv, by cbv⟩
  -- Only one of the two operations is a read, so nothing competes.
  have honly : ∀ op ∈ [Buckets.create, Buckets.read], op.crud = .read → op = Buckets.read := by
    have hcreate : Buckets.create.crud = .create := by cbv
    simp [hcreate]
  have hone : OneRead [Buckets.create, Buckets.read] "Bucket" :=
    fun op hop op' hop' hread hread' _ _ =>
      (honly op hop hread).trans (honly op' hop' hread').symm
  have hbucket : resources [Buckets.create, Buckets.read] Buckets.catalog {} =
      .ok [Buckets.bucket "Bucket"] := by cbv
  refine ⟨hperm, ⟨rs, rs', hrs, hrs', hstatus, hstatus',
    ((resources_of_perm hperm Buckets.catalog {}).2 rs rs' hrs hrs').1⟩, hone, hbucket, ?_⟩
  obtain ⟨rest, hrest⟩ := (resources_of_perm hswap Buckets.catalog {}).1.1 ⟨_, hbucket⟩
  -- The other order is not run: it has the same resources since it permutes these.
  have heq := ((resources_of_perm hswap Buckets.catalog {}).2 _ rest hbucket hrest).2
    (List.forall_mem_singleton.2 hone)
  rw [hrest, heq]

end ControllerTypes.Extraction
