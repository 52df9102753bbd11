import ControllerTypes.Proofs.Resource.Coherent
import ControllerTypes.Proofs.Resource.Permuted

/-!
# `ControllerTypes.Proofs.Resource.Dangling`: reads that answer a missing definition

An operation may name a definition that is not there. If it nominates that definition, the
extraction fails. If it is the read that reports the status of a resource, nothing happens: what the
read answers is looked up among the objects, and a name that is not there is no object, like one
that stands for a number.

`Dangles` says that the paired read of a definition answers a missing one. Every error of an
extraction is about a nominated definition (`about_of_resources_eq_error`), and there is one exactly
if a nominated definition is missing or a candidate stands for no object (`exists_error_iff`). So
what dangles adds no failure. `dangling_fails_iff` puts this together with what comes out instead, a
resource with an empty status.
-/

set_option autoImplicit false

namespace ControllerTypes.Extraction

open Run

section
variable {operations : List ApiOperation} {catalog : Catalog} {settings : Settings}
  {definition : String}

/-! ### What an extraction fails over -/

/-- Some definition that is nominated and not ignored stands for no object. -/
def Unfit (operations : List ApiOperation) (catalog : Catalog) (settings : Settings) : Prop :=
  ∃ d, Nominated operations d ∧ settings.ignores d = false ∧ ¬IsObject catalog d

/-- The error is about the definition. -/
inductive About (definition : String) : Error → Prop
  | unresolved : About definition (.unresolved definition)
  | resourceShape (found : String) : About definition (.resourceShape definition found)

/-- A definition that `specOf` fails over is to blame for that itself. -/
theorem about_of_specOf_eq_error {e : Error} (h : specOf catalog definition = .error e) :
    About definition e := by
  rw [specOf] at h
  split at h
  · cases h
  · cases h
    exact .resourceShape _
  · cases h
    exact .unresolved

/-- Extracting a list of `definitions` fails over one of them. -/
theorem about_of_resourcesOf_eq_error {taken definitions : List String} {e : Error}
    (h : resourcesOf catalog operations taken definitions = .error e) :
    ∃ d ∈ definitions, About d e := by
  -- The first definition fails over its spec, or the failure is one of the others.
  induction definitions generalizing taken with
  | nil => cases h
  | cons d rest ih =>
    simp only [resourcesOf, resourceOf] at h
    cases hspec : specOf catalog d with
    | error e' =>
      rw [hspec] at h
      cases h
      exact ⟨d, List.mem_cons_self, about_of_specOf_eq_error hspec⟩
    | ok spec =>
      rw [hspec] at h
      cases hrest : resourcesOf catalog operations (takeKind d taken).2 rest with
      | error e' =>
        simp only [hrest] at h
        cases h
        obtain ⟨d', hd', habout⟩ := ih hrest
        exact ⟨d', List.mem_cons_of_mem _ hd', habout⟩
      | ok rs =>
        simp only [hrest] at h
        cases h

/-- Every error of an extraction is `About` a definition that is `Nominated`. -/
theorem about_of_resources_eq_error {e : Error}
    (h : resources operations catalog settings = .error e) :
    ∃ d, Nominated operations d ∧ About d e := by
  -- A missing definition is looked for before the candidates, so it comes first.
  by_cases hmissing : Missing operations catalog
  · obtain ⟨d, hnominated, _, herror⟩ := resources_of_missing settings hmissing
    cases herror.symm.trans h
    exact ⟨d, hnominated, .unresolved⟩
  · rw [resources_of_not_missing hmissing] at h
    obtain ⟨d, hd, habout⟩ := about_of_resourcesOf_eq_error h
    exact ⟨d, (isCandidate_iff.1 (List.mem_filter.1 hd).2).1, habout⟩

/-- An extraction fails exactly if something is `Missing`, or some candidate is `Unfit`. -/
theorem exists_error_iff :
    (∃ e, resources operations catalog settings = .error e) ↔
      Missing operations catalog ∨ Unfit operations catalog settings := by
  have herror : (∃ e, resources operations catalog settings = .error e) ↔
      ¬∃ rs, resources operations catalog settings = .ok rs := by
    cases resources operations catalog settings <;> simp
  rw [herror, exists_resources_iff]
  by_cases hmissing : Missing operations catalog
  · simp [hmissing]
  · -- With every nominated definition there, the candidates are those that are not ignored.
    simp only [hmissing, not_false_eq_true, true_and, false_or, Unfit, not_forall, exists_prop,
      List.mem_filter, isCandidate_iff, and_assoc]
    exact exists_congr fun d => ⟨fun h => h.2, fun h => ⟨mem_names_of_nominated hmissing h.1, h⟩⟩

/-! ### Reads that dangle -/

/-- The read that reports the status of the definition answers a missing one. -/
def Dangles (operations : List ApiOperation) (catalog : Catalog) (definition : String) : Prop :=
  ∃ op answer, PairedRead operations definition op ∧ op.Answers answer ∧ answer ∉ catalog.names

/-- This happens to a definition that is nominated and not ignored: its paired read `Dangles`. -/
def Dangling (operations : List ApiOperation) (catalog : Catalog) (settings : Settings) : Prop :=
  ∃ d, Nominated operations d ∧ settings.ignores d = false ∧ Dangles operations catalog d

/-- A read that answers a missing definition reports no status: `statusOf` is empty and names
nothing. -/
theorem Dangles.statusOf_eq (h : Dangles operations catalog definition) :
    statusOf catalog definition (pairedRead? (concerned operations definition)) =
      (.emptyObject, none) := by
  obtain ⟨op, answer, hpaired, hanswers, hmissing⟩ := h
  have hread := bind_pairedRead?.2 ⟨op, hpaired, hanswers⟩
  -- A status would come from what the read answers, and that would have to be an object.
  have hnone : (statusOf catalog definition
      (pairedRead? (concerned operations definition))).2 = none := by
    rw [Option.eq_none_iff_forall_ne_some]
    intro d hd
    obtain ⟨_, ⟨_, htarget⟩, hd⟩ := statusOf_eq_some_iff.1 hd
    cases hread.symm.trans hd
    exact hmissing (Catalog.mem_names_of_target? htarget)
  exact Prod.ext ((statusOf_spec catalog definition _).2.2 hnone) hnone

end

/-- An extraction in which a read dangles fails exactly if there is something else to fail over, and
then it does not speak of what is missing unless that is nominated as well. If it succeeds, the
definitions whose reads dangle are resources with empty statuses. -/
theorem dangling_fails_iff (operations : List ApiOperation) (catalog : Catalog)
    (settings : Settings) :
    ((Dangling operations catalog settings →
        ∃ e, resources operations catalog settings = .error e) ↔
      ¬Dangling operations catalog settings ∨ Missing operations catalog ∨
        Unfit operations catalog settings) ∧
    (∀ e, resources operations catalog settings = .error e →
      ∃ d, Nominated operations d ∧ About d e) ∧
    ∀ rs, resources operations catalog settings = .ok rs → ∀ d, Nominated operations d →
      settings.ignores d = false → Dangles operations catalog d →
      ∃ r ∈ rs, r.schemaName = d ∧ r.status = .emptyObject ∧ r.statusSchemaName = none := by
  refine ⟨?_, fun _ => about_of_resources_eq_error, fun rs hrs d hnominated hignored hdangles => ?_⟩
  · rw [exists_error_iff, imp_iff_not_or]
  · have hthere := mem_names_of_nominated (not_missing hrs) hnominated
    -- The definition is a resource, as it would be with any other read.
    obtain ⟨r, hr, rfl⟩ := (exists_resource_iff hrs).2 ⟨hthere, hnominated, hignored⟩
    obtain ⟨spec, _, hparts⟩ := parts_of_resourceOf (resourceOf_of_mem hrs r hr)
    rw [hdangles.statusOf_eq] at hparts
    exact ⟨r, hr, rfl, congrArg Resource.status hparts, congrArg Resource.statusSchemaName hparts⟩

/-! ### A lock without a state -/

namespace Locks

def create : ApiOperation := ⟨"/locks", .post, some "CreateLock", some "Lock", []⟩

def read : ApiOperation :=
  ⟨"/locks/\x7bid\x7d", .get, some "GetLock", none, [⟨"200", "LockState"⟩]⟩

def catalog : Catalog := .ofList [("Lock", .object [⟨"code", .primitive .string, false⟩])]

end Locks

/-- A lock can be created and read, and reading it answers a state that is not there. The extraction
succeeds. -/
theorem lock_read_dangles :
    ¬∀ (operations : List ApiOperation) (catalog : Catalog) (settings : Settings),
      Dangling operations catalog settings →
        ∃ e, resources operations catalog settings = .error e := by
  intro h
  have hpaired : PairedRead [Locks.create, Locks.read] "Lock" Locks.read :=
    pairedRead?_concerned.1 (by cbv)
  have hanswers : Locks.read.Answers "LockState" :=
    ApiOperation.successResponse?_eq_some_iff.1 (by cbv)
  have hnominates : Locks.create.Nominates "Lock" := ApiOperation.nominee?_eq_some_iff.1 (by cbv)
  -- If it held, the extraction would fail, while the run of it below succeeds.
  obtain ⟨e, he⟩ := h [Locks.create, Locks.read] Locks.catalog {}
    ⟨"Lock", ⟨Locks.create, List.mem_cons_self, hnominates⟩, by cbv,
      Locks.read, "LockState", hpaired, hanswers, by decide⟩
  have hok : (resources [Locks.create, Locks.read] Locks.catalog {}).isOk = true := by cbv
  rw [he] at hok
  cases hok

end ControllerTypes.Extraction
