import ControllerTypes.Proofs.Resource.Extracted
import Mathlib

/-!
# `ControllerTypes.Proofs.Resource.Nominated`: exactly which definitions become resources

An operation that creates or updates something nominates the definition in its request. If the
request names none, it nominates what it answers on success, and what it answers by default if no
success is recorded (`ApiOperation.Nominates`). Whatever the operations are, an extraction ends in
one of three ways. A nominated definition is missing, and it does not matter then that it might have
been ignored (`resources_of_missing`). Or all are there, and one that is not ignored stands for
something else than an object (`resources_of_misshapen`). Or every definition that is nominated and
not ignored becomes a resource (`resources_of_sound`). `resources_exact` puts the three together.

The order of the resources is that of the catalog. The operations only decide which definitions are
candidates, so it makes no difference how many of them nominate the same one.
-/

set_option autoImplicit false

namespace ControllerTypes

open Run

/-! ### What an operation nominates -/

namespace ApiOperation

/-- What an operation answers when all goes well: the body of its first response with a success
status, or else that of its first default response. -/
inductive Answers (op : ApiOperation) : String → Prop
  | success {before after : List ApiResponse} {r : ApiResponse}
      (split : op.responses = before ++ r :: after)
      (first : ∀ e ∈ before, isSuccess e.status = false) (hit : isSuccess r.status = true) :
      Answers op r.schema
  | default {before after : List ApiResponse} {r : ApiResponse}
      (noSuccess : ∀ e ∈ op.responses, isSuccess e.status = false)
      (split : op.responses = before ++ r :: after)
      (first : ∀ e ∈ before, e.status ≠ "default") (hit : r.status = "default") :
      Answers op r.schema

/-- A definition that an operation nominates: an operation that creates or updates has it as its
request body, or has no such body and answers with it. -/
inductive Nominates (op : ApiOperation) : String → Prop
  | request {definition : String} (mutating : op.crud = .create ∨ op.crud = .update)
      (body : op.requestBody = some definition) : Nominates op definition
  | response {definition : String} (mutating : op.crud = .create ∨ op.crud = .update)
      (noBody : op.requestBody = none) (answer : op.Answers definition) : Nominates op definition

variable {op : ApiOperation} {definition : String}

/-- What `successResponse?` finds is what `Answers` says: the operation answers it when all goes
well. -/
theorem successResponse?_eq_some_iff :
    op.successResponse? = some definition ↔ op.Answers definition := by
  rw [successResponse?, Option.map_eq_some_iff]
  constructor
  · rintro ⟨r, hr, rfl⟩
    -- The default is only looked for where no response is a success.
    rcases Option.or_eq_some_iff.1 hr with hsuccess | ⟨hnone, hdefault⟩
    · obtain ⟨hit, before, after, split, first⟩ := List.find?_eq_some_iff_append.1 hsuccess
      exact .success split (by simpa using first) hit
    · obtain ⟨hit, before, after, split, first⟩ := List.find?_eq_some_iff_append.1 hdefault
      exact .default (by simpa using hnone) split (by simpa using first) (by simpa using hit)
  · rintro (@⟨before, after, r, split, first, hit⟩ | @⟨before, after, r, hnone, split, first, hit⟩)
    · have hsuccess : (op.responses.find? fun r => isSuccess r.status) = some r :=
        List.find?_eq_some_iff_append.2 ⟨hit, before, after, split, by simpa using first⟩
      exact ⟨r, Option.or_eq_some_iff.2 (.inl hsuccess), rfl⟩
    · have hsuccess : (op.responses.find? fun r => isSuccess r.status) = none := by
        simpa using hnone
      have hdefault : (op.responses.find? fun r => r.status == "default") = some r :=
        List.find?_eq_some_iff_append.2 ⟨by simpa using hit, before, after, split,
          by simpa using first⟩
      exact ⟨r, Option.or_eq_some_iff.2 (.inr ⟨hsuccess, hdefault⟩), rfl⟩

/-- The operations that change a remote state are those that create or update. -/
theorem isMutating_crud_iff :
    op.crud.isMutating = true ↔ op.crud = .create ∨ op.crud = .update := by
  cases op.crud <;> simp [Crud.isMutating]

/-- The `nominee?` of an operation is what it `Nominates`. -/
theorem nominee?_eq_some_iff : op.nominee? = some definition ↔ op.Nominates definition := by
  have hmutating : op.crud.isMutating = true ↔ _ := isMutating_crud_iff
  unfold nominee?
  -- An operation that changes nothing nominates nothing. One that does is asked for its body first.
  cases hcrud : op.crud.isMutating with
  | false =>
    have hnot : ¬ (op.crud = .create ∨ op.crud = .update) := by simp [← hmutating, hcrud]
    constructor
    · intro h
      cases h
    · rintro (⟨mutating, _⟩ | ⟨mutating, _⟩) <;> exact absurd mutating hnot
  | true =>
    have mutating := hmutating.1 hcrud
    rw [Option.or_eq_some_iff, successResponse?_eq_some_iff]
    constructor
    · rintro (body | ⟨noBody, answer⟩)
      · exact .request mutating body
      · exact .response mutating noBody answer
    · rintro (⟨_, body⟩ | ⟨_, noBody, answer⟩)
      · exact .inl body
      · exact .inr ⟨noBody, answer⟩

end ApiOperation

namespace Extraction

/-- Some operation nominates the definition. -/
def Nominated (operations : List ApiOperation) (definition : String) : Prop :=
  ∃ op ∈ operations, op.Nominates definition

/-- The definition stands for an object. -/
def IsObject (catalog : Catalog) (definition : String) : Prop :=
  ∃ fields, catalog.target? definition = some (.object fields)

section
variable {operations : List ApiOperation} {catalog : Catalog} {settings : Settings}

/-- The candidates are the definitions that are `Nominated` and that the settings do not ignore. -/
theorem isCandidate_iff {definition : String} :
    isCandidate operations settings definition = true ↔
      Nominated operations definition ∧ settings.ignores definition = false := by
  rw [isCandidate, Bool.and_eq_true, List.any_eq_true, Bool.not_eq_true']
  simp only [beq_iff_eq, ApiOperation.nominee?_eq_some_iff, Nominated]

/-- The definition of a resource is `Nominated`. -/
theorem nominated_of_mem {resources : List Resource}
    (h : Extraction.resources operations catalog settings = .ok resources) :
    ∀ r ∈ resources, Nominated operations r.schemaName := by
  intro r hr
  have hmem := List.mem_map_of_mem (f := Resource.schemaName) hr
  rw [(resourcesOf_eq_ok (resources_eq_ok h)).2.1] at hmem
  exact (isCandidate_iff.1 (List.mem_filter.1 hmem).2).1

/-- The nominees of a list of operations are the definitions that are `Nominated`. -/
theorem mem_nominees_iff {definition : String} :
    definition ∈ operations.filterMap ApiOperation.nominee? ↔ Nominated operations definition := by
  rw [List.mem_filterMap]
  simp only [ApiOperation.nominee?_eq_some_iff, Nominated]

/-! ### Making the resources of a list of definitions -/

variable (operations) in
/-- A definition that `IsObject` becomes a resource, whatever its kind is. -/
theorem exists_resourceOf {definition : String} (h : IsObject catalog definition) (kind : String) :
    ∃ r, resourceOf catalog operations kind definition = .ok r := by
  obtain ⟨fields, htarget⟩ := h
  have hspec : specOf catalog definition = .ok (.object fields) := by rw [specOf, htarget]
  exact ⟨_, by rw [resourceOf, hspec]; rfl⟩

/-- Definitions each of which `IsObject` become resources. -/
theorem exists_resourcesOf {definitions : List String}
    (h : ∀ d ∈ definitions, IsObject catalog d) (taken : List String) :
    ∃ rs, resourcesOf catalog operations taken definitions = .ok rs := by
  -- The kinds `taken` grow on the way, and no set of them makes a definition fail.
  induction definitions generalizing taken with
  | nil => exact ⟨[], rfl⟩
  | cons d rest ih =>
    obtain ⟨hd, hrest⟩ := List.forall_mem_cons.1 h
    obtain ⟨r, hr⟩ := exists_resourceOf operations hd (takeKind d taken).1
    obtain ⟨rs, hrs⟩ := ih hrest (takeKind d taken).2
    exact ⟨r :: rs, bind_eq_ok.2 ⟨r, hr, bind_eq_ok.2 ⟨rs, hrs, rfl⟩⟩⟩

/-- The first definition that stands for something else than an object ends the extraction. -/
theorem resourcesOf_of_misshapen {before after : List String} {d : String} {schema : Schema}
    (hbefore : ∀ e ∈ before, IsObject catalog e) (htarget : catalog.target? d = some schema)
    (hschema : ∀ fields, schema ≠ .object fields) (taken : List String) :
    resourcesOf catalog operations taken (before ++ d :: after) =
      .error (.resourceShape d schema.variantName) := by
  -- On the definitions in front, each of which becomes a resource that is thrown away.
  induction before generalizing taken with
  | nil =>
    have hspec : specOf catalog d = .error (.resourceShape d schema.variantName) := by
      rw [specOf, htarget]
      -- Every variant but an object fails, with its name in the error.
      cases schema <;> first | rfl | exact absurd rfl (hschema _)
    simp only [List.nil_append, resourcesOf, resourceOf, hspec]
    rfl
  | cons e rest ih =>
    obtain ⟨he, hrest⟩ := List.forall_mem_cons.1 hbefore
    obtain ⟨r, hr⟩ := exists_resourceOf operations he (takeKind e taken).1
    simp only [List.cons_append, resourcesOf, hr, ih hrest]
    rfl

/-! ### The three ways an extraction ends -/

/-- Some nominated definition is not there. -/
def Missing (operations : List ApiOperation) (catalog : Catalog) : Prop :=
  ∃ d, Nominated operations d ∧ d ∉ catalog.names

/-- Some definition that is nominated and not ignored stands for something else than an object. -/
def Misshapen (operations : List ApiOperation) (catalog : Catalog) (settings : Settings) : Prop :=
  ∃ d schema, Nominated operations d ∧ settings.ignores d = false ∧
    catalog.target? d = some schema ∧ ∀ fields, schema ≠ .object fields

/-- What an extraction looks for first is a name that the catalog does not have. -/
theorem not_contains_iff {d : String} : (!catalog.contains d) = true ↔ d ∉ catalog.names := by
  rw [Bool.not_eq_true', ← Bool.not_eq_true]
  exact not_congr Named.contains_iff

variable (settings) in
/-- An extraction fails over a definition that is `Missing`, and says which one. -/
theorem resources_of_missing (h : Missing operations catalog) :
    ∃ d, Nominated operations d ∧ d ∉ catalog.names ∧
      resources operations catalog settings = .error (.unresolved d) := by
  obtain ⟨d, hnominated, hd⟩ := h
  unfold Extraction.resources
  split
  · next missing hfind =>
    have hmissing := List.find?_some hfind
    exact ⟨missing, mem_nominees_iff.1 (List.mem_of_find?_eq_some hfind),
      not_contains_iff.1 hmissing, rfl⟩
  · next hfind =>
    have hcontains := List.find?_eq_none.1 hfind d (mem_nominees_iff.2 hnominated)
    exact absurd (not_contains_iff.2 hd) hcontains

/-- Where there are resources, nothing is `Missing`. -/
theorem not_missing {resources : List Resource}
    (h : Extraction.resources operations catalog settings = .ok resources) :
    ¬ Missing operations catalog := by
  intro hmissing
  obtain ⟨_, _, _, herror⟩ := resources_of_missing settings hmissing
  cases h.symm.trans herror

/-- Where nothing is `Missing`, a definition that is `Nominated` is there. -/
theorem mem_names_of_nominated {definition : String} (hthere : ¬ Missing operations catalog)
    (hnominated : Nominated operations definition) : definition ∈ catalog.names :=
  by_contra fun hnot => hthere ⟨definition, hnominated, hnot⟩

/-- If nothing is `Missing`, the candidates are turned into resources. -/
theorem resources_of_not_missing (h : ¬ Missing operations catalog) :
    resources operations catalog settings = resourcesOf catalog operations []
      (catalog.names.filter (isCandidate operations settings)) := by
  unfold Extraction.resources
  split
  · next missing hfind =>
    have hmissing := List.find?_some hfind
    exact absurd ⟨missing, mem_nominees_iff.1 (List.mem_of_find?_eq_some hfind),
      not_contains_iff.1 hmissing⟩ h
  · rfl

/-- If nothing is `Missing`, an extraction fails over a candidate that is no object, and says which
one and what it is instead. By `htargets` every name of the catalog stands for something. -/
theorem resources_of_misshapen (hthere : ¬ Missing operations catalog)
    (htargets : ∀ d ∈ catalog.names, ∃ schema, catalog.target? d = some schema)
    (h : Misshapen operations catalog settings) :
    ∃ d schema, Nominated operations d ∧ settings.ignores d = false ∧
      catalog.target? d = some schema ∧ (∀ fields, schema ≠ .object fields) ∧
      resources operations catalog settings =
        .error (.resourceShape d schema.variantName) := by
  classical
  obtain ⟨e, schema, hnominated, hignored, htarget, hschema⟩ := h
  have hmem : e ∈ catalog.names.filter (isCandidate operations settings) :=
    List.mem_filter.2 ⟨mem_names_of_nominated hthere hnominated,
      isCandidate_iff.2 ⟨hnominated, hignored⟩⟩
  -- The given definition is one that the search would stop at.
  have hnot : ¬ IsObject catalog e := by
    rintro ⟨fields, hobject⟩
    exact hschema fields (Option.some.inj (htarget.symm.trans hobject))
  -- The error is about the first such candidate, which need not be the given one.
  obtain ⟨d, hfind⟩ := Option.isSome_iff_exists.1
    (List.find?_isSome (p := fun d => decide (¬ IsObject catalog d)) |>.2
      ⟨e, hmem, decide_eq_true hnot⟩)
  obtain ⟨hd, before, after, hsplit, hbefore⟩ := List.find?_eq_some_iff_append.1 hfind
  have hdmem := List.mem_filter.1 (List.mem_of_find?_eq_some hfind)
  obtain ⟨hdnominated, hdignored⟩ := isCandidate_iff.1 hdmem.2
  obtain ⟨other, hother⟩ := htargets d hdmem.1
  have hshape (fields : List (Field Schema)) : other ≠ .object fields :=
    fun heq => of_decide_eq_true hd ⟨fields, heq ▸ hother⟩
  refine ⟨d, other, hdnominated, hdignored, hother, hshape, ?_⟩
  rw [resources_of_not_missing hthere, hsplit]
  exact resourcesOf_of_misshapen (by simpa using hbefore) hother hshape []

/-- If nothing is `Missing` and nothing `Misshapen`, an extraction succeeds. -/
theorem resources_of_sound (hthere : ¬ Missing operations catalog)
    (htargets : ∀ d ∈ catalog.names, ∃ schema, catalog.target? d = some schema)
    (hshapes : ¬ Misshapen operations catalog settings) :
    ∃ rs, resources operations catalog settings = .ok rs := by
  rw [resources_of_not_missing hthere]
  refine exists_resourcesOf (fun d hd => ?_) []
  obtain ⟨hname, hcandidate⟩ := List.mem_filter.1 hd
  obtain ⟨hnominated, hignored⟩ := isCandidate_iff.1 hcandidate
  obtain ⟨schema, htarget⟩ := htargets d hname
  -- A candidate that is no object would be misshapen.
  by_contra hnot
  refine hshapes ⟨d, schema, hnominated, hignored, htarget, ?_⟩
  rintro fields rfl
  exact hnot ⟨fields, htarget⟩

/-- An extraction ends with an unresolved reference exactly if a nominated definition is missing,
with a wrong shape exactly if none is missing and a candidate is no object, and with resources
otherwise. These are the definitions that are nominated and not ignored, each once and in the order
of the catalog, with the objects they stand for as their specs. -/
theorem resources_exact (operations : List ApiOperation) (catalog : Catalog) (settings : Settings)
    (htargets : ∀ d ∈ catalog.names, ∃ schema, catalog.target? d = some schema) :
    ((∃ d, resources operations catalog settings = .error (.unresolved d)) ↔
      Missing operations catalog) ∧
    ((∃ d found, resources operations catalog settings = .error (.resourceShape d found)) ↔
      ¬ Missing operations catalog ∧ Misshapen operations catalog settings) ∧
    ((∃ rs, resources operations catalog settings = .ok rs) ↔
      ¬ Missing operations catalog ∧ ¬ Misshapen operations catalog settings) ∧
    ∀ rs, resources operations catalog settings = .ok rs →
      List.Sublist (rs.map Resource.schemaName) catalog.names ∧
      (rs.map Resource.schemaName).Nodup ∧
      (∀ d, d ∈ rs.map Resource.schemaName ↔
        Nominated operations d ∧ settings.ignores d = false) ∧
      ∀ r ∈ rs, catalog.target? r.schemaName = some r.spec := by
  -- One case for each way to end, in the order in which an extraction looks for them.
  by_cases hmissing : Missing operations catalog
  · obtain ⟨d, _, _, herror⟩ := resources_of_missing settings hmissing
    simp [herror, hmissing]
  by_cases hshapes : Misshapen operations catalog settings
  · obtain ⟨d, schema, _, _, _, _, herror⟩ := resources_of_misshapen hmissing htargets hshapes
    simp [herror, hmissing, hshapes]
  obtain ⟨rs, hok⟩ := resources_of_sound hmissing htargets hshapes
  refine ⟨by simp [hok, hmissing], by simp [hok, hshapes], by simp [hok, hmissing, hshapes], ?_⟩
  intro rs hrs
  obtain ⟨heach, hnames, _⟩ := resourcesOf_eq_ok (resources_eq_ok hrs)
  -- What is left is about an extraction that succeeded: its definitions are the candidates.
  rw [hnames]
  refine ⟨List.filter_sublist, List.filter_sublist.nodup catalog.nodup, fun d => ?_,
    fun r hr => (heach r hr).spec_eq⟩
  rw [List.mem_filter, isCandidate_iff]
  refine ⟨And.right, fun h => ⟨?_, h⟩⟩
  exact by_contra fun hnot => hmissing ⟨d, h.1, hnot⟩

end

/-! ### A bakery

Loaves are named by two requests. Orders are only answered, once with a success status and behind a
default response that says something else. Receipts are a list and no object. -/

namespace Bakery

def operations : List ApiOperation :=
  [⟨"/loaves", .post, some "BakeLoaf", some "Loaf", []⟩,
   ⟨"/orders", .post, some "PutOrder", none, [⟨"default", "Problem"⟩, ⟨"201", "Order"⟩]⟩,
   ⟨"/loaves/\x7bid\x7d", .patch, none, some "Loaf", []⟩,
   ⟨"/receipts", .post, none, some "Receipt", []⟩,
   ⟨"/problems", .post, some "ListProblems", some "Problem", []⟩]

def catalog : Catalog := .ofList
  [("Problem", .emptyObject), ("Order", .object [⟨"count", .primitive .integer, true⟩]),
   ("Receipt", .array (.primitive .string)), ("Loaf", .reference "Bread"),
   ("Bread", .object [⟨"weight", .primitive .number, false⟩])]

end Bakery

/-- The receipts of a bakery cannot be resources, and once they are ignored, orders and loaves are
all that can. -/
theorem bakery_resources_exact :
    (∀ d ∈ Bakery.catalog.names, ∃ schema, Bakery.catalog.target? d = some schema) ∧
    Misshapen Bakery.operations Bakery.catalog {} ∧
    ¬ Misshapen Bakery.operations Bakery.catalog { ignored := ["Rec*"] } ∧
    ∃ rs, resources Bakery.operations Bakery.catalog { ignored := ["Rec*"] } = .ok rs ∧
      rs.map Resource.schemaName = ["Order", "Loaf"] ∧
      ∀ d, d ∈ ["Order", "Loaf"] ↔ Nominated Bakery.operations d ∧
        Settings.ignores { ignored := ["Rec*"] } d = false := by
  have htargets : ∀ d ∈ Bakery.catalog.names, ∃ schema, Bakery.catalog.target? d = some schema := by
    have hnames : Bakery.catalog.names = ["Problem", "Order", "Receipt", "Loaf", "Bread"] := by
      decide
    -- Each of the five names is looked up.
    rw [hnames]
    simp only [List.forall_mem_cons, List.not_mem_nil, false_imp_iff, implies_true, and_true]
    exact ⟨⟨_, rfl⟩, ⟨_, rfl⟩, ⟨_, rfl⟩, ⟨_, rfl⟩, ⟨_, rfl⟩⟩
  obtain ⟨_, hshape, _, _⟩ := resources_exact Bakery.operations Bakery.catalog {} htargets
  obtain ⟨_, _, hok, hall⟩ := resources_exact Bakery.operations Bakery.catalog
    { ignored := ["Rec*"] } htargets
  -- Without settings it is the list of receipts that an extraction stops at.
  have hfails : ∃ d found, resources Bakery.operations Bakery.catalog {} =
      .error (.resourceShape d found) := ⟨"Receipt", "array", by cbv⟩
  obtain ⟨rs, hrs, hnames⟩ : ∃ rs,
      resources Bakery.operations Bakery.catalog { ignored := ["Rec*"] } = .ok rs ∧
      rs.map Resource.schemaName = ["Order", "Loaf"] := ⟨_, by cbv, by cbv⟩
  exact ⟨htargets, (hshape.1 hfails).2, (hok.1 ⟨rs, hrs⟩).2, rs, hrs, hnames,
    hnames ▸ (hall rs hrs).2.2.1⟩

end Extraction

end ControllerTypes
