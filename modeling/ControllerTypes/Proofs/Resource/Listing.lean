import ControllerTypes.Proofs.Resource.Coherent
import ControllerTypes.Proofs.Resource.Verb

/-!
# `ControllerTypes.Proofs.Resource.Listing`: operations that list a collection

A read of a single item reports the status of a resource, and one that lists a collection does so
only where there is no other. `Lists` says which operations list: those whose verb is `list`, and
among those without an id the ones whose path ends without a parameter.

`ApiOperation.isList` looks at the first letters of the id instead of the whole verb, so it takes
operations for lists that are none. `SeemsToList` is what these have in common, and `isList_iff`
says that there are no others. Such an operation is passed over when the paired read is searched
for. `FirstItem` is the read that should be found, and `wholeVerb_lists_iff` says when it is.
-/

set_option autoImplicit false

namespace ControllerTypes

open Name

namespace ApiOperation

/-- The operation lists a collection: the whole verb in its id says so, or its method and path do if
it has no id. -/
def Lists (op : ApiOperation) : Prop :=
  match op.operationId with
  | some id => Crud.firstWord (snakeCase id) = "list"
  | none => op.isList = true

/-- The verb of the operation begins with the letters of `list` and goes on behind them. -/
def SeemsToList (op : ApiOperation) : Prop :=
  ∃ id c rest, op.operationId = some id ∧
    (Crud.firstWord (snakeCase id)).toList = "list".toList ++ c :: rest

variable {op : ApiOperation}

/-- What `Lists` does not only seem to: its verb is `list`, with nothing behind it. -/
theorem Lists.not_seemsToList (h : op.Lists) : ¬op.SeemsToList := by
  rintro ⟨id, c, rest, hid, hverb⟩
  simp only [Lists, hid] at h
  rw [h] at hverb
  exact absurd (List.append_right_eq_self.1 hverb.symm) (List.cons_ne_nil _ _)

/-- What `isList` takes for a list is one, or seems to be. -/
theorem isList_iff : op.isList = true ↔ op.Lists ∨ op.SeemsToList := by
  cases hid : op.operationId with
  | none => simp [Lists, SeemsToList, hid]
  | some id =>
    -- That the id begins with these letters is a matter of its first word, since they have no
    -- underscore.
    have hfront : op.isList = true ↔
        "list".toList <+: (Crud.firstWord (snakeCase id)).toList := by
      simp only [isList, hid, List.isPrefixOf_iff_prefix]
      exact (Crud.prefix_firstWord_iff (by decide)).symm
    rw [hfront]
    simp only [Lists, SeemsToList, hid, Option.some.injEq, exists_and_left, exists_eq_left']
    constructor
    · rintro ⟨rest, hsplit⟩
      -- The word is `list` if nothing is left of it, and only begins so if something is.
      cases rest with
      | nil => exact .inl (String.toList_inj.1 (hsplit.symm.trans (List.append_nil _)))
      | cons c rest => exact .inr ⟨c, rest, hsplit.symm⟩
    · rintro (hverb | ⟨c, rest, hsplit⟩)
      · rw [hverb]
      · exact ⟨c :: rest, hsplit.symm⟩

/-- An operation is taken for what it is exactly if it does not only seem to list. -/
theorem isList_iff_lists : (op.isList = true ↔ op.Lists) ↔ ¬op.SeemsToList := by
  rw [isList_iff]
  constructor
  · intro h hseems
    exact (h.1 (.inr hseems)).not_seemsToList hseems
  · intro hseems
    exact or_iff_left hseems

end ApiOperation

namespace Extraction

section
variable {operations : List ApiOperation} {definition : String} {op : ApiOperation}

/-- The operation is the first read of the definition. -/
inductive FirstRead (operations : List ApiOperation) (definition : String) (op : ApiOperation) :
    Prop
  | intro {before after : List ApiOperation} (split : operations = before ++ op :: after)
      (reads : Reads operations definition op)
      (first : ∀ e ∈ before, ¬Reads operations definition e)

/-- The operation is the first read of the definition that does not list a collection. -/
inductive FirstItem (operations : List ApiOperation) (definition : String) (op : ApiOperation) :
    Prop
  | intro {before after : List ApiOperation} (split : operations = before ++ op :: after)
      (reads : Reads operations definition op) (single : ¬op.Lists)
      (first : ∀ e ∈ before, Reads operations definition e → e.Lists)

/-- A first read that only seems to list is paired where all other reads are taken for lists too and
none of them stands in front of it. Any other first read is paired anyway. -/
theorem FirstItem.paired_iff (h : FirstItem operations definition op) :
    PairedRead operations definition op ↔
      (op.SeemsToList → FirstRead operations definition op ∧
        ∀ e ∈ operations, Reads operations definition e → e.isList = true) := by
  constructor
  · -- If it seems to list, it cannot have been found among the reads of a single item.
    rintro (⟨_, _, hsingle, _⟩ | ⟨hsplit, hreads, hfirst, hlists⟩) hseems
    · rw [ApiOperation.isList_iff.2 (.inr hseems)] at hsingle
      cases hsingle
    · exact ⟨⟨hsplit, hreads, hfirst⟩, hlists⟩
  · -- What seems to list can be paired only in the second search, where lists count as well.
    intro hpaired
    obtain ⟨hsplit, hreads, hsingle, hfirst⟩ := h
    by_cases hseems : op.SeemsToList
    · obtain ⟨⟨hsplit, hreads, hfirst⟩, hlists⟩ := hpaired hseems
      exact .collection hsplit hreads hfirst hlists
    · refine .item hsplit hreads ?_ fun e he hread => ?_
      · rw [← Bool.not_eq_true, ApiOperation.isList_iff]
        exact not_or.2 ⟨hsingle, hseems⟩
      · exact ApiOperation.isList_iff.2 (.inl (hfirst e he hread))

/-- An operation with an id is taken for a list exactly if its verb is `list`, unless its verb
begins with these letters and goes on. The first read of a definition that does not list is then
passed over, unless it is the first of all reads and all of them are taken for lists. -/
theorem wholeVerb_lists_iff {id : String} (hid : op.operationId = some id) :
    ((op.isList = true ↔ Crud.firstWord (snakeCase id) = "list") ↔ ¬op.SeemsToList) ∧
    ∀ (operations : List ApiOperation) (definition : String),
      FirstItem operations definition op →
      (pairedRead? (concerned operations definition) = some op ↔
        (op.SeemsToList → FirstRead operations definition op ∧
          ∀ e ∈ operations, Reads operations definition e → e.isList = true)) := by
  refine ⟨?_, fun operations definition hfirst => ?_⟩
  · have hlists : op.Lists ↔ Crud.firstWord (snakeCase id) = "list" := by
      simp only [ApiOperation.Lists, hid]
    rw [← hlists, ApiOperation.isList_iff_lists]
  · rw [pairedRead?_concerned, hfirst.paired_iff]

end

/-- The read of a bucket is no list, and it is the paired read although a list stands first. -/
theorem bucket_read_paired :
    Buckets.read.isList = false ∧
    FirstItem [Buckets.list, Buckets.create, Buckets.read] "Bucket" Buckets.read ∧
    pairedRead? (concerned [Buckets.list, Buckets.create, Buckets.read] "Bucket") =
      some Buckets.read := by
  have hverb : Crud.firstWord (snakeCase "GetBucket") = "get" := by decide
  have hlist : Buckets.list.Lists := by
    show Crud.firstWord (snakeCase "ListBucket") = "list"
    decide
  -- Its verb is `get`, which does not begin with these letters.
  have hseems : ¬Buckets.read.SeemsToList := by
    rintro ⟨id, c, rest, hid, hsplit⟩
    cases hid
    rw [hverb] at hsplit
    cases hsplit
  have hsingle : ¬Buckets.read.Lists := by
    show Crud.firstWord (snakeCase "GetBucket") ≠ "list"
    rw [hverb]
    decide
  have hfirst : FirstItem [Buckets.list, Buckets.create, Buckets.read] "Bucket" Buckets.read := by
    have hsplit : [Buckets.list, Buckets.create, Buckets.read] =
        [Buckets.list, Buckets.create] ++ Buckets.read :: [] := rfl
    refine .intro hsplit (reads_iff.1 (by cbv)) hsingle ?_
    rintro e he hreads
    -- In front of it are a list and an operation that reads nothing.
    rcases List.mem_pair.1 he with rfl | rfl
    · exact hlist
    · exact absurd hreads.1 (by decide)
  have hid : Buckets.read.operationId = some "GetBucket" := rfl
  obtain ⟨hdetected, hpaired⟩ := wholeVerb_lists_iff hid
  refine ⟨?_, hfirst, (hpaired _ _ hfirst).2 fun h => absurd h hseems⟩
  rw [← Bool.not_eq_true, hdetected.2 hseems, hverb]
  decide

/-! ### A listener

What is read of a load balancer's listener is its state, and a summary. -/

namespace Listeners

def create : ApiOperation := ⟨"/listeners", .post, some "CreateListener", some "Listener", []⟩

def read : ApiOperation :=
  ⟨"/listeners/\x7bid\x7d", .get, some "Listener", none, [⟨"200", "ListenerState"⟩]⟩

def readSummary : ApiOperation :=
  ⟨"/listeners/\x7bid\x7d/summary", .get, some "GetListener", none, [⟨"200", "ListenerSummary"⟩]⟩

def operations : List ApiOperation := [create, read, readSummary]

end Listeners

/-- The verb `listener` is not `list`, but the operation is taken for a list. So the first read of a
listener is passed over, and the second one reports the status. -/
theorem listener_passed_over :
    Crud.firstWord (snakeCase "Listener") ≠ "list" ∧ Listeners.read.isList = true ∧
    FirstItem Listeners.operations "Listener" Listeners.read ∧
    pairedRead? (concerned Listeners.operations "Listener") = some Listeners.readSummary ∧
    ¬∀ (op : ApiOperation) (id : String), op.operationId = some id →
      (op.isList = true ↔ Crud.firstWord (snakeCase id) = "list") := by
  have hverb : Crud.firstWord (snakeCase "Listener") = "listener" := by decide
  have hlisted : Listeners.read.isList = true := by decide
  have hne : Crud.firstWord (snakeCase "Listener") ≠ "list" := by
    rw [hverb]
    decide
  refine ⟨hne, hlisted, ?_, by cbv, fun h => hne ((h Listeners.read "Listener" rfl).1 hlisted)⟩
  have hsplit : Listeners.operations =
      [Listeners.create] ++ Listeners.read :: [Listeners.readSummary] := rfl
  -- Only the creation stands in front, and that is no read.
  refine .intro hsplit (reads_iff.1 (by cbv)) hne fun e he hreads => ?_
  rw [List.mem_singleton.1 he] at hreads
  exact absurd hreads.1 (by decide)

end Extraction

end ControllerTypes
