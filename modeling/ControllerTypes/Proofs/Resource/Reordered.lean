import ControllerTypes.Proofs.Resolution.Reordered
import ControllerTypes.Proofs.Resource.Nominated

/-!
# `ControllerTypes.Proofs.Resource.Reordered`: resources of a catalog in another order

Resources are made from what definitions stand for, which does not depend on the order of a catalog.
What does is the order of the resources themselves, and with it the kinds they are given. Two
catalogs with the same schemas have the same resources if the definitions that become resources
come in the same order in both (`resources_agree`), and both have resources or none of them has
(`exists_resources`).
-/

set_option autoImplicit false

namespace ControllerTypes.Extraction

open Named Resolution

variable {operations : List ApiOperation} {catalog catalog' : Catalog} {settings : Settings}
  {resources : List Resource}

/-- Resources of the same definitions are the same if these stand for the same schemas. -/
theorem resourcesOf_congr (h : ∀ d, catalog.target? d = catalog'.target? d)
    (definitions taken : List String) :
    resourcesOf catalog operations taken definitions =
      resourcesOf catalog' operations taken definitions := by
  have htargets : catalog.target? = catalog'.target? := funext h
  induction definitions generalizing taken with
  | nil => rfl
  | cons d rest ih =>
    have hfirst (kind : String) :
        resourceOf catalog operations kind d = resourceOf catalog' operations kind d := by
      simp only [resourceOf, specOf, statusOf, htargets]
    simp only [resourcesOf, hfirst, ih]

/-- The same is `Missing` in catalogs with the same schemas. -/
theorem missing_congr (h : ∀ d, catalog.get? d = catalog'.get? d) :
    Missing operations catalog ↔ Missing operations catalog' := by
  simp only [Missing, mem_names_congr h]

/-- The same is `Misshapen` in catalogs with the same schemas. -/
theorem misshapen_congr (h : ∀ d, catalog.get? d = catalog'.get? d) :
    Misshapen operations catalog settings ↔ Misshapen operations catalog' settings := by
  simp only [Misshapen, target?_congr h]

/-- If a catalog has resources, then so has every other one with the same schemas, by `hget`. -/
theorem exists_resources (h : Extraction.resources operations catalog settings = .ok resources)
    (hget : ∀ d, catalog.get? d = catalog'.get? d)
    (htargets : ∀ d ∈ catalog.names, ∃ schema, catalog.target? d = some schema) :
    ∃ rs, Extraction.resources operations catalog' settings = .ok rs := by
  have hthere := not_missing h
  -- An extraction that succeeded has found neither of the two things that one fails over.
  have hshapes : ¬ Misshapen operations catalog settings := by
    intro hmisshapen
    obtain ⟨_, _, _, _, _, _, herror⟩ := resources_of_misshapen hthere htargets hmisshapen
    cases h.symm.trans herror
  refine resources_of_sound ((missing_congr hget).not.1 hthere) ?_
    ((misshapen_congr hget).not.1 hshapes)
  intro d hd
  rw [← target?_congr hget]
  exact htargets d ((mem_names_congr hget d).2 hd)

/-- Two catalogs with the same schemas have the same resources, if the definitions that become
resources are among some, those that `keep` picks, that come in the same order in both. -/
theorem resources_agree {keep : String → Bool}
    (h : Extraction.resources operations catalog settings = .ok resources)
    (hget : ∀ d, catalog.get? d = catalog'.get? d)
    (hkeep : ∀ r ∈ resources, keep r.schemaName = true)
    (horder : catalog.names.filter keep = catalog'.names.filter keep) :
    Extraction.resources operations catalog' settings = .ok resources := by
  -- A candidate has become a resource, so it is one of those that are kept.
  have hcandidates (d : String) (hd : d ∈ catalog.names)
      (hcandidate : isCandidate operations settings d = true) : keep d = true := by
    have hmem := List.mem_filter.2 ⟨hd, hcandidate⟩
    rw [← (resourcesOf_eq_ok (resources_eq_ok h)).2.1] at hmem
    obtain ⟨r, hr, rfl⟩ := List.mem_map.1 hmem
    exact hkeep r hr
  -- So it makes no difference to the candidates if the others are dropped first.
  have hfilter (names : List String) (hsub : ∀ d ∈ names, d ∈ catalog.names) :
      (names.filter keep).filter (isCandidate operations settings) =
        names.filter (isCandidate operations settings) := by
    rw [List.filter_filter]
    refine List.filter_congr fun d hd => ?_
    cases hcandidate : isCandidate operations settings d with
    | false => rfl
    | true => rw [hcandidates d (hsub d hd) hcandidate, Bool.and_self]
  have hthere := (missing_congr hget).not.1 (not_missing h)
  rw [resources_of_not_missing hthere, ← resourcesOf_congr (target?_congr hget),
    ← hfilter catalog'.names fun d hd => (mem_names_congr hget d).2 hd, ← horder,
    hfilter catalog.names fun _ hd => hd]
  exact resources_eq_ok h

end ControllerTypes.Extraction
