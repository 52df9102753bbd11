import ControllerTypes.Emission.Artifact
import ControllerTypes.Proofs.Run

/-!
# `ControllerTypes.Proofs.Emission.Plan`: when all files of a package can be rendered

Rendering a package takes two things: no two of its files have the same name, and the renderer has
an answer for each of them. `Rendered` says so of artifacts without a word about how they were made,
and `renderAll_eq_ok_iff` that `renderAll` makes exactly those.
-/

set_option autoImplicit false

namespace ControllerTypes.CompiledApi

open Run

variable {api : CompiledApi} {renderer : Renderer}

/-- No name is repeated exactly if the list has every name once, and none that is in `seen`. -/
theorem firstRepeated?_eq_none_iff {seen names : List String} :
    firstRepeated? seen names = none ↔ names.Nodup ∧ ∀ name ∈ names, name ∉ seen := by
  -- Every name that is passed goes into `seen`, so the statement is about any `seen` and not about
  -- none.
  induction names generalizing seen with
  | nil => simp [firstRepeated?]
  | cons name rest ih =>
    rw [firstRepeated?]
    by_cases hseen : name ∈ seen
    · simp [hseen]
    · rw [if_neg hseen, ih, List.nodup_cons]
      simp only [List.mem_cons, not_or, forall_eq_or_imp]
      -- Both sides say that `name` is not in `rest`, one of them by way of `seen`.
      constructor
      · rintro ⟨hrest, hnew⟩
        exact ⟨⟨fun hmem => (hnew name hmem).1 rfl, hrest⟩, hseen, fun n hn => (hnew n hn).2⟩
      · rintro ⟨⟨hname, hrest⟩, _, hnew⟩
        exact ⟨hrest, fun n hn => ⟨fun heq => hname (heq ▸ hn), hnew n hn⟩⟩

/-- Files can be planned exactly if no two of them have the same name, and then the plan is all of
`planned`. So the error of a clash is the only one that `plan` has. -/
theorem plan_eq_ok_iff {files : List Planned} :
    api.plan = .ok files ↔ (api.planned.map Planned.name).Nodup ∧ files = api.planned := by
  have hnone : firstRepeated? [] (api.planned.map Planned.name) = none ↔
      (api.planned.map Planned.name).Nodup := by
    rw [firstRepeated?_eq_none_iff]
    exact and_iff_left fun _ _ => List.not_mem_nil
  -- What is left is to tell an answer of `firstRepeated?` from none.
  rw [plan, ← hnone]
  cases firstRepeated? [] (api.planned.map Planned.name) with
  | some file =>
    constructor
    · intro h
      cases h
    · rintro ⟨h, _⟩
      cases h
  | none =>
    constructor
    · intro h
      cases h
      exact ⟨rfl, rfl⟩
    · rintro ⟨_, rfl⟩
      rfl

/-- The artifacts are the planned files of a package, in order, as the renderer made them. -/
structure Rendered (renderer : Renderer) (api : CompiledApi) (artifacts : List Artifact) :
    Prop where
  distinct : (api.planned.map Planned.name).Nodup
  rendered : List.Forall₂ (fun file artifact =>
    artifact.kind = file.kind ∧ artifact.name = file.name ∧
      renderer file.kind (api.context file) = .ok artifact.contents) api.planned artifacts

/-- A file is rendered if the renderer makes its contents from the `context` of the file; kind and
name of the artifact are those of the file. -/
theorem renderFile_eq_ok_iff {file : Planned} {artifact : Artifact} :
    api.renderFile renderer file = .ok artifact ↔
      artifact.kind = file.kind ∧ artifact.name = file.name ∧
        renderer file.kind (api.context file) = .ok artifact.contents := by
  -- Taken apart, the artifact is equal to the one that is made if its three parts are.
  obtain ⟨kind, name, contents⟩ := artifact
  rw [renderFile]
  cases renderer file.kind (api.context file) with
  | error e =>
    constructor
    · intro h
      cases h
    · rintro ⟨_, _, h⟩
      cases h
  | ok contents' =>
    constructor
    · intro h
      cases h
      exact ⟨rfl, rfl, rfl⟩
    · rintro ⟨rfl, rfl, h⟩
      cases h
      rfl

/-- A package is rendered exactly if its file names differ and the renderer makes all contents, in
which case the artifacts are what `Rendered` says. -/
theorem renderAll_eq_ok_iff {artifacts : List Artifact} :
    api.renderAll renderer = .ok artifacts ↔ Rendered renderer api artifacts := by
  simp only [renderAll, bind_eq_ok, plan_eq_ok_iff, mapM_eq_ok_iff, renderFile_eq_ok_iff]
  constructor
  · rintro ⟨_, ⟨hdistinct, rfl⟩, hrendered⟩
    exact ⟨hdistinct, hrendered⟩
  · rintro ⟨hdistinct, hrendered⟩
    exact ⟨_, ⟨hdistinct, rfl⟩, hrendered⟩

end ControllerTypes.CompiledApi
