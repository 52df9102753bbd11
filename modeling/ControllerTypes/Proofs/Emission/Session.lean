import ControllerTypes.Emission.Generator
import ControllerTypes.Proofs.Emission.Plan

/-!
# `ControllerTypes.Proofs.Emission.Session`: what one call does to a generator and its sink

A sink may answer in any way it likes, and differently every time, so its behaviour is a function of
all that it heard. `Sink.listening` is the sink with a given behaviour; it keeps what it hears. A
`Session` is a generator between two calls, together with what its sink has heard, and
`Session.perform` makes a call in it.

A call is taken apart by `perform_bind` and `perform_settled`, which leaves `perform_compile`,
`perform_run` and `perform_emit`. An emission then is one of two things: an error, and a sink that
heard nothing (`perform_emit_of_not`), or deliveries up to the first that fails
(`emits_of_perform`).
-/

set_option autoImplicit false

namespace ControllerTypes

open CompiledApi Run

/-- What a sink is told. -/
inductive SinkCall where
  | prepare
  | write (name : String) (contents : ByteArray)

/-- How a sink answers a call, given what it heard before. -/
abbrev SinkBehaviour := List SinkCall → SinkCall → Except Error Unit

/-- The monad of sinks that keep what they hear. -/
abbrev Listening := StateM (List SinkCall)

namespace Sink

/-- The call is heard, and answered. -/
def hear (behaviour : SinkBehaviour) (call : SinkCall) : ExceptT Error Listening Unit := do
  let heard ← get
  set (heard ++ [call])
  liftM (behaviour heard call)

/-- The sink of this behaviour. -/
def listening (behaviour : SinkBehaviour) : Sink Listening where
  prepare := hear behaviour .prepare
  write name contents := hear behaviour (.write name contents)

end Sink

/-- All that a sink is told of artifacts, unless something fails. -/
def deliveries (artifacts : List Artifact) : List SinkCall :=
  .prepare :: artifacts.map fun a => .write a.name a.contents

/-- The sink accepts the calls, one after the other. -/
def Accepts (behaviour : SinkBehaviour) (heard calls : List SinkCall) : Prop :=
  ∀ earlier call later, calls = earlier ++ call :: later →
    behaviour (heard ++ earlier) call = .ok ()

/-- The calls are made up to the first that fails. -/
inductive Delivers (behaviour : SinkBehaviour) (heard calls : List SinkCall) :
    Except Error Unit → List SinkCall → Prop where
  | accepted (h : Accepts behaviour heard calls) : Delivers behaviour heard calls (.ok ()) calls
  | stopped {accepted rest : List SinkCall} {call : SinkCall} {e : Error}
      (hcalls : calls = accepted ++ call :: rest) (h : Accepts behaviour heard accepted)
      (hfail : behaviour (heard ++ accepted) call = .error e) :
      Delivers behaviour heard calls (.error e) (accepted ++ [call])

/-! ### Deliveries -/

section
variable {behaviour : SinkBehaviour} {heard calls : List SinkCall} {call : SinkCall}

/-- There is nothing in no calls that a sink could refuse. -/
theorem Accepts.nil : Accepts behaviour heard [] := by
  intro earlier call later h
  simp at h

/-- An accepted `call` in front of others that are accepted after it: `calls` are answered by what
was heard before, which now ends with `call`. -/
theorem Accepts.cons (hcall : behaviour heard call = .ok ())
    (h : Accepts behaviour (heard ++ [call]) calls) : Accepts behaviour heard (call :: calls) := by
  intro earlier call' later heq
  -- The call in question is the first one, or it is one of `calls` with `call` heard before it.
  cases earlier with
  | nil =>
    cases heq
    rwa [List.append_nil]
  | cons first earlier =>
    cases heq
    have hlater := h earlier call' later rfl
    rwa [List.append_assoc] at hlater

/-- Calls that are made one after the other are heard up to the first that fails, and what was heard
before stays in front of them. -/
theorem delivers_forM (behaviour : SinkBehaviour) (calls heard : List SinkCall) :
    ∃ answer told, (calls.forM (Sink.hear behaviour)).run.run heard = (answer, heard ++ told) ∧
      Delivers behaviour heard calls answer told := by
  -- The sink answers by what it heard so far, so the induction has to be about any `heard`.
  induction calls generalizing heard with
  | nil => exact ⟨.ok (), [], by rw [List.append_nil]; rfl, .accepted .nil⟩
  | cons call rest ih =>
    -- One round of the loop, before the induction hypothesis is used on the others.
    have hcons : ((call :: rest).forM (Sink.hear behaviour)).run.run heard =
        match behaviour heard call with
        | .ok () => (rest.forM (Sink.hear behaviour)).run.run (heard ++ [call])
        | .error e => (.error e, heard ++ [call]) := by
      have hfirst : (Sink.hear behaviour call).run.run heard =
          (behaviour heard call, heard ++ [call]) := rfl
      have hforM : (call :: rest).forM (Sink.hear behaviour) =
          Sink.hear behaviour call >>= fun _ => rest.forM (Sink.hear behaviour) := rfl
      rw [hforM, runExcept_bind, hfirst]
      cases behaviour heard call <;> rfl
    rw [hcons]
    cases hcall : behaviour heard call with
    | error e => exact ⟨.error e, [call], rfl, .stopped rfl .nil (by rwa [List.append_nil])⟩
    | ok u =>
      -- The first call is accepted, so how the row ends is decided behind it.
      obtain ⟨answer, told, hrun, hdelivers⟩ := ih (heard ++ [call])
      refine ⟨answer, call :: told, by rw [hrun, List.append_assoc]; rfl, ?_⟩
      cases hdelivers with
      | accepted h => exact .accepted (.cons hcall h)
      | stopped hcalls h hfail =>
        rw [List.append_assoc] at hfail
        exact .stopped (congrArg (call :: ·) hcalls) (.cons hcall h) hfail

end

/-! ### Calls in a session -/

/-- A generator between two calls, and what its sink has heard. -/
structure Session where
  stage : Stage := .idle
  heard : List SinkCall := []

namespace Session

variable {α β : Type} {behaviour : SinkBehaviour} {renderer : Renderer} {api : CompiledApi}

/-- The answer of a call that is made in the session, and the session afterwards. -/
def perform (s : Session) (call : Run Listening α) : Except Error α × Session :=
  let ((answer, stage), heard) := (call.run.run s.stage).run s.heard
  (answer, ⟨stage, heard⟩)

/-- What follows a step is done if that succeeds, in the session which the step leaves; a failure is
the answer of both. -/
theorem perform_bind (s : Session) (x : Run Listening α) (f : α → Run Listening β) :
    s.perform (x >>= f) =
      match s.perform x with
      | (.ok a, s') => s'.perform (f a)
      | (.error e, s') => (.error e, s') := by
  -- The layers are opened from the outside: the failure first, then the stage, then what was heard.
  have hrun : (x >>= f).run.run s.stage = do
      match ← x.run.run s.stage with
      | (.ok a, stage) => (f a).run.run stage
      | (.error e, stage) => return (.error e, stage) := by
    rw [ExceptT.run_bind, StateT.run_bind]
    congr 1
    funext ⟨answer, stage⟩
    cases answer <;> rfl
  simp only [perform, hrun, StateT.run_bind]
  rcases (x.run.run s.stage).run s.heard with ⟨⟨_ | a, stage⟩, heard⟩ <;> rfl

/-- A call that is `settled` leaves the generator failed if it fails. What the sink heard until then
it has heard all the same. -/
theorem perform_settled (s : Session) (call : Run Listening α) :
    s.perform (Generator.settled call) =
      match s.perform call with
      | (.ok a, s') => (.ok a, s')
      | (.error e, s') => (.error e, ⟨.failed, s'.heard⟩) := by
  have hrun : (Generator.settled call).run.run s.stage = do
      match ← call.run.run s.stage with
      | (.ok a, stage) => return (.ok a, stage)
      | (.error e, _) => return (.error e, .failed) := by
    rw [Generator.settled, ExceptT.run_tryCatch, StateT.run_bind]
    congr 1
    funext ⟨answer, stage⟩
    cases answer <;> rfl
  simp only [perform, hrun, StateT.run_bind]
  rcases (call.run.run s.stage).run s.heard with ⟨⟨_ | a, stage⟩, heard⟩ <;> rfl

/-- Where the answer of a call is not asked for, the session it leaves is the same. -/
theorem perform_discard (s : Session) (call : Run Listening α) :
    (s.perform (discard call)).2 = (s.perform call).2 := by
  have hdiscard : discard call = call >>= fun _ => pure () := rfl
  rw [hdiscard, perform_bind]
  rcases s.perform call with ⟨_ | a, s'⟩ <;> rfl

/-- Compiling a description leaves a generator that may emit, or one that failed. The sink hears
nothing, and the stage of `s` does not matter. -/
theorem perform_compile (s : Session) (g : Generator) (format : Document.Format)
    (bytes : ByteArray) :
    s.perform (g.compile format bytes) =
      match CompiledApi.read g.settings g.version format bytes with
      | .ok api => (.ok api, ⟨.extracted, s.heard⟩)
      | .error e => (.error e, ⟨.failed, s.heard⟩) := by
  rw [Generator.compile, perform_settled, perform_bind]
  have hread : s.perform (liftM (CompiledApi.read g.settings g.version format bytes)) =
      (CompiledApi.read g.settings g.version format bytes, s) := rfl
  rw [hread]
  cases CompiledApi.read g.settings g.version format bytes <;> rfl

/-- A run is a compilation and, if that succeeds, an emission in the session it leaves. -/
theorem perform_run (s : Session) (g : Generator) (format : Document.Format) (bytes : ByteArray) :
    s.perform (g.run renderer (.listening behaviour) format bytes) =
      match s.perform (g.compile format bytes) with
      | (.ok api, s') => s'.perform (Generator.emit renderer (.listening behaviour) api)
      | (.error e, s') => (.error e, s') := by
  rw [Generator.run, perform_bind]
  rcases s.perform (g.compile format bytes) with ⟨_ | api, s'⟩ <;> rfl

/-! ### Emissions -/

/-- A step of the sink leaves the generator at its stage, and an error of the sink is the answer of
the call. -/
theorem perform_sink (s : Session) (x : ExceptT Error Listening α) (f : α → Run Listening β) :
    s.perform (ExceptT.mk (StateT.lift x.run) >>= f) =
      match x.run.run s.heard with
      | (.ok a, heard) => Session.perform ⟨s.stage, heard⟩ (f a)
      | (.error e, heard) => (.error e, ⟨s.stage, heard⟩) := by
  have hlift : s.perform (ExceptT.mk (StateT.lift x.run)) =
      ((x.run.run s.heard).1, ⟨s.stage, (x.run.run s.heard).2⟩) := rfl
  rw [perform_bind, hlift]
  rcases x.run.run s.heard with ⟨_ | a, heard⟩ <;> rfl

/-- Preparing a sink and writing all artifacts are one row of calls, the `deliveries`. So a failure
of the preparation is one more way for the row to end early. -/
theorem forM_deliveries (behaviour : SinkBehaviour) (artifacts : List Artifact) :
    (deliveries artifacts).forM (Sink.hear behaviour) =
      (Sink.listening behaviour).prepare >>= fun _ =>
        (Sink.listening behaviour).writeAll artifacts := by
  have hwrites : (artifacts.map fun a => SinkCall.write a.name a.contents).forM
      (Sink.hear behaviour) = (Sink.listening behaviour).writeAll artifacts := List.forM_map
  rw [← hwrites]
  rfl

/-- An emission that is due renders all files and then hands them to the sink. One that is not due,
or with a file that is not rendered, leaves `heard` as it was. -/
theorem perform_emit (s : Session) :
    s.perform (Generator.emit renderer (.listening behaviour) api) =
      if s.stage ≠ .extracted then (.error (.misuse (.emitFrom s.stage)), ⟨.failed, s.heard⟩)
      else
        match api.renderAll renderer with
        | .error e => (.error e, ⟨.failed, s.heard⟩)
        | .ok artifacts =>
          match ((deliveries artifacts).forM (Sink.hear behaviour)).run.run s.heard with
          | (.ok (), heard) => (.ok (artifacts.map Artifact.name), ⟨.done, heard⟩)
          | (.error e, heard) => (.error e, ⟨.failed, heard⟩) := by
  have hget : s.perform (α := Stage) get = (.ok s.stage, s) := rfl
  have hrender : s.perform (liftM (api.renderAll renderer)) = (api.renderAll renderer, s) := rfl
  rw [Generator.emit, perform_settled, perform_bind, hget]
  dsimp only
  -- The guard comes first, then the renderer, and the sink only behind both.
  by_cases h : s.stage ≠ .extracted
  · rw [if_pos h, if_pos h]
    rfl
  rw [if_neg h, if_neg h, perform_bind, hrender]
  cases api.renderAll renderer with
  | error e => rfl
  | ok artifacts =>
    dsimp only
    -- On the right side preparing and writing are one row, on the left they are two steps.
    rw [perform_sink, forM_deliveries, runExcept_bind]
    rcases (Sink.listening behaviour).prepare.run.run s.heard with ⟨_ | u, heard⟩
    · rfl
    · dsimp only
      rw [perform_sink]
      rcases ((Sink.listening behaviour).writeAll artifacts).run.run heard with ⟨_ | v, heard'⟩ <;>
        rfl

/-- What comes of an emission of rendered files: their names, if all deliveries are accepted, or the
first error. -/
inductive Emits (behaviour : SinkBehaviour) (s : Session) (artifacts : List Artifact) :
    Except Error (List String) → Session → Prop where
  | written (h : Accepts behaviour s.heard (deliveries artifacts)) :
      Emits behaviour s artifacts (.ok (artifacts.map Artifact.name))
        ⟨.done, s.heard ++ deliveries artifacts⟩
  | stopped {accepted rest : List SinkCall} {call : SinkCall} {e : Error}
      (hdeliveries : deliveries artifacts = accepted ++ call :: rest)
      (h : Accepts behaviour s.heard accepted)
      (hfail : behaviour (s.heard ++ accepted) call = .error e) :
      Emits behaviour s artifacts (.error e) ⟨.failed, s.heard ++ (accepted ++ [call])⟩

/-- After an emission of rendered files no other is due: it leaves `.done` or `.failed`, and both
are not `.extracted`. -/
theorem Emits.stage_ne {s s' : Session} {artifacts : List Artifact}
    {answer : Except Error (List String)} (h : s.Emits behaviour artifacts answer s') :
    s'.stage ≠ .extracted := by
  cases h with
  | written | stopped => exact Stage.noConfusion

/-- An emission that is not due, or of files that cannot all be rendered, fails, and the sink hears
nothing. `h` is the negation of both conditions together. -/
theorem perform_emit_of_not {s : Session}
    (h : ¬(s.stage = .extracted ∧ ∃ artifacts, Rendered renderer api artifacts)) :
    ∃ e, s.perform (Generator.emit renderer (.listening behaviour) api) =
      (.error e, ⟨.failed, s.heard⟩) := by
  rw [perform_emit]
  by_cases hstage : s.stage = .extracted
  · rw [if_neg (not_not_intro hstage)]
    cases hrender : api.renderAll renderer with
    | error e => exact ⟨e, rfl⟩
    | ok artifacts => exact (h ⟨hstage, artifacts, renderAll_eq_ok_iff.1 hrender⟩).elim
  · rw [if_pos hstage]
    exact ⟨_, rfl⟩

/-- An emission that is due (`h`) delivers files that are `Rendered` up to the first call that the
sink refuses. -/
theorem emits_of_perform {s : Session} {artifacts : List Artifact} (h : s.stage = .extracted)
    (hrendered : Rendered renderer api artifacts) :
    Emits behaviour s artifacts
      (s.perform (Generator.emit renderer (.listening behaviour) api)).1
      (s.perform (Generator.emit renderer (.listening behaviour) api)).2 := by
  obtain ⟨answer, told, hrun, hdelivers⟩ :=
    delivers_forM behaviour (deliveries artifacts) s.heard
  rw [perform_emit, if_neg (not_not_intro h), renderAll_eq_ok_iff.2 hrendered]
  dsimp only
  rw [hrun]
  cases hdelivers with
  | accepted h => exact .written h
  | stopped hcalls h hfail => exact .stopped hcalls h hfail

end Session

end ControllerTypes
