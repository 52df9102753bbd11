import ControllerTypes.Proofs.Emission.History

/-!
# `ControllerTypes.Proofs.Emission.Failed`: what a generator does after a failure

A generator that failed refuses to write anything, but it reads descriptions as if nothing had
happened, and reading one that compiles makes it forget the failure. `Call.Revives` are the calls
that do so. In a failed session, every other call leaves everything as it is
(`perform_of_failed`), and each of these leaves either a generator that is not failed any more or a
sink that was told something (`perform_ne_of_revives`).

`failure_final_iff` says so of rows of calls: a failure is final exactly as long as no such call
comes after it. `failure_not_final` is a row in which one does.
-/

set_option autoImplicit false

namespace ControllerTypes

open CompiledApi

/-- An emission of rendered files tells the sink something: that it is going to be written to, if
nothing else. -/
theorem Session.Emits.heard_ne {behaviour : SinkBehaviour} {s s' : Session}
    {artifacts : List Artifact} {answer : Except Error (List String)}
    (h : s.Emits behaviour artifacts answer s') : s'.heard ≠ s.heard := by
  cases h with
  | written | stopped => simp [deliveries]

namespace Generator

section
variable (g : Generator) (behaviour : SinkBehaviour)

/-- The session after a row of calls. -/
def after (s : Session) (calls : List Call) : Session :=
  calls.foldl (fun s call => (s.perform (call.perform g behaviour)).2) s

/-- The call gets a failed generator to go on: it reads a description that compiles, and if it is
going to write the package as well, all files of that can be rendered. -/
def Call.Revives : Call → Prop
  | .compile format bytes => ∃ api, CompiledApi.read g.settings g.version format bytes = .ok api
  | .run renderer format bytes => ∃ api,
      CompiledApi.read g.settings g.version format bytes = .ok api ∧
        ∃ artifacts, Rendered renderer api artifacts
  | .renderAll _ _ | .emit _ _ => False

/-- Once the generator has failed in this row of calls, it stays failed, and its sink is not told
anything any more. -/
def FailureFinal (calls : List Call) : Prop :=
  ∀ earlier later rest, calls = earlier ++ (later ++ rest) →
    (g.after behaviour {} earlier).stage = .failed →
    g.after behaviour {} (earlier ++ later) = g.after behaviour {} earlier

end

section
variable {g : Generator} {behaviour : SinkBehaviour} {s : Session}

/-! ### One call -/

/-- A run of a description that compiles comes down to the emission, from a session that is
`.extracted` whatever the stage of `s` was. -/
theorem perform_run_of_read {renderer : Renderer} {format : Document.Format} {bytes : ByteArray}
    {api : CompiledApi} (hread : CompiledApi.read g.settings g.version format bytes = .ok api) :
    s.perform (g.run renderer (.listening behaviour) format bytes) =
      Session.perform ⟨.extracted, s.heard⟩ (emit renderer (.listening behaviour) api) := by
  rw [Session.perform_run, Session.perform_compile, hread]

/-- An emission that is not due, or of files that cannot all be rendered, leaves a failure and
nothing else. -/
theorem session_of_not {renderer : Renderer} {api : CompiledApi}
    (h : ¬(s.stage = .extracted ∧ ∃ artifacts, Rendered renderer api artifacts)) :
    (s.perform (emit renderer (.listening behaviour) api)).2 = ⟨.failed, s.heard⟩ := by
  have hemit : ∃ e, s.perform (emit renderer (.listening behaviour) api) =
      (.error e, ⟨.failed, s.heard⟩) := Session.perform_emit_of_not h
  obtain ⟨e, hemit⟩ := hemit
  rw [hemit]

/-- A call that does not revive a failed generator changes nothing, neither the stage nor what was
heard. -/
theorem perform_of_failed (hs : s.stage = .failed) {call : Call} (h : ¬call.Revives g) :
    (s.perform (call.perform g behaviour)).2 = s := by
  -- Each call is opened by the lemma that says what it does in a session.
  cases call with
  | compile format bytes =>
    rw [Call.perform, Session.perform_discard, Session.perform_compile]
    cases hread : CompiledApi.read g.settings g.version format bytes with
    | ok api => exact absurd ⟨api, hread⟩ h
    | error e => rw [← hs]
  | renderAll renderer api =>
    rw [Call.perform, Session.perform_discard]
    rfl
  | emit renderer api =>
    -- The stage is `.failed`, so an emission is not due.
    rw [Call.perform, Session.perform_discard, session_of_not (by simp [hs]), ← hs]
  | run renderer format bytes =>
    rw [Call.perform, Session.perform_discard]
    cases hread : CompiledApi.read g.settings g.version format bytes with
    | error e => rw [Session.perform_run, Session.perform_compile, hread, ← hs]
    | ok api =>
      -- The description compiles, so it is the files that cannot be rendered.
      rw [perform_run_of_read hread, session_of_not fun hdue => h ⟨api, hread, hdue.2⟩, ← hs]

/-- A call that revives a failed generator leaves another session behind: one at another stage, or
one whose sink heard something. -/
theorem perform_ne_of_revives (hs : s.stage = .failed) {call : Call} (h : call.Revives g) :
    (s.perform (call.perform g behaviour)).2 ≠ s := by
  cases call with
  | compile format bytes =>
    obtain ⟨api, hread⟩ := h
    rw [Call.perform, Session.perform_discard, Session.perform_compile, hread]
    intro heq
    rw [← heq] at hs
    exact Stage.noConfusion hs
  | renderAll | emit => exact h.elim
  | run renderer format bytes =>
    obtain ⟨api, hread, artifacts, hrendered⟩ := h
    rw [Call.perform, Session.perform_discard, perform_run_of_read hread]
    -- The emission may fail as well, so here the stage says nothing; what was heard does.
    intro heq
    have hemits : Session.Emits behaviour ⟨.extracted, s.heard⟩ artifacts _
        (Session.perform ⟨.extracted, s.heard⟩ (emit renderer (.listening behaviour) api)).2 :=
      Session.emits_of_perform rfl hrendered
    rw [heq] at hemits
    exact hemits.heard_ne rfl

/-! ### Rows of calls -/

/-- The session after two rows of calls is that of the second row, made where the first one ends. -/
theorem after_append (earlier later : List Call) :
    g.after behaviour s (earlier ++ later) =
      g.after behaviour (g.after behaviour s earlier) later :=
  List.foldl_append

end

/-- In any row of calls, a failure is final if and only if none of the calls behind it gets the
generator to go on. -/
theorem failure_final_iff (g : Generator) (behaviour : SinkBehaviour) (calls : List Call) :
    g.FailureFinal behaviour calls ↔
      ∀ earlier call rest, calls = earlier ++ call :: rest →
        (g.after behaviour {} earlier).stage = .failed → ¬call.Revives g := by
  constructor
  · intro hfinal earlier call rest hsplit hfailed hrevives
    have hsame := hfinal earlier [call] rest hsplit hfailed
    rw [after_append] at hsame
    exact perform_ne_of_revives hfailed hrevives hsame
  · intro h earlier later rest hsplit hfailed
    -- Each call behind the failure leaves the session as the failure left it.
    induction later generalizing earlier with
    | nil => rw [List.append_nil]
    | cons call later ih =>
      have hstep : g.after behaviour {} (earlier ++ [call]) = g.after behaviour {} earlier := by
        rw [after_append]
        exact perform_of_failed hfailed (h earlier call (later ++ rest) hsplit hfailed)
      rw [List.append_cons, ih (earlier ++ [call]) (by simp [hsplit]) (hstep ▸ hfailed), hstep]

/-! ### A second try

A document that is cut off is compiled, then a whole one, and the package is written. -/

namespace SecondTry

/-- A description of nothing. -/
def blank : ByteArray := ⟨#[0x7B, 0x7D]⟩

/-- A description of nothing, cut off in the middle. -/
def cut : ByteArray := ⟨#[0x7B]⟩

/-- What is compiled from a description of nothing. -/
def nothing : CompiledApi where
  info := ⟨"", "", none, []⟩
  group := "unknown.services.k8s.aws"
  version := "v1"
  resources := []
  types := []

/-- A description of nothing compiles to a package of nothing. -/
theorem read_blank : CompiledApi.read {} "v1" .json blank = .ok nothing := by cbv

/-- All files are empty. -/
def plain : Renderer := fun _ _ => .ok .empty

/-- The document that is cut off, the whole one, and the package made from it. -/
def calls : List Call := [.compile .json cut, .compile .json blank, .emit plain nothing]

/-- The sink has nothing against anything. -/
def behaviour : SinkBehaviour := fun _ _ => .ok ()

/-- The whole package. -/
def told : List SinkCall :=
  [.prepare, .write "doc.go" .empty, .write "groupversion_info.go" .empty,
    .write "types.go" .empty]

end SecondTry

/-- The failure of the first document is forgotten with the second, and the package is written. -/
theorem failure_not_final :
    ¬FailureFinal ⟨{}, "v1"⟩ SecondTry.behaviour SecondTry.calls ∧
    after ⟨{}, "v1"⟩ SecondTry.behaviour {} (SecondTry.calls.take 1) = ⟨.failed, []⟩ ∧
    after ⟨{}, "v1"⟩ SecondTry.behaviour {} (SecondTry.calls.take 2) = ⟨.extracted, []⟩ ∧
    after ⟨{}, "v1"⟩ SecondTry.behaviour {} SecondTry.calls = ⟨.done, SecondTry.told⟩ := by
  obtain ⟨e, hcut⟩ : ∃ e, CompiledApi.read {} "v1" .json SecondTry.cut = .error e := ⟨_, by cbv⟩
  have hfirst : Session.perform {} (compile ⟨{}, "v1"⟩ .json SecondTry.cut) =
      (.error e, ⟨.failed, []⟩) := by
    rw [Session.perform_compile, hcut]
  have hsecond : Session.perform ⟨.failed, []⟩ (compile ⟨{}, "v1"⟩ .json SecondTry.blank) =
      (.ok SecondTry.nothing, ⟨.extracted, []⟩) := by
    rw [Session.perform_compile, SecondTry.read_blank]
  have hthird : Session.perform ⟨.extracted, []⟩
      (emit SecondTry.plain (.listening SecondTry.behaviour) SecondTry.nothing) =
      (.ok ["doc.go", "groupversion_info.go", "types.go"], ⟨.done, SecondTry.told⟩) := by
    rw [Session.perform_emit]
    rfl
  have hfailed : after ⟨{}, "v1"⟩ SecondTry.behaviour {} (SecondTry.calls.take 1) =
      ⟨.failed, []⟩ := by
    simp [after, SecondTry.calls, Call.perform, Session.perform_discard, hfirst]
  have hextracted : after ⟨{}, "v1"⟩ SecondTry.behaviour {} (SecondTry.calls.take 2) =
      ⟨.extracted, []⟩ := by
    simp [after, SecondTry.calls, Call.perform, Session.perform_discard, hfirst, hsecond]
  have hdone : after ⟨{}, "v1"⟩ SecondTry.behaviour {} SecondTry.calls =
      ⟨.done, SecondTry.told⟩ := by
    simp [after, SecondTry.calls, Call.perform, Session.perform_discard, hfirst, hsecond, hthird]
  refine ⟨fun hfinal => ?_, hfailed, hextracted, hdone⟩
  have hsame := hfinal (SecondTry.calls.take 1) (SecondTry.calls.drop 1) [] rfl (by rw [hfailed])
  rw [List.take_append_drop, hfailed, hdone] at hsame
  exact Stage.noConfusion (congrArg Session.stage hsame)

end Generator

end ControllerTypes
