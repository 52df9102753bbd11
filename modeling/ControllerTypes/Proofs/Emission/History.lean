import ControllerTypes.Proofs.Compiles
import ControllerTypes.Proofs.Emission.Session
import Mathlib

/-!
# `ControllerTypes.Proofs.Emission.History`: what a sink hears over any number of calls

A generator may be called in any order, with a sink that fails at any point and a renderer that
answers otherwise each time. `history` is what then happens, event by event: a run is two events if
its compilation succeeds, and one if not.

The argument is about one event first. `Event.Proper` says how a single event may go, and
`Proper.extracted_iff` after which ones an emission is due. A history is a `Chain` of proper events
(`chain_history`). Along a chain the stage of the generator only depends on the events since the
latest compilation or emission (`Chain.extracted_iff`), so `Ready` says the same of the events
before as the stage does.

`emission_all_or_nothing` puts this together. The sink is told of a package whole and in order, or
up to its own first refusal, or not at all; and it is told of at most one package for each
compilation.
-/

set_option autoImplicit false

namespace ControllerTypes.Generator

open CompiledApi

/-- What a generator can be asked for. -/
inductive Call where
  | compile (format : Document.Format) (bytes : ByteArray)
  | renderAll (renderer : Renderer) (api : CompiledApi)
  | emit (renderer : Renderer) (api : CompiledApi)
  | run (renderer : Renderer) (format : Document.Format) (bytes : ByteArray)

/-- What a generator did, and what it answered. -/
inductive Deed where
  | compiled (answer : Except Error CompiledApi)
  | rendered
  | emitted (renderer : Renderer) (api : CompiledApi) (answer : Except Error (List String))

/-- A deed, and the sessions around it. -/
structure Event where
  deed : Deed
  before : Session
  after : Session

section
variable (g : Generator) (behaviour : SinkBehaviour)

/-- The call is made, whatever it answers. -/
def Call.perform : Call → Run Listening Unit
  | .compile format bytes => discard (g.compile format bytes)
  | .renderAll renderer api => discard (liftM (m := Except Error) (api.renderAll renderer))
  | .emit renderer api => discard (Generator.emit renderer (.listening behaviour) api)
  | .run renderer format bytes => discard (g.run renderer (.listening behaviour) format bytes)

/-- What happens in a call. A run that compiles goes on to emit, and the answer is its own. -/
def events (s : Session) : Call → List Event
  | .compile format bytes =>
    let (answer, s') := s.perform (g.compile format bytes)
    [⟨.compiled answer, s, s'⟩]
  | .renderAll renderer api =>
    let (_, s') := s.perform (liftM (api.renderAll renderer))
    [⟨.rendered, s, s'⟩]
  | .emit renderer api =>
    let (answer, s') := s.perform (Generator.emit renderer (.listening behaviour) api)
    [⟨.emitted renderer api answer, s, s'⟩]
  | .run renderer format bytes =>
    let (answer, s') := s.perform (g.run renderer (.listening behaviour) format bytes)
    match s.perform (g.compile format bytes) with
    | (.ok api, s₁) => [⟨.compiled (.ok api), s, s₁⟩, ⟨.emitted renderer api answer, s₁, s'⟩]
    | (.error e, s₁) => [⟨.compiled (.error e), s, s₁⟩]

/-- What happens in a row of calls. -/
def history (s : Session) : List Call → List Event
  | [] => []
  | call :: rest =>
    g.events behaviour s call ++ history (s.perform (call.perform g behaviour)).2 rest

end

namespace Event

/-- A description was worked out. -/
def Compiled (e : Event) : Prop := ∃ api, e.deed = .compiled (.ok api)

/-- The sink was told something. -/
def ReachesSink (e : Event) : Prop := e.after.heard ≠ e.before.heard

end Event

/-- Of all that was compiled or emitted, the latest was a compilation that succeeded. -/
def Ready (events : List Event) : Prop :=
  ∃ earlier e later, events = earlier ++ e :: later ∧ e.Compiled ∧ ∀ r ∈ later, r.deed = .rendered

/-- An event that leaves the sink alone, or tells it of a whole package, up to its first refusal.
This depends on the events before: an emission has to follow a compilation, and all files of its
package have to be rendered under different names. -/
def Event.AllOrNothing (behaviour : SinkBehaviour) (earlier : List Event) (e : Event) : Prop :=
  match e.deed with
  | .compiled _ | .rendered => ¬e.ReachesSink
  | .emitted renderer api answer =>
    (¬(Ready earlier ∧ ∃ artifacts, Rendered renderer api artifacts) →
      ¬e.ReachesSink ∧ e.after.stage = .failed ∧ ∃ error, answer = .error error) ∧
    (Ready earlier → ∀ artifacts, Rendered renderer api artifacts →
      e.before.Emits behaviour artifacts answer e.after)

/-! ### One event -/

/-- How an event may go. -/
inductive Event.Proper (behaviour : SinkBehaviour) : Event → Prop where
  | compiled (api : CompiledApi) (s : Session) :
      Proper behaviour ⟨.compiled (.ok api), s, ⟨.extracted, s.heard⟩⟩
  | refused (error : Error) (s : Session) :
      Proper behaviour ⟨.compiled (.error error), s, ⟨.failed, s.heard⟩⟩
  | rendered (s : Session) : Proper behaviour ⟨.rendered, s, s⟩
  | withheld {renderer : Renderer} {api : CompiledApi} {s : Session} (error : Error)
      (h : ¬(s.stage = .extracted ∧ ∃ artifacts, Rendered renderer api artifacts)) :
      Proper behaviour ⟨.emitted renderer api (.error error), s, ⟨.failed, s.heard⟩⟩
  | emitted {renderer : Renderer} {api : CompiledApi} {s s' : Session}
      {answer : Except Error (List String)} (hstage : s.stage = .extracted)
      (hrendered : ∃ artifacts, Rendered renderer api artifacts)
      (hemits : ∀ artifacts, Rendered renderer api artifacts →
        s.Emits behaviour artifacts answer s') :
      Proper behaviour ⟨.emitted renderer api answer, s, s'⟩

section
variable {g : Generator} {behaviour : SinkBehaviour} {s s' s₁ : Session} {e : Event}

/-- An emission is due after a compilation that succeeded, or still due after a rendering. After
every other proper event it is not. -/
theorem Event.Proper.extracted_iff (h : e.Proper behaviour) :
    e.after.stage = .extracted ↔
      e.Compiled ∨ (e.deed = .rendered ∧ e.before.stage = .extracted) := by
  cases h with
  | compiled api s => exact ⟨fun _ => .inl ⟨api, rfl⟩, fun _ => rfl⟩
  | refused error s => simp [Event.Compiled]
  | rendered s => simp [Event.Compiled]
  | withheld error h => simp [Event.Compiled]
  | emitted hstage hrendered hemits =>
    -- Some artifacts are needed to say what was emitted; there are some, and any will do.
    obtain ⟨artifacts, hrendered⟩ := hrendered
    simp [Event.Compiled, (hemits artifacts hrendered).stage_ne]

/-- Only an emission that is due reaches the sink, and none is due after it. -/
theorem Event.Proper.stage_of_reachesSink (h : e.Proper behaviour) (hreach : e.ReachesSink) :
    e.before.stage = .extracted ∧ e.after.stage ≠ .extracted := by
  cases h with
  | compiled | refused | rendered | withheld => exact absurd rfl hreach
  | emitted hstage hrendered hemits =>
    obtain ⟨artifacts, hrendered⟩ := hrendered
    exact ⟨hstage, (hemits artifacts hrendered).stage_ne⟩

/-- A compilation is a proper event: it is `compiled` or `refused`, by what `CompiledApi.read`
answers. -/
theorem proper_compile (g : Generator) (behaviour : SinkBehaviour) (s : Session)
    (format : Document.Format) (bytes : ByteArray) :
    Event.Proper behaviour ⟨.compiled (s.perform (g.compile format bytes)).1, s,
      (s.perform (g.compile format bytes)).2⟩ := by
  rw [Session.perform_compile]
  cases CompiledApi.read g.settings g.version format bytes with
  | ok api => exact .compiled api s
  | error e => exact .refused e s

/-- An emission is a proper event: it is `emitted` if it is due and all files are rendered, and
`withheld` otherwise. -/
theorem proper_emit (behaviour : SinkBehaviour) (s : Session) (renderer : Renderer)
    (api : CompiledApi) :
    Event.Proper behaviour
      ⟨.emitted renderer api (s.perform (emit renderer (.listening behaviour) api)).1, s,
        (s.perform (emit renderer (.listening behaviour) api)).2⟩ := by
  by_cases h : s.stage = .extracted ∧ ∃ artifacts, Rendered renderer api artifacts
  · exact .emitted h.1 h.2 fun artifacts => Session.emits_of_perform h.1
  · obtain ⟨e, hemit⟩ := Session.perform_emit_of_not h
    rw [hemit]
    exact .withheld e h

end

/-! ### Rows of events -/

/-- Proper events, each in the session that the one before left. -/
inductive Chain (behaviour : SinkBehaviour) : Session → List Event → Session → Prop where
  | nil (s : Session) : Chain behaviour s [] s
  | cons {e : Event} {rest : List Event} {s' : Session} (he : e.Proper behaviour)
      (hrest : Chain behaviour e.after rest s') : Chain behaviour e.before (e :: rest) s'

section
variable {g : Generator} {behaviour : SinkBehaviour} {s s' s₁ : Session} {e : Event}
  {events earlier later : List Event}

/-- Two chains are one if the second begins with the session that the first ends with. -/
theorem Chain.append (h : Chain behaviour s earlier s₁) (hlater : Chain behaviour s₁ later s') :
    Chain behaviour s (earlier ++ later) s' := by
  -- The induction is on the first chain; the second one never changes.
  induction h with
  | nil s => exact hlater
  | cons he _ ih => exact .cons he (ih hlater)

/-- A chain is one up to any of its events, and one from there. -/
theorem Chain.split (h : Chain behaviour s (earlier ++ e :: later) s') :
    Chain behaviour s earlier e.before ∧ e.Proper behaviour ∧ Chain behaviour e.after later s' := by
  -- The events in front are passed one by one, each of which moves the session on.
  induction earlier generalizing s with
  | nil =>
    cases h with
    | cons he hrest => exact ⟨.nil _, he, hrest⟩
  | cons first earlier ih =>
    cases h with
    | cons hfirst hrest =>
      obtain ⟨hearlier, he, hlater⟩ := ih hrest
      exact ⟨.cons hfirst hearlier, he, hlater⟩

/-- One more event in front leaves the later ones ready if they were, or it is itself the
compilation behind which there were only renderings. -/
theorem ready_cons_iff :
    Ready (e :: events) ↔ Ready events ∨ (e.Compiled ∧ ∀ r ∈ events, r.deed = .rendered) := by
  -- The latest compilation is among the events behind, or it is `e`.
  constructor
  · rintro ⟨_ | ⟨first, earlier⟩, e', later, hsplit, he', hlater⟩
    · cases hsplit
      exact .inr ⟨he', hlater⟩
    · cases hsplit
      exact .inl ⟨earlier, e', later, rfl, he', hlater⟩
  · rintro (⟨earlier, e', later, rfl, he', hlater⟩ | ⟨he, hevents⟩)
    · exact ⟨e :: earlier, e', later, rfl, he', hlater⟩
    · exact ⟨[], e, events, rfl, he, hevents⟩

/-- At the end of a chain an emission is due if its events are `Ready`, or if it was due at the
beginning and the events are renderings only. -/
theorem Chain.extracted_iff (h : Chain behaviour s events s') :
    s'.stage = .extracted ↔
      Ready events ∨ (s.stage = .extracted ∧ ∀ r ∈ events, r.deed = .rendered) := by
  -- The stage after an event depends on the stage before only for a rendering
  -- (`Event.Proper.extracted_iff`).
  induction h with
  | nil s =>
    have hnot : ¬Ready [] := by
      rintro ⟨earlier, e, later, hsplit, _⟩
      simp at hsplit
    simp [hnot]
  | cons he hrest ih =>
    rw [ih, ready_cons_iff, he.extracted_iff, List.forall_mem_cons]
    tauto

/-- What happens in a call is a chain of proper events to where the call leaves the generator. A run
that compiles is two of them. -/
theorem chain_events (g : Generator) (behaviour : SinkBehaviour) (s : Session) (call : Call) :
    Chain behaviour s (g.events behaviour s call) (s.perform (call.perform g behaviour)).2 := by
  cases call with
  | compile format bytes =>
    rw [Call.perform, Session.perform_discard]
    exact .cons (proper_compile g behaviour s format bytes) (.nil _)
  | renderAll renderer api =>
    rw [Call.perform, Session.perform_discard]
    exact .cons (.rendered s) (.nil _)
  | emit renderer api =>
    rw [Call.perform, Session.perform_discard]
    exact .cons (proper_emit behaviour s renderer api) (.nil _)
  | run renderer format bytes =>
    have hcompile := proper_compile g behaviour s format bytes
    rw [Call.perform, Session.perform_discard, events, Session.perform_run]
    -- A run that does not compile is a single event, which `events` decides by the same
    -- compilation.
    rcases hc : s.perform (g.compile format bytes) with ⟨e | api, s₁⟩ <;> rw [hc] at hcompile
    · exact .cons hcompile (.nil _)
    · exact .cons hcompile (.cons (proper_emit behaviour s₁ renderer api) (.nil _))

/-- What happens in a row of calls is a chain, from any session the row begins with. -/
theorem chain_history (g : Generator) (behaviour : SinkBehaviour) (s : Session)
    (calls : List Call) : ∃ s', Chain behaviour s (g.history behaviour s calls) s' := by
  induction calls generalizing s with
  | nil => exact ⟨s, .nil s⟩
  | cons call rest ih =>
    obtain ⟨s', hrest⟩ := ih (s.perform (call.perform g behaviour)).2
    exact ⟨s', (chain_events g behaviour s call).append hrest⟩

end

/-- Whatever a generator is asked for, each event is all or nothing, and between two emissions that
reach the sink there is a compilation. -/
theorem emission_all_or_nothing (g : Generator) (behaviour : SinkBehaviour) (calls : List Call) :
    (∀ earlier e later, g.history behaviour {} calls = earlier ++ e :: later →
      e.AllOrNothing behaviour earlier) ∧
    ∀ earlier first between second later,
      g.history behaviour {} calls = earlier ++ first :: (between ++ second :: later) →
        first.ReachesSink → second.ReachesSink → ∃ e ∈ between, e.Compiled := by
  obtain ⟨s', hchain⟩ := chain_history g behaviour {} calls
  constructor
  · intro earlier e later hsplit
    rw [hsplit] at hchain
    obtain ⟨hearlier, he, _⟩ := hchain.split
    -- The stage that `emit` looks at is replaced by what happened before, which is what the
    -- statement speaks of.
    have hready : e.before.stage = .extracted ↔ Ready earlier := by
      rw [hearlier.extracted_iff]
      exact or_iff_left fun h => Stage.noConfusion h.1
    cases he with
    | compiled | refused | rendered => exact not_not_intro rfl
    | withheld error h =>
      rw [hready] at h
      exact ⟨fun _ => ⟨not_not_intro rfl, rfl, error, rfl⟩, fun hearlier artifacts hrendered =>
        (h ⟨hearlier, artifacts, hrendered⟩).elim⟩
    | emitted hstage hrendered hemits =>
      exact ⟨fun h => (h ⟨hready.1 hstage, hrendered⟩).elim, fun _ => hemits⟩
  · intro earlier first between second later hsplit hfirst hsecond
    rw [hsplit] at hchain
    obtain ⟨_, hproper, hlater⟩ := hchain.split
    obtain ⟨hbetween, hproper', _⟩ := hlater.split
    -- After the first of the two no emission is due, before the second one is: something in between
    -- has made it due again.
    have hover := (hproper.stage_of_reachesSink hfirst).2
    have hdue := (hproper'.stage_of_reachesSink hsecond).1
    obtain ⟨_, e, _, rfl, he, _⟩ :=
      (hbetween.extracted_iff.1 hdue).resolve_right fun h => hover h.1
    exact ⟨e, by simp, he⟩

/-! ### A disk that is full

A document with one resource is compiled. The disk takes the three files that every package has, and
has no room left for the file of the resource. -/

namespace FullDisk

/-- A document that creates pumps. -/
def text : String :=
  "\x7b\"definitions\":\x7b\"Pump\":\x7b\"properties\":\x7b\"size\":\x7b\"type\":\"integer\"\x7d\x7d\x7d\x7d,"
  ++ "\"paths\":\x7b\"/pumps\":\x7b\"post\":\x7b\"operationId\":\"CreatePump\",\"parameters\":"
  ++ "[\x7b\"in\":\"body\",\"schema\":\x7b\"$ref\":\"#/definitions/Pump\"\x7d\x7d]\x7d\x7d\x7d\x7d"

/-- The parameter that the body of a request is. -/
def body : Json :=
  .object [("in", .string "body"), ("schema", .object [("$ref", .string "#/definitions/Pump")])]

def members : List (String × Json) :=
  [("definitions", .object [("Pump", .object [("properties", .object
    [("size", .object [("type", .string "integer")])])])]),
   ("paths", .object [("/pumps", .object [("post", .object
    [("operationId", .string "CreatePump"), ("parameters", .array [body])])])])]

/-- The operation that creates a pump. -/
def creation : Document.Operation where
  operationId := some "CreatePump"
  parameters := [{ location := "body", schema := some { ref := "#/definitions/Pump" } }]

def document : Document where
  definitions := [("Pump", { properties := [("size", { type := some (.single "integer") })] })]
  paths := [("/pumps", { post := some creation })]

/-- What a pump is made of. -/
def fields : List (Field Schema) := [⟨"size", .primitive .integer, false⟩]

def catalog : Catalog := .ofList [("Pump", .object fields)]

/-- The only kind of resource. -/
def pump : Resource where
  kind := "Pump"
  plural := "pumps"
  schemaName := "Pump"
  spec := .object fields
  status := .emptyObject
  statusSchemaName := none
  operations := [.create]
  specType := "PumpSpec"
  statusType := "PumpStatus"

def types : List TypeDef :=
  [⟨"PumpSpec", "Pump", .struct [⟨"Size", "size", .integer, false, false⟩]⟩,
   ⟨"PumpStatus", "Pump.status", .struct []⟩]

/-- What is compiled from the document. -/
def package : CompiledApi where
  info := ⟨"", "", none, []⟩
  group := Settings.apiGroup {} none
  version := "v1"
  resources := [pump]
  types := types

/-- The document compiles to one resource and two types. -/
theorem compiles : Compiles {} (document.describe {}) catalog [pump] types where
  resolved := by cbv
  extracted := by cbv
  written := by cbv

set_option maxRecDepth 2000 in
/-- The text of the document is read as that package. -/
theorem read_text : CompiledApi.read {} "v1" .json text.toUTF8 = .ok package := by
  have hparse : Json.parse? text = some (.object members) := by cbv
  have hdecode : Document.decode members = .ok document := by cbv
  exact compiles.read_toUTF8 (by cbv) hparse hdecode "v1"

/-- What a disk says that has no room left. -/
def noSpace : Error := .files (.failed "no space left")

/-- There is no room for the file of a pump. -/
def behaviour : SinkBehaviour := fun _ call =>
  match call with
  | .write "pump.go" _ => .error noSpace
  | _ => .ok ()

/-- All files are empty. -/
def plain : Renderer := fun _ _ => .ok .empty

/-- The package is written, and once more after that failed. -/
def calls : List Call :=
  [.compile .json text.toUTF8, .emit plain package, .emit plain package]

/-- What the disk hears. -/
def told : List SinkCall :=
  [.prepare, .write "doc.go" .empty, .write "groupversion_info.go" .empty,
    .write "types.go" .empty, .write "pump.go" .empty]

def compilation : Event := ⟨.compiled (.ok package), {}, ⟨.extracted, []⟩⟩

def emission : Event :=
  ⟨.emitted plain package (.error noSpace), ⟨.extracted, []⟩, ⟨.failed, told⟩⟩

def repetition : Event :=
  ⟨.emitted plain package (.error (.misuse (.emitFrom .failed))), ⟨.failed, told⟩, ⟨.failed, told⟩⟩

/-- The three events, as `history` has them. -/
theorem history_calls :
    history ⟨{}, "v1"⟩ behaviour {} calls = [compilation, emission, repetition] := by
  have hcompile : Session.perform {} (compile ⟨{}, "v1"⟩ .json text.toUTF8) =
      (.ok package, ⟨.extracted, []⟩) := by
    rw [Session.perform_compile, read_text]
  have hemit : Session.perform ⟨.extracted, []⟩ (emit plain (.listening behaviour) package) =
      (.error noSpace, ⟨.failed, told⟩) := by
    rw [Session.perform_emit]
    rfl
  have hrepeat : Session.perform ⟨.failed, told⟩ (emit plain (.listening behaviour) package) =
      (.error (.misuse (.emitFrom .failed)), ⟨.failed, told⟩) := by
    rw [Session.perform_emit]
    rfl
  simp only [calls, history, events, Call.perform, Session.perform_discard, hcompile, hemit,
    hrepeat]
  rfl

/-- The disk is told of the package once. -/
theorem repetition_leaves_disk :
    history ⟨{}, "v1"⟩ behaviour {} calls = [compilation, emission, repetition] ∧
      emission.ReachesSink ∧ ¬repetition.ReachesSink := by
  have hreach : emission.ReachesSink := List.cons_ne_nil _ _
  refine ⟨history_calls, hreach, fun hagain => ?_⟩
  -- If the repetition had reached the disk, there would be a compilation between two events with
  -- nothing between them.
  obtain ⟨e, he, _⟩ := (emission_all_or_nothing ⟨{}, "v1"⟩ behaviour calls).2 [compilation] emission
    [] repetition [] history_calls hreach hagain
  exact List.not_mem_nil he

end FullDisk

end ControllerTypes.Generator
