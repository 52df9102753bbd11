import ControllerTypes.Proofs.Resolution.Complete
import ControllerTypes.Proofs.Resolution.Equations

/-!
# `ControllerTypes.Proofs.Resolution.Live`: why a description is not resolved

Not every reference in a description counts. Members of a schema that are overruled by others are
never looked at, and a reference below them may lead anywhere. `SchemaObject.descent` says where
conversion goes from a schema, in terms of its members alone, and a reference is `Live` if this way
comes to it from a definition. Which definition a reference means is a matter of its text
(`Document.definitionName?_eq_some_iff`).

`resolveAll_errors` says what this makes of the failures. A description with a live reference to
nothing is not resolved. Without one, the definitions are worked out, and only the search for
cycles may still fail. It always does where definitions point at each other in a circle
(`Points`): the definition of a circle that is finished first becomes a reference, and all others
become references with it, so no chain of references ever leaves the circle
(`Resolved.reference_of_circle`).
-/

set_option autoImplicit false

namespace ControllerTypes

open Document

/-- What `afterStart?` leaves of the text is what stands behind the start. -/
theorem afterStart?_eq_some_iff {start text rest : String} :
    afterStart? start text = some rest ↔ text = start ++ rest := by
  rw [afterStart?]
  constructor
  · intro h
    split at h
    · next hstart =>
      obtain ⟨tail, htail⟩ := hstart
      cases h
      apply String.toList_inj.1
      rw [String.toList_append, String.toList_ofList, ← htail, List.drop_left]
    · cases h
  · rintro rfl
    rw [String.toList_append, if_pos (List.prefix_append _ _), List.drop_left, String.ofList_toList]

/-- A reference to a definition is the name of that behind one of two starts. -/
theorem Document.definitionName?_eq_some_iff {ref name : String} :
    definitionName? ref = some name ↔
      name ≠ "" ∧
        (ref = "#/definitions/" ++ name ∨ ref = "#/components/schemas/" ++ name) := by
  have hstarts : (afterStart? "#/definitions/" ref).or (afterStart? "#/components/schemas/" ref)
      = some name ↔
        ref = "#/definitions/" ++ name ∨ ref = "#/components/schemas/" ++ name := by
    rw [Option.or_eq_some_iff, afterStart?_eq_some_iff, afterStart?_eq_some_iff]
    refine or_congr_right ⟨And.right, fun h => ⟨?_, h⟩⟩
    -- The starts part ways at the third letter.
    cases hother : afterStart? "#/definitions/" ref with
    | none => rfl
    | some other =>
      have heq := congrArg String.toList (h.symm.trans (afterStart?_eq_some_iff.1 hother))
      simp at heq
  rw [definitionName?, Option.filter_eq_some_iff, hstarts, and_comm]
  simp

namespace Document.SchemaObject

/-! ### Where conversion goes from a schema -/

/-- From an object to its properties, or to the schema of the values if there are none. -/
def objectDescent (raw : SchemaObject) : List SchemaObject :=
  match raw.properties, raw.additionalProperties with
  | [], some (.schema values) => [values]
  | properties, _ => properties.map Prod.snd

/-- From a schema that is neither a reference nor put together from others. -/
def plainDescent (raw : SchemaObject) : List SchemaObject :=
  match raw.literals, raw.typeName? with
  | _ :: _, _ => []
  | [], some "object" | [], none => raw.objectDescent
  | [], some "array" => raw.items.toList
  | [], some _ => []

/-- From a schema to those below it that count. -/
def descent (raw : SchemaObject) : List SchemaObject :=
  let own := raw.properties.map Prod.snd
  if raw.ref.isSome then []
  else if !raw.allOf.isEmpty then raw.allOf ++ own
  else if !raw.oneOf.isEmpty || !raw.anyOf.isEmpty then
    (raw.oneOf ++ raw.anyOf).filter (fun variant => variant.typeName? != some "null") ++ own
  else raw.plainDescent

/-- Conversion comes from the schema to the other one. -/
def Contains (raw part : SchemaObject) : Prop :=
  Relation.ReflTransGen (fun whole part => part ∈ whole.descent) raw part

variable {raw part : SchemaObject}

/-- From an object conversion goes where `objectDescent` says. -/
theorem parts_of_objectForm (h : raw.form = raw.objectForm) : raw.parts = raw.objectDescent := by
  rw [parts, h, objectForm, objectDescent]
  -- Whether there are properties decides, and without any what is said about additional ones.
  rcases raw.properties with - | ⟨first, rest⟩
  · rcases raw.additionalProperties with - | ⟨⟨⟩ | ⟨⟩⟩ | values <;> rfl
  · rfl

/-- From a schema without any composition it goes where `plainDescent` says. -/
theorem parts_of_plainForm (h : raw.form = raw.plainForm) : raw.parts = raw.plainDescent := by
  have hobject (hform : raw.plainForm = raw.objectForm) := parts_of_objectForm (h.trans hform)
  unfold plainForm plainDescent at *
  -- The cases of `plainForm`: literals, an object, no type, an array, any other type.
  split
  · next hliterals =>
    simp only [hliterals] at h
    simp only [parts, h]
  · next hliterals htype => exact hobject (by simp only [hliterals, htype])
  · next hliterals htype =>
    simp only [hliterals, htype] at h hobject
    split at h
    · next hnothing =>
      -- What is neither an object nor anything else has no properties to go to.
      obtain ⟨hproperties, hadditional⟩ :
          raw.properties = [] ∧ raw.additionalProperties = none := by simpa using hnothing
      simp only [parts, h, objectDescent, hproperties, hadditional, List.map_nil]
    · next hsomething => exact hobject (if_neg hsomething)
  · next hliterals htype =>
    simp only [hliterals, htype] at h
    cases hitems : raw.items <;> simp only [hitems] at h <;> simp only [parts, h] <;> rfl
  · next hliterals htype =>
    simp only [hliterals, htype] at h
    simp only [parts, h]

/-- The `parts` that count for the form of a schema are those that conversion goes to. -/
theorem parts_eq_descent (raw : SchemaObject) : raw.parts = raw.descent := by
  unfold descent
  split
  · next href =>
    obtain ⟨ref, href⟩ := Option.isSome_iff_exists.1 href
    simp only [parts, form, href]
  · next href =>
    have href : raw.ref = none := by simpa using href
    split
    · -- The members decide whether the schema is put together from one or from several.
      rcases hall : raw.allOf with - | ⟨first, - | ⟨second, rest⟩⟩
      · simp_all
      · -- A schema alone is only decorated if there are no properties, which are no parts then.
        simp only [parts, form, href, hall]
        by_cases hproperties : raw.properties = [] <;> simp [hproperties]
      · simp only [parts, form, href, hall]
    · next hall =>
      have hall : raw.allOf = [] := by simpa using hall
      split
      · next hvariants =>
        rw [parts, form, href, hall]
        simp only [hvariants, if_true, variants]
        rfl
      · next hvariants =>
        exact parts_of_plainForm (by rw [form, href, hall]; exact if_neg hvariants)

/-- Nothing but a reference is taken for one. -/
theorem ref_of_form {ref : String} (h : raw.form = .reference ref) : raw.ref = some ref := by
  unfold form at h
  split at h
  · next href =>
    cases h
    exact href
  · split at h
    · cases h
    · -- No form of a plain schema is a reference.
      unfold plainForm objectForm at h
      repeat' split at h
      all_goals cases h
  · split at h <;> cases h
  · cases h

end Document.SchemaObject

namespace Resolution

open Named Relation Run

variable {defs : Definitions} {catalog : Catalog} {d n : String} {raw part : SchemaObject}
  {schema : Schema}

/-! ### References that count -/

/-- Conversion comes to the reference from some definition. -/
def Live (defs : Definitions) (ref : String) : Prop :=
  ∃ d raw part, defs.get? d = some raw ∧ raw.Contains part ∧ part.ref = some ref

/-- A schema is `Complete` if every reference that conversion comes to names a definition. -/
theorem complete_iff :
    Complete defs raw ↔
      ∀ part ref, raw.Contains part → part.ref = some ref → Names defs ref := by
  constructor
  · intro h part ref hcontains href
    -- Along the way that conversion takes, from the schema downwards.
    induction hcontains using ReflTransGen.head_induction_on with
    | refl =>
      obtain ⟨hnamed, _⟩ := h
      exact hnamed ref (form_of_ref href)
    | head hstep _ ih =>
      obtain ⟨_, hparts⟩ := h
      exact ih (hparts _ (SchemaObject.parts_eq_descent _ ▸ hstep))
  · intro h
    -- On the parts of the schema, each of which contains no more than it does.
    induction raw using SchemaObject.parts_induction with
    | step raw ih =>
      refine ⟨fun ref hform => h raw ref .refl (SchemaObject.ref_of_form hform), ?_⟩
      intro part hpart
      refine ih part hpart fun inner ref hcontains href => h inner ref ?_ href
      exact .head (SchemaObject.parts_eq_descent raw ▸ hpart) hcontains

/-- Definitions are `WorkedOut` if and only if every reference that is `Live` names one of them. -/
theorem exists_workedOut_iff_live :
    (∃ catalog, WorkedOut defs catalog) ↔ ∀ ref, Live defs ref → Names defs ref := by
  simp only [exists_workedOut_iff, complete_iff]
  constructor
  · rintro h ref ⟨d, raw, part, hraw, hcontains, href⟩
    exact h d raw hraw part ref hcontains href
  · intro h d raw hraw part ref hcontains href
    exact h ref ⟨d, raw, part, hraw, hcontains, href⟩

/-! ### Failures -/

/-- The search for cycles, `chase`, fails at a name. -/
theorem unresolved_of_chase {start : String} {seen : List String} {e : Error}
    (h : chase catalog start seen schema = .error e) : ∃ x, e = .unresolved x := by
  fun_induction chase catalog start seen schema with
  | case1 | case2 =>
    cases h
    exact ⟨_, rfl⟩
  | case3 | case5 => cases h
  | case4 _ _ _ _ _ _ ih => exact ih h

/-- So does `checkAliasCycles`, which makes it for all definitions. -/
theorem unresolved_of_checkAliasCycles {e : Error} (h : checkAliasCycles catalog = .error e) :
    ∃ x, e = .unresolved x := by
  obtain ⟨_, _, hchase⟩ := exists_of_forM_eq_error h
  exact unresolved_of_chase hchase

/-- Working out definitions fails only at a reference that is `Live` and `Broken`. -/
theorem broken_of_resolveEach :
    FailsOnly (fun e => ∃ x, e = .unresolved x ∧ ∃ ref, Live defs ref ∧ Broken defs ref x)
      (resolveEach defs defs.names) := by
  -- The search stays in the region of what conversion comes to from some definition.
  let region : Region defs :=
    { names := fun _ => True
      schemas := fun part => ∃ d raw, defs.get? d = some raw ∧ raw.Contains part
      definition := fun _ hraw => ⟨_, _, hraw, .refl⟩
      part := fun ⟨d, raw, hraw, hcontains⟩ hpart =>
        ⟨d, raw, hraw, hcontains.tail (SchemaObject.parts_eq_descent _ ▸ hpart)⟩
      target := fun _ _ _ _ => trivial }
  refine (FailsOnly.composable _).resolveEach fun name hmem => ?_
  refine (region.holds (FailsOnly.composable _) fun part ref x hpart hform hbroken => ?_).1 [] name
    (fun _ => trivial) fun hmissing => absurd hmem hmissing
  obtain ⟨d, raw, hraw, hcontains⟩ := hpart
  exact FailsOnly.throw
    ⟨x, rfl, ref, ⟨d, raw, part, hraw, hcontains, SchemaObject.ref_of_form hform⟩, hbroken⟩

/-- A description is not resolved if its definitions are not worked out, or if `checkAliasCycles`
finds one. -/
theorem resolveAll_eq_error_iff {e : Error} :
    resolveAll defs = .error e ↔
      (∃ m, (resolveEach defs defs.names).run.run {} = (.error e, m)) ∨
        ∃ catalog, WorkedOut defs catalog ∧ checkAliasCycles catalog = .error e := by
  rw [resolveAll]
  simp only [WorkedOut, finalMemo]
  -- The two cases are which of the two steps failed.
  rcases hrun : (resolveEach defs defs.names).run {} with ⟨e' | answers, m⟩
  · constructor
    · intro h
      cases h
      exact .inl ⟨m, hrun⟩
    · rintro (⟨m', h⟩ | ⟨catalog, ⟨answers, h, _⟩, _⟩) <;> cases hrun.symm.trans h
      rfl
  · show (checkAliasCycles (.ofList answers) >>= fun _ => _) = _ ↔ _
    constructor
    · intro h
      refine .inr ⟨.ofList answers, ⟨answers, hrun, rfl⟩, ?_⟩
      cases hcheck : checkAliasCycles (.ofList answers) <;> rw [hcheck] at h <;> cases h
      rfl
    · rintro (⟨m', h⟩ | ⟨catalog, ⟨answers', h, rfl⟩, hcheck⟩)
      · cases hrun.symm.trans h
      · cases hrun.symm.trans h
        rw [hcheck]
        rfl

/-! ### Definitions that point at each other -/

/-- The schema is a reference to the definition, and adds nothing to it. -/
inductive Alias : SchemaObject → String → Prop where
  | reference {raw : SchemaObject} {ref n : String} (href : raw.ref = some ref)
      (hname : definitionName? ref = some n) : Alias raw n
  | decorated {raw only : SchemaObject} {n : String} (href : raw.ref = none)
      (hall : raw.allOf = [only]) (hproperties : raw.properties = []) (honly : Alias only n) :
      Alias raw n

/-- The definition is a reference to the other one, and adds nothing to it. -/
def Points (defs : Definitions) (d n : String) : Prop :=
  ∃ raw, defs.get? d = some raw ∧ Alias raw n

/-- An `Alias` is converted to what stands for the definition. -/
theorem Alias.standsFor (h : Alias raw n) (hc : Conversion defs catalog d raw schema) :
    StandsFor defs catalog d n schema := by
  induction h with
  | reference href hname =>
    have hrule := hc.of_form
    simp only [form_of_ref href, hname, Option.some.injEq] at hrule
    obtain ⟨_, rfl, hstands⟩ := hrule
    exact hstands
  | @decorated raw only _ href hall hproperties _ ih =>
    -- A schema alone, with nothing added, is a decorated one.
    have hform : raw.form = .decorated only := by
      rw [SchemaObject.form, href, hall]
      exact if_pos (by rw [hproperties]; rfl)
    have hrule := hc.of_form
    simp only [hform] at hrule
    exact ih hrule

/-- A definition of a circle `Points` to the next one, which is on the circle as well. -/
theorem exists_points_of_circle (h : TransGen (Points defs) d d) :
    ∃ n, Points defs d n ∧ TransGen (Points defs) n n := by
  obtain ⟨n, hpoints, hback⟩ := TransGen.head'_iff.1 h
  exact ⟨n, hpoints, TransGen.tail' hback hpoints⟩

/-- All definitions of a circle become references to definitions of a circle. -/
theorem Resolved.reference_of_circle (hr : Resolved defs catalog)
    (h : TransGen (Points defs) d d) :
    ∃ n, TransGen (Points defs) n n ∧ catalog.get? d = some (.reference n) := by
  -- The next definition of the circle is a reference by then, or is not finished before this one.
  induction hlength : (finishedBefore defs d).length using Nat.strong_induction_on
    generalizing d with
  | h length ih =>
    obtain ⟨n, ⟨raw, hraw, halias⟩, hcircle⟩ := exists_points_of_circle h
    obtain ⟨schema, hget⟩ := hr.exists_schema hraw
    rcases halias.standsFor (hr.conversion hraw hget) with ⟨hbefore, target, htarget, rfl⟩ |
      ⟨_, _, rfl⟩
    · obtain ⟨k, hk, hreference⟩ := ih _ (hlength ▸ length_finishedBefore_lt hbefore) hcircle rfl
      cases htarget.symm.trans hreference
      exact ⟨k, hk, hget⟩
    · exact ⟨n, hcircle, hget⟩

/-- A definition on a circle stands for nothing: the reference it is leads to another one. -/
theorem Resolved.not_circle (hr : Resolved defs catalog) {schema : Schema}
    (htarget : catalog.target? d = some schema) : ¬ TransGen (Points defs) d d := by
  refine Catalog.target?_induction (motive := fun d => ¬ TransGen (Points defs) d d) htarget ?_ ?_
  · intro d hget hnot h
    obtain ⟨n, _, hreference⟩ := hr.reference_of_circle h
    exact hnot n (Option.some.inj (hget.symm.trans hreference))
  · intro d next hget ih h
    obtain ⟨n, hcircle, hreference⟩ := hr.reference_of_circle h
    cases hget.symm.trans hreference
    exact ih hcircle

/-- A description with a circle is not resolved. -/
theorem not_resolved_of_circle (h : TransGen (Points defs) d d) :
    resolveAll defs ≠ .ok catalog := by
  intro hresolved
  have hr := resolved_of_resolveAll hresolved
  obtain ⟨_, _, hget⟩ := hr.reference_of_circle h
  -- If the check had found nothing, the definition would stand for a schema.
  obtain ⟨schema, htarget, _⟩ := target?_of_checkAliasCycles
    (checkAliasCycles_of_resolveAll hresolved) (Table.mem_names_of_get? hget)
  exact hr.not_circle htarget h

/-! ### A description -/

/-- In a description that is resolved, every reference that counts names a definition. If they all
do, only the search for cycles can fail, and it does so where definitions point at each other in a
circle. A failure always tells of a reference: one that counts and names nothing, unless the search
for cycles failed. -/
theorem resolveAll_errors (defs : Definitions) :
    ((∃ catalog, resolveAll defs = .ok catalog) → ∀ ref, Live defs ref → Names defs ref) ∧
    ((∀ ref, Live defs ref → Names defs ref) →
      ∃ catalog, WorkedOut defs catalog ∧
        ∀ e, resolveAll defs = .error e ↔ checkAliasCycles catalog = .error e) ∧
    (∀ d, TransGen (Points defs) d d → ∃ e, resolveAll defs = .error e) ∧
    (∀ e, resolveAll defs = .error e →
      ∃ x, e = .unresolved x ∧
        ((∃ ref, Live defs ref ∧ Broken defs ref x) ∨
          ∃ catalog, WorkedOut defs catalog ∧ checkAliasCycles catalog = .error e)) := by
  refine ⟨?sound, ?complete, ?circle, ?unresolved⟩
  case sound =>
    rintro ⟨catalog, h⟩
    exact exists_workedOut_iff_live.1 ⟨catalog, (resolveAll_eq_ok_iff.1 h).1⟩
  case complete =>
    intro h
    obtain ⟨catalog, hworked⟩ := exists_workedOut_iff_live.2 h
    refine ⟨catalog, hworked, fun e => resolveAll_eq_error_iff.trans ⟨?_, fun hcheck =>
      .inr ⟨catalog, hworked, hcheck⟩⟩⟩
    obtain ⟨answers, hrun, rfl⟩ := hworked
    -- The definitions are worked out, so it is the check that failed, and on this catalog.
    rintro (⟨m, hfails⟩ | ⟨_, ⟨answers', hrun', rfl⟩, hcheck⟩)
    · cases hrun.symm.trans hfails
    · cases hrun.symm.trans hrun'
      exact hcheck
  case circle =>
    intro d hcircle
    cases hresolved : resolveAll defs with
    | error e => exact ⟨e, rfl⟩
    | ok catalog => exact absurd hresolved (not_resolved_of_circle hcircle)
  case unresolved =>
    intro e h
    rcases resolveAll_eq_error_iff.1 h with ⟨m, hfails⟩ | ⟨catalog, hworked, hcheck⟩
    · obtain ⟨x, rfl, hbroken⟩ := broken_of_resolveEach _ _ _ hfails
      exact ⟨x, rfl, .inl hbroken⟩
    · obtain ⟨x, rfl⟩ := unresolved_of_checkAliasCycles hcheck
      exact ⟨x, rfl, .inr ⟨catalog, hworked, hcheck⟩⟩

/-! ### A description with a circle

The left and the right send each other round in a circle. The sign names both sides, and what it
says besides is overruled by its literals, so nobody misses the definition of a side. -/

namespace Signs

def sign : SchemaObject where
  literals := [.string "left", .string "right"]
  properties := [("side", { ref := "#/definitions/Side" })]

def left : SchemaObject where
  ref := "#/definitions/Right"

def right : SchemaObject where
  allOf := [{ ref := "#/definitions/Left" }]

def definitions : Definitions := .ofList [("Sign", sign), ("Left", left), ("Right", right)]

end Signs

/-- The signs are resolved without the circle, so the reference to a side does not count. With the
circle they are not resolved. -/
theorem signs_errors :
    ¬ Live (.ofList [("Sign", Signs.sign)]) "#/definitions/Side" ∧
      TransGen (Points Signs.definitions) "Left" "Left" ∧
      ∃ e, resolveAll Signs.definitions = .error e := by
  have hsign : resolveAll (.ofList [("Sign", Signs.sign)])
      = .ok (.ofList [("Sign", .enumeration ["left", "right"])]) := by cbv
  have hleft : Points Signs.definitions "Left" "Right" :=
    ⟨Signs.left, by cbv, .reference rfl (by cbv)⟩
  have hright : Points Signs.definitions "Right" "Left" :=
    ⟨Signs.right, by cbv, .decorated rfl rfl rfl (.reference rfl (by cbv))⟩
  have hcircle := TransGen.head hleft (.single hright)
  -- If the reference to a side counted, it would name a definition, and there is none.
  refine ⟨fun hlive => ?_, hcircle, (resolveAll_errors _).2.2.1 "Left" hcircle⟩
  obtain ⟨n, hname, hmem⟩ := (resolveAll_errors _).1 ⟨_, hsign⟩ _ hlive
  have hside : definitionName? "#/definitions/Side" = some "Side" := by cbv
  cases hside.symm.trans hname
  revert hmem
  decide

end Resolution

end ControllerTypes
