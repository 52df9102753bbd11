import Mathlib.Data.List.Forall2

/-!
# `ControllerTypes.Proofs.Run`: opening runs that succeed

Everything a run does is a step that may fail, and a property of a run speaks of the runs that do
not. `bind_eq_ok` takes such a run apart into its two halves, and `forM_eq_ok_iff` and
`mapM_eq_ok_iff` take loops apart into their rounds; `exists_of_forM_eq_error` finds the round in
which a loop failed. For steps with a state, `run_bind_eq_ok` does the same as `bind_eq_ok`, and
`run_forM_cons` splits the first round off a loop. `runExcept_bind`, `runExcept_bind_eq_ok` and
`runExcept_bind_eq_error` are for the other order of the two effects, where the state outlives a
failure; `runExcept_tryCatch` and `runExcept_adapt` are for steps that take over from one that
failed, or tell its failure in other words.
-/

set_option autoImplicit false

namespace ControllerTypes.Run

variable {ε σ α β : Type}

/-- A step in front of another succeeds if both do. -/
theorem bind_eq_ok {x : Except ε α} {f : α → Except ε β} {b : β} :
    (x >>= f) = .ok b ↔ ∃ a, x = .ok a ∧ f a = .ok b := by
  cases x with
  | error e =>
    constructor
    · intro h
      cases h
    · rintro ⟨a, h, _⟩
      cases h
  | ok a =>
    constructor
    · intro h
      exact ⟨a, rfl, h⟩
    · rintro ⟨a', h, hf⟩
      cases h
      exact hf

/-- A result that is turned into another one is there if the first is. -/
theorem map_eq_ok {x : Except ε α} {f : α → β} {b : β} :
    x.map f = .ok b ↔ ∃ a, x = .ok a ∧ f a = b := by
  cases x with
  | error e =>
    constructor
    · intro h
      cases h
    · rintro ⟨a, h, _⟩
      cases h
  | ok a =>
    constructor
    · intro h
      cases h
      exact ⟨a, rfl, rfl⟩
    · rintro ⟨_, ⟨⟩, rfl⟩
      rfl

/-- A loop succeeds if every round does. -/
theorem forM_eq_ok_iff {f : α → Except ε PUnit} {xs : List α} :
    xs.forM f = .ok () ↔ ∀ x ∈ xs, f x = .ok () := by
  induction xs with
  | nil => exact iff_of_true rfl (by simp)
  | cons x rest ih =>
    -- The first round of a loop is a step in front of the others.
    have hcons : (x :: rest).forM f = .ok () ↔ ∃ a, f x = .ok a ∧ rest.forM f = .ok () := bind_eq_ok
    rw [hcons, List.forall_mem_cons, ← ih]
    exact ⟨fun ⟨_, h⟩ => h, fun h => ⟨⟨⟩, h⟩⟩

/-- A loop that fails has a round that does. -/
theorem exists_of_forM_eq_error {f : α → Except ε PUnit} {xs : List α} {e : ε}
    (h : xs.forM f = .error e) : ∃ x ∈ xs, f x = .error e := by
  induction xs with
  | nil => cases h
  | cons x rest ih =>
    have hcons : (x :: rest).forM f = f x >>= fun _ => rest.forM f := rfl
    rw [hcons] at h
    -- It is the first round, or one behind it if that succeeds.
    cases hfirst : f x with
    | error e' =>
      rw [hfirst] at h
      cases h
      exact ⟨x, List.mem_cons_self, hfirst⟩
    | ok =>
      rw [hfirst] at h
      obtain ⟨y, hy, herror⟩ := ih h
      exact ⟨y, List.mem_cons_of_mem _ hy, herror⟩

/-- What every round of a loop keeps is kept by the loop. -/
theorem of_foldlM_eq_ok {P : β → Prop} {f : β → α → Except ε β} {xs : List α} {b b' : β}
    (h : xs.foldlM f b = .ok b') (hf : ∀ b, ∀ x ∈ xs, ∀ b', f b x = .ok b' → P b → P b')
    (hb : P b) : P b' := by
  -- Each round hands on a new `b` for which `P` holds again.
  induction xs generalizing b with
  | nil =>
    cases h
    exact hb
  | cons x rest ih =>
    rw [List.foldlM_cons, bind_eq_ok] at h
    obtain ⟨next, hfirst, hrest⟩ := h
    exact ih hrest (fun b y hy => hf b y (List.mem_cons_of_mem _ hy))
      (hf b x List.mem_cons_self _ hfirst hb)

/-- A list is made one item after the other. -/
theorem mapM_eq_ok_iff {f : α → Except ε β} {xs : List α} {ys : List β} :
    xs.mapM f = .ok ys ↔ List.Forall₂ (fun x y => f x = .ok y) xs ys := by
  induction xs generalizing ys with
  | nil =>
    rw [List.mapM_nil, List.forall₂_nil_left_iff]
    constructor
    · intro h
      cases h
      rfl
    · rintro rfl
      rfl
  | cons x rest ih =>
    rw [List.mapM_cons, bind_eq_ok, List.forall₂_cons_left_iff]
    constructor
    · rintro ⟨y, hy, h⟩
      obtain ⟨others, hrest, h⟩ := bind_eq_ok.1 h
      cases h
      exact ⟨y, others, hy, ih.1 hrest, rfl⟩
    · rintro ⟨y, others, hy, hrest, rfl⟩
      exact ⟨y, hy, bind_eq_ok.2 ⟨others, ih.2 hrest, rfl⟩⟩

/-- A step in front of another succeeds if both do, also where they carry a state. -/
theorem run_bind_eq_ok {x : StateT σ (Except ε) α} {f : α → StateT σ (Except ε) β} {s : σ}
    {r : β × σ} :
    (x >>= f).run s = .ok r ↔ ∃ a s', x.run s = .ok (a, s') ∧ (f a).run s' = .ok r := by
  rw [StateT.run_bind, bind_eq_ok]
  constructor
  · rintro ⟨⟨a, s'⟩, h⟩
    exact ⟨a, s', h⟩
  · rintro ⟨a, s', h⟩
    exact ⟨(a, s'), h⟩

/-- Forgetting the answer of a step forgets nothing else. -/
theorem run_discard_eq_ok {x : StateT σ (Except ε) α} {s s' : σ} :
    (discard x).run s = .ok ((), s') ↔ ∃ a, x.run s = .ok (a, s') := by
  -- The answer goes, and the state that stands beside it stays.
  have hmap : (discard x).run s = x.run s >>= fun r => .ok ((), r.2) := rfl
  rw [hmap, bind_eq_ok]
  constructor
  · rintro ⟨⟨a, s₁⟩, hx, h⟩
    cases h
    exact ⟨a, hx⟩
  · rintro ⟨a, hx⟩
    exact ⟨(a, s'), hx, rfl⟩

/-- A loop succeeds if its first round and all others do. -/
theorem run_forM_cons {f : α → StateT σ (Except ε) PUnit} {a : α} {rest : List α} {s s' : σ} :
    ((a :: rest).forM f).run s = .ok ((), s') ↔
      ∃ s₁, (f a).run s = .ok ((), s₁) ∧ (rest.forM f).run s₁ = .ok ((), s') := by
  have hcons : (a :: rest).forM f = f a >>= fun _ => rest.forM f := rfl
  rw [hcons, run_bind_eq_ok]
  constructor
  · rintro ⟨⟨⟩, s₁, hfirst, hrest⟩
    exact ⟨s₁, hfirst, hrest⟩
  · rintro ⟨s₁, hfirst, hrest⟩
    exact ⟨(), s₁, hfirst, hrest⟩

/-- Where the state outlives a failure, a step that fails ends the run in the state it leaves. -/
theorem runExcept_bind (x : ExceptT ε (StateM σ) α) (f : α → ExceptT ε (StateM σ) β) (s : σ) :
    (x >>= f).run.run s =
      match x.run.run s with
      | (.ok a, s₁) => (f a).run.run s₁
      | (.error e, s₁) => (.error e, s₁) := by
  rw [ExceptT.run_bind, StateT.run_bind]
  rcases x.run.run s with ⟨_ | a, s₁⟩ <;> rfl

/-- There, a step that takes over from one that failed goes on from the state that one left. -/
theorem runExcept_tryCatch (x : ExceptT ε (StateM σ) α) (f : ε → ExceptT ε (StateM σ) α) (s : σ) :
    (tryCatch x f).run.run s =
      match x.run.run s with
      | (.ok a, s₁) => (.ok a, s₁)
      | (.error e, s₁) => (f e).run.run s₁ := by
  rw [ExceptT.run_tryCatch, StateT.run_bind]
  rcases x.run.run s with ⟨_ | a, s₁⟩ <;> rfl

/-- There, a failure that is told in other words leaves the same state. -/
theorem runExcept_adapt {ε' : Type} (x : ExceptT ε (StateM σ) α) (f : ε → ε') (s : σ) :
    (x.adapt f).run.run s = ((x.run.run s).1.mapError f, (x.run.run s).2) := rfl

/-- A step in front of another succeeds if both do, also where the state outlives a failure. -/
theorem runExcept_bind_eq_ok {x : ExceptT ε (StateM σ) α} {f : α → ExceptT ε (StateM σ) β}
    {s s' : σ} {b : β} :
    (x >>= f).run.run s = (.ok b, s') ↔
      ∃ a s₁, x.run.run s = (.ok a, s₁) ∧ (f a).run.run s₁ = (.ok b, s') := by
  rw [runExcept_bind]
  -- If the first step fails, nothing behind it can succeed.
  rcases hx : x.run.run s with ⟨e | a, s₁⟩
  · constructor
    · intro h
      cases h
    · rintro ⟨a, s₁, h, _⟩
      cases h
  · constructor
    · intro h
      exact ⟨a, s₁, rfl, h⟩
    · rintro ⟨a', s₁', h, hf⟩
      cases h
      exact hf

/-- A step in front of another fails if it does, or if the other does behind it. -/
theorem runExcept_bind_eq_error {x : ExceptT ε (StateM σ) α} {f : α → ExceptT ε (StateM σ) β}
    {s s' : σ} {e : ε} :
    (x >>= f).run.run s = (.error e, s') ↔
      x.run.run s = (.error e, s') ∨
        ∃ a s₁, x.run.run s = (.ok a, s₁) ∧ (f a).run.run s₁ = (.error e, s') := by
  rw [runExcept_bind]
  -- The failure is that of the first step, or the first step answers and it is that of the second.
  rcases hx : x.run.run s with ⟨e' | a, s₁⟩
  · constructor
    · intro h
      cases h
      exact .inl rfl
    · rintro (h | ⟨a, s₁', h, _⟩)
      · cases h
        rfl
      · cases h
  · constructor
    · intro h
      exact .inr ⟨a, s₁, rfl, h⟩
    · rintro (h | ⟨a', s₁', h, hf⟩)
      · cases h
      · cases h
        exact hf

end ControllerTypes.Run
