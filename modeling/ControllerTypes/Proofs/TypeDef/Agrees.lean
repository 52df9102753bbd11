import ControllerTypes.Proofs.TypeDef.Through

/-!
# `ControllerTypes.Proofs.TypeDef.Agrees`: the guard does not fire where the walk ends

The walk of `ControllerTypes.TypeDef.Extract` raises `TypeFault.endlessAlias` where it would go
round. Wherever the walk without this guard ends within some depth, the walk with it ends in the
same way (`agrees_extract`).

When the guard fires, the definition at hand was passed through before. `Place.Followed` says that
the walk comes from there to the schema at hand, and so it would come back to the definition, again
and again.
-/

set_option autoImplicit false

namespace ControllerTypes.TypeDef

open Name

variable {catalog : Catalog} {naming : Naming}

/-! ### Steps that agree -/

section
variable {α β : Type}

/-- The failure is that of the guard. -/
def IsEndless : Error → Prop
  | .typeShape _ _ (.endlessAlias _) => True
  | _ => False

/-- Wherever the first step ends, the other one ends in the same way, and it is not the guard that
ends it. -/
def Agrees (x : Unguarded.Step α) (y : Step α) (w : Walk) : Prop :=
  ∀ r, (x.run w).run = some r → y.run w = r ∧ ∀ e, r = .error e → ¬ IsEndless e

namespace Agrees

/-- An answer agrees with itself. -/
theorem pure (a : α) (w : Walk) : Agrees (Pure.pure a) (Pure.pure a) w := by
  rintro r ⟨⟩
  exact ⟨rfl, fun e he => nomatch he⟩

/-- A failure agrees with itself, if it is not that of the guard. -/
theorem throw {e : Error} (he : ¬ IsEndless e) (w : Walk) :
    Agrees (throw e : Unguarded.Step α) (throw e) w := by
  rintro r ⟨⟩
  refine ⟨rfl, fun e' he' => ?_⟩
  cases he'
  exact he

/-- A step that is too deep does not end. -/
theorem beyond (y : Step α) (w : Walk) : Agrees Bounded.beyond y w :=
  fun _ h => nomatch h

/-- The steps that write and take names end in any case. -/
theorem write (t : TypeDef) (w : Walk) :
    Agrees (Unguarded.ending (TypeDef.write t)) (TypeDef.write t) w := by
  rintro r ⟨⟩
  exact ⟨rfl, fun e he => nomatch he⟩

/-- Taking a name for an object is the same step on both sides. -/
theorem takeLifted (owner field : String) (w : Walk) :
    Agrees (Unguarded.ending (TypeDef.takeLifted owner field)) (TypeDef.takeLifted owner field)
      w := by
  rintro r ⟨⟩
  exact ⟨rfl, fun e he => nomatch he⟩

/-- Steps agree one after the other. Only the state that the first one leaves is of interest to the
second. -/
theorem bind {x : Unguarded.Step α} {y : Step α} {f : α → Unguarded.Step β} {g : α → Step β}
    {w : Walk} (hx : Agrees x y w)
    (hf : ∀ a w₁, y.run w = .ok (a, w₁) → Agrees (f a) (g a) w₁) :
    Agrees (x >>= f) (y >>= g) w := by
  intro r h
  rw [StateT.run_bind]
  rcases Bounded.bind_eq_some.1 h with ⟨e, hfirst, rfl⟩ | ⟨a, w₁, hfirst, hsecond⟩
  · obtain ⟨hy, hnot⟩ := hx _ hfirst
    rw [hy]
    refine ⟨rfl, fun e' he' => ?_⟩
    cases he'
    exact hnot e rfl
  · obtain ⟨hy, _⟩ := hx _ hfirst
    rw [hy]
    exact hf a w₁ hy r hsecond

/-- A step that looks at the state sees the same. -/
theorem get {f : Walk → Unguarded.Step β} {g : Walk → Step β} {w : Walk}
    (hf : Agrees (f w) (g w) w) : Agrees (MonadState.get >>= f) (MonadState.get >>= g) w :=
  bind (by rintro r ⟨⟩; exact ⟨rfl, fun e he => nomatch he⟩) (by rintro a w₁ ⟨⟩; exact hf)

/-- Steps agree without their answers. -/
theorem discard {x : Unguarded.Step α} {y : Step α} {w : Walk} (h : Agrees x y w) :
    Agrees (discard x) (discard y) w :=
  h.bind fun _ _ _ => .pure _ _

/-- Loops agree if their rounds do. -/
theorem forM {f : β → Unguarded.Step PUnit} {g : β → Step PUnit} {xs : List β}
    (h : ∀ x ∈ xs, ∀ w, Agrees (f x) (g x) w) (w : Walk) : Agrees (xs.forM f) (xs.forM g) w := by
  induction xs generalizing w with
  | nil => exact .pure _ _
  | cons x rest ih =>
    obtain ⟨hfirst, hrest⟩ := List.forall_mem_cons.1 h
    exact (hfirst w).bind fun _ w₁ _ => ih hrest w₁

/-- Steps that agree have the same result when the walk is over. -/
theorem result {x : Unguarded.Step α} {y : Step α} {w : Walk} (hxy : Agrees x y w)
    {f : α × Walk → β} {r : Except Error β}
    (h : (x.run w >>= fun a => ExceptT.mk (some (.ok (f a)))).run = some r) :
    (y.run w >>= fun a => .ok (f a)) = r ∧ ∀ e, r = .error e → ¬ IsEndless e := by
  rw [ExceptT.run_bind] at h
  rcases hx : (x.run w).run with - | ⟨e | a⟩
  · rw [hx] at h
    cases h
  · rw [hx] at h
    cases h
    obtain ⟨hy, hnot⟩ := hxy _ hx
    rw [hy]
    refine ⟨rfl, fun e' he' => ?_⟩
    cases he'
    exact hnot e rfl
  · rw [hx] at h
    cases h
    rw [(hxy _ hx).1]
    exact ⟨rfl, fun e he => nomatch he⟩

end Agrees

end

/-! ### The guard does not fire where the walk ends -/

/-- Every opener comes to the schema at hand. -/
def Place.Followed (catalog : Catalog) (naming : Naming) (p : Place) (w : Walk) (schema : Schema) :
    Prop :=
  ∀ o ∈ p.openers, ComesTo catalog naming (w.done ++ p.within) o p.aliases schema

section
variable {p : Place} {w : Walk} {target : String}

/-- A definition that is passed through becomes an opener at the beginning of a chain. -/
theorem Place.Followed.pass (h : p.Followed catalog naming w (.reference target)) {schema : Schema}
    (hget : catalog.get? target = some schema) (hnamed : schema.isNamed = false)
    (halias : target ∉ p.aliases) : (p.pass target).Followed catalog naming w schema := by
  intro o ho
  by_cases hopens : p.aliases = []
  · rw [Place.pass, if_pos hopens] at ho
    rcases List.mem_cons.1 ho with rfl | ho
    · rw [Place.pass, hopens]
      exact .definition hget hnamed
    · exact (h o ho).passed hget hnamed halias
  · rw [Place.pass, if_neg hopens] at ho
    exact (h o ho).passed hget hnamed halias

/-- The guard does not fire where the walk without it ends. -/
theorem Place.Followed.not_endless (h : p.Followed catalog naming w (.reference target))
    {depth : Nat} {owner source field : String} {r : Except Error ((FieldType × Bool) × Walk)}
    (hrun : ((Bounded.fieldType catalog naming depth p.unguarded owner source field
      (.reference target)).run w).run = some r) : ¬ (p.aliases = [] ∧ target ∈ p.openers) := by
  rintro ⟨hopens, hmem⟩
  have hcomes := h target hmem
  rw [Place.unguarded, hopens] at hrun
  rw [hopens] at hcomes
  exact hcomes.not_ends depth ⟨_, _, _, _, w, r, List.Subset.refl _, hrun⟩

end

/-- The same for an object or an enumeration, where the aliases in front of it are forgotten. -/
def Place.Opens (catalog : Catalog) (naming : Naming) (p : Place) (w : Walk) (schema : Schema) :
    Prop :=
  ∀ o ∈ p.openers, ∃ aliases, ComesTo catalog naming (w.done ++ p.within) o aliases schema

variable (catalog naming) in
/-- Wherever the walk within a depth ends, the walk with the guard ends in the same way. -/
theorem agrees (depth : Nat) :
    (∀ p d w, Agrees (Bounded.visit catalog naming depth p.unguarded d) (visit catalog naming p d)
      w) ∧
    (∀ p name source schema w, p.aliases = [] → p.Opens catalog naming w schema →
      Agrees (Bounded.emit catalog naming depth p.unguarded name source schema)
        (emit catalog naming p name source schema) w) ∧
    (∀ p owner source identifiers before fields w, p.aliases = [] →
      (∀ b ∈ before, Through catalog naming (w.done ++ p.within) [] b.schema) →
      p.Opens catalog naming w (.object (before ++ fields)) →
      Agrees (Bounded.structFields catalog naming depth p.unguarded owner source identifiers fields)
        (structFields catalog naming p owner source identifiers fields) w) ∧
    (∀ p owner source field schema w, p.Followed catalog naming w schema →
      Agrees (Bounded.fieldType catalog naming depth p.unguarded owner source field schema)
        (fieldType catalog naming p owner source field schema) w) := by
  induction depth with
  | zero =>
    exact ⟨fun _ _ _ => .beyond _ _, fun _ _ _ _ _ _ _ => .beyond _ _,
      fun _ _ _ _ _ _ _ _ _ _ => .beyond _ _, fun _ _ _ _ _ _ _ => .beyond _ _⟩
  | succ depth ih =>
    obtain ⟨hvisit, hemit, hfields, htype⟩ := ih
    refine ⟨?_, ?_, ?_, ?_⟩
    -- A visit enters a type afresh, where there are no openers.
    · intro p d w
      rw [Bounded.visit]
      cases hname : naming.types.get? d with
      | none =>
        rw [visit_of_none hname]
        exact .throw (by simp [IsEndless]) w
      | some name =>
        rw [visit_of_name hname]
        by_cases hwithin : name ∈ p.within
        · rw [if_pos hwithin]
          dsimp only
          rw [Place.unguarded, if_pos hwithin]
          exact .pure _ w
        · rw [if_neg hwithin]
          dsimp only
          rw [Place.unguarded, if_neg hwithin]
          refine .get ?_
          by_cases hdone : name ∈ w.done
          · rw [if_pos hdone, if_pos hdone]
            exact .pure _ w
          · rw [if_neg hdone, if_neg hdone]
            cases catalog.target? d with
            | none => exact .throw (by simp [IsEndless]) w
            | some schema =>
              exact (hemit (p.enter name) name d schema w rfl (List.forall_mem_nil _)).bind
                fun _ _ _ => .pure _ _
    -- What is written is an object, an enumeration, or a failure.
    · intro p name source schema w hopens hopened
      cases schema with
      | object fields =>
        rw [emit]
        exact (hfields p name source [] [] fields w hopens (List.forall_mem_nil _) hopened).bind
          fun _ _ _ => .write _ _
      | enumeration literals =>
        rw [emit]
        exact .write _ w
      | primitive | array | map | unsupported | reference =>
        rw [emit]
        · exact .throw (by simp [IsEndless]) w
        all_goals
          intro _ heq
          cases heq
    -- A field that was got through is in front of the others.
    · intro p owner source identifiers before fields w hopens hbefore hopened
      cases fields with
      | nil =>
        rw [structFields]
        exact .pure _ w
      | cons f rest =>
        rw [structFields]
        have hfollowed : p.Followed catalog naming w f.schema := by
          intro o ho
          obtain ⟨_, hcomes⟩ := hopened o ho
          rw [hopens]
          exact hcomes.field hbefore
        refine (htype p owner source f.name f.schema w hfollowed).bind ?_
        rintro ⟨type, indirect⟩ w₁ hrun
        have hleads := (leads_of_run catalog naming).2.2.2 _ _ _ _ _ _ _ _ _ hrun
        have hthrough : Through catalog naming (w₁.done ++ p.within) [] f.schema :=
          hopens ▸ hleads.through
        have hmore := append_subset_append hleads.extends.done (List.Subset.refl p.within)
        refine (hfields p owner source _ (before ++ [f]) rest w₁ hopens ?_ ?_).bind
          fun _ _ _ => .pure _ _
        · exact List.forall_mem_append.2
            ⟨fun b hb => (hbefore b hb).mono hmore, List.forall_mem_singleton.2 hthrough⟩
        · intro o ho
          obtain ⟨aliases, hcomes⟩ := hopened o ho
          rw [List.append_assoc]
          exact ⟨aliases, hcomes.mono hmore⟩
    · intro p owner source field schema w hfollowed
      cases schema with
      | primitive =>
        rw [fieldType]
        exact .pure _ w
      | array items =>
        rw [fieldType]
        exact (htype p owner source field items w fun o ho => (hfollowed o ho).items).bind
          fun _ _ _ => .pure _ _
      | map values =>
        rw [fieldType]
        exact (htype p owner source field values w fun o ho => (hfollowed o ho).values).bind
          fun _ _ _ => .pure _ _
      | unsupported =>
        rw [fieldType]
        exact .throw (by simp [IsEndless]) w
      | reference target =>
        cases hget : catalog.get? target with
        | none =>
          rw [fieldType_of_none hget, Bounded.fieldType]
          dsimp only
          rw [hget]
          exact .throw (by simp [IsEndless]) w
        | some schema =>
          rw [fieldType_of_get hget, Bounded.fieldType_of_get hget]
          by_cases hnamed : schema.isNamed = true
          · rw [if_pos hnamed, if_pos hnamed]
            exact (hvisit p target w).bind fun _ _ _ => .pure _ _
          · rw [if_neg hnamed, if_neg hnamed]
            by_cases halias : target ∈ p.aliases
            · rw [if_pos halias]
              rw [Place.unguarded, if_pos halias]
              exact .throw (by simp [IsEndless]) w
            · rw [if_neg halias]
              rw [Place.unguarded, if_neg halias]
              intro r h
              have hrun : ((Bounded.fieldType catalog naming (depth + 1) p.unguarded owner source
                  field (.reference target)).run w).run = some r := by
                rw [Bounded.fieldType_of_get hget, if_neg hnamed, Place.unguarded, if_neg halias]
                exact h
              rw [if_neg (hfollowed.not_endless hrun)]
              exact htype (p.pass target) owner source field schema w
                (hfollowed.pass hget (by simpa using hnamed) halias) r h
      | object | enumeration =>
        rw [Bounded.fieldType_of_isNamed rfl, fieldType_of_isNamed rfl]
        refine (Agrees.takeLifted _ _ w).bind fun lifted w₁ hrun => ?_
        have hmore : w.done ++ p.within ⊆ w₁.done ++ lifted :: p.within := by
          cases hrun
          exact append_subset_append (List.Subset.refl _) (List.subset_cons_self _ _)
        exact (hemit (p.lift lifted) lifted _ _ w₁ rfl
          fun o ho => ⟨_, (hfollowed o ho).mono hmore⟩).bind fun _ _ _ => .pure _ _

/-- `Bounded.writeResource` and `writeResource` agree: they write the spec of a resource and then
its state, by steps that agree. -/
theorem agrees_writeResource (depth : Nat) (r : Resource) (w : Walk) :
    Agrees (Bounded.writeResource catalog naming depth r) (writeResource catalog naming r) w := by
  obtain ⟨hvisit, hemit, -⟩ := agrees catalog naming depth
  have hspec (d : String) (w : Walk) :=
    (hvisit ⟨[], [], []⟩ d w).discard
  have hstatus (w : Walk) : Agrees (Bounded.writeResource.writeStatus catalog naming depth r)
      (writeResource.writeStatus catalog naming r) w :=
    hemit ⟨[r.statusType], [], []⟩ _ _ _ w rfl (List.forall_mem_nil _)
  rw [Bounded.writeResource, writeResource]
  refine (hspec r.schemaName w).bind fun _ w₁ _ => ?_
  cases r.statusSchemaName with
  | none => exact hstatus w₁
  | some d =>
    dsimp only
    split
    · exact hspec d w₁
    · exact hstatus w₁

/-- If the walk ends within some depth, the walk with the guard ends in the same way, and it is not
the guard that ends it. -/
theorem agrees_extract {resources : List Resource} {depth : Nat}
    {result : Except Error (List TypeDef)}
    (h : Bounded.extract catalog resources depth = some result) :
    extract catalog resources = result ∧ ∀ e, result = .error e → ¬ IsEndless e := by
  obtain ⟨hvisit, -⟩ := agrees catalog (.of catalog resources) depth
  have hwalk : Agrees
      (resources.forM (Bounded.writeResource catalog (.of catalog resources) depth) >>= fun _ =>
        catalog.entries.forM fun x => do
          if x.2.isNamed then
            discard <| Bounded.visit catalog (.of catalog resources) depth ⟨[], []⟩ x.1)
      (resources.forM (writeResource catalog (.of catalog resources)) >>= fun _ =>
        catalog.entries.forM fun x => do
          if x.2.isNamed then
            discard <| visit catalog (.of catalog resources) ⟨[], [], []⟩ x.1)
      { taken := (Naming.of catalog resources).taken } := by
    refine (Agrees.forM (fun r _ w => agrees_writeResource depth r w) _).bind fun _ w₁ _ =>
      .forM (fun x _ w => ?_) w₁
    split
    · exact (hvisit ⟨[], [], []⟩ x.1 w).discard
    · exact .pure _ w
  exact hwalk.result h

end ControllerTypes.TypeDef
