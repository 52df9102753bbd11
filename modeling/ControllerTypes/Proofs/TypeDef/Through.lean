import ControllerTypes.Proofs.TypeDef.Bounded
import ControllerTypes.Proofs.TypeDef.Sound

/-!
# `ControllerTypes.Proofs.TypeDef.Through`: schemas that the walk gets through again

A walk changes its state, and so a schema it met before need not look to it as it did then. What it
got through once, though, it gets through again: the types that were written stay written, and a
type that is being written is one that it does not enter. `Through` says of a schema that the walk
gets through it where types with these names were written or are being written. What a call got
through is `Through` in the state it leaves (`Leads.through`), and what is `Through` does not make
the walk fail in any later state (`Through.passes`).

`ComesTo` follows a definition to where the walk comes with what is in front of it got through.
Where the walk ends on a definition, it ends on all that it comes to, and nearer to the bottom
(`ComesTo.ends`). So if it comes back to the definition, it does not end there
(`ComesTo.not_ends`).
-/

set_option autoImplicit false

namespace ControllerTypes.TypeDef

open Name

variable {catalog : Catalog} {naming : Naming}

/-! ### Steps that do not fail -/

/-- If the step ends, it succeeds, and what was written stays so. -/
def Passes {α : Type} (x : Unguarded.Step α) (w : Walk) : Prop :=
  ∀ r, (x.run w).run = some r → ∃ a w', r = .ok (a, w') ∧ w.done ⊆ w'.done

namespace Passes

variable {α β : Type} {w : Walk}

/-- A step that answers passes. -/
theorem pure (a : α) : Passes (Pure.pure a) w := by
  rintro r ⟨⟩
  exact ⟨a, w, rfl, List.Subset.refl _⟩

/-- A step that does not end passes, since there is no result to ask about. -/
theorem beyond : Passes (Bounded.beyond : Unguarded.Step α) w :=
  fun _ h => nomatch h

/-- Writing a type passes. -/
theorem write (t : TypeDef) : Passes (Unguarded.ending (TypeDef.write t)) w := by
  rintro r ⟨⟩
  exact ⟨_, _, rfl, List.subset_cons_self _ _⟩

/-- Taking a name for an object passes. -/
theorem takeLifted (owner field : String) :
    Passes (Unguarded.ending (TypeDef.takeLifted owner field)) w := by
  rintro r ⟨⟩
  exact ⟨_, _, rfl, List.Subset.refl _⟩

/-- Steps succeed one after the other. -/
theorem bind {x : Unguarded.Step α} {f : α → Unguarded.Step β} (hx : Passes x w)
    (hf : ∀ a w₁, w.done ⊆ w₁.done → Passes (f a) w₁) : Passes (x >>= f) w := by
  intro r h
  -- The first step does not fail, so the second one is run on its answer.
  rcases Bounded.bind_eq_some.1 h with ⟨e, hfirst, _⟩ | ⟨a, w₁, hfirst, hsecond⟩
  · obtain ⟨_, _, hok, _⟩ := hx _ hfirst
    cases hok
  · obtain ⟨_, _, hok, hdone⟩ := hx _ hfirst
    cases hok
    obtain ⟨b, w₂, hr, hmore⟩ := hf a w₁ hdone r hsecond
    exact ⟨b, w₂, hr, List.Subset.trans hdone hmore⟩

end Passes

/-- More was written, and more is being written. -/
theorem append_subset_append {done done' within within' : List String} (hdone : done ⊆ done')
    (hwithin : within ⊆ within') : done ++ within ⊆ done' ++ within' :=
  List.append_subset.2 ⟨fun _ hn => List.mem_append_left _ (hdone hn),
    fun _ hn => List.mem_append_right _ (hwithin hn)⟩

/-- The names are those of types that were written or are being written. -/
def Covers (names within : List String) (w : Walk) : Prop := names ⊆ w.done ++ within

section
variable {names within : List String} {w w' : Walk}

/-- A state in which more is written covers no less. -/
theorem Covers.extend (h : Covers names within w) (hdone : w.done ⊆ w'.done) :
    Covers names within w' :=
  List.Subset.trans h (append_subset_append hdone (List.Subset.refl _))

/-- And so does a place inside of one more type. -/
theorem Covers.enter (h : Covers names within w) (name : String) :
    Covers names (name :: within) w :=
  List.Subset.trans h (append_subset_append (List.Subset.refl _) (List.subset_cons_self _ _))

end

/-! ### Schemas that are got through -/

/-- The walk gets through the schema where the types `names` were written or are being written,
inside of the definitions `aliases`. -/
inductive Through (catalog : Catalog) (naming : Naming) (names : List String) :
    List String → Schema → Prop where
  | primitive {aliases : List String} {primitive : Primitive} :
      Through catalog naming names aliases (.primitive primitive)
  | array {aliases : List String} {items : Schema}
      (hitems : Through catalog naming names aliases items) :
      Through catalog naming names aliases (.array items)
  | map {aliases : List String} {values : Schema}
      (hvalues : Through catalog naming names aliases values) :
      Through catalog naming names aliases (.map values)
  | named {aliases : List String} {target name : String} {schema : Schema}
      (hget : catalog.get? target = some schema) (hnamed : schema.isNamed = true)
      (hname : naming.types.get? target = some name) (hmem : name ∈ names) :
      Through catalog naming names aliases (.reference target)
  | passed {aliases : List String} {target : String} {schema : Schema}
      (hget : catalog.get? target = some schema) (hnamed : schema.isNamed = false)
      (halias : target ∉ aliases)
      (hschema : Through catalog naming names (target :: aliases) schema) :
      Through catalog naming names aliases (.reference target)
  | object {aliases : List String} {fields : List (Field Schema)}
      (hfields : ∀ field ∈ fields, Through catalog naming names [] field.schema) :
      Through catalog naming names aliases (.object fields)
  | enumeration {aliases : List String} {literals : List String} :
      Through catalog naming names aliases (.enumeration literals)

namespace Through

variable {names names' aliases within : List String} {schema : Schema}

/-- More types may have been written. -/
theorem mono (h : Through catalog naming names aliases schema) (hsub : names ⊆ names') :
    Through catalog naming names' aliases schema := by
  induction h with
  | primitive => exact .primitive
  | array _ ih => exact .array ih
  | map _ ih => exact .map ih
  | named hget hnamed hname hmem => exact .named hget hnamed hname (hsub hmem)
  | passed hget hnamed halias _ ih => exact .passed hget hnamed halias ih
  | object _ ih => exact .object ih
  | enumeration => exact .enumeration

/-- The definitions around an object or an enumeration do not matter to it. -/
theorem of_isNamed {aliases' : List String} (h : Through catalog naming names aliases schema)
    (hnamed : schema.isNamed = true) : Through catalog naming names aliases' schema := by
  cases h with
  | object hfields => exact .object hfields
  | enumeration => exact .enumeration
  | primitive | array | map | named | passed => cases hnamed

/-- Fields that are got through one by one are so in a row. -/
theorem passes_structFields {fields : List (Field Schema)}
    (hfields : ∀ f ∈ fields, ∀ depth within owner source field w, Covers names within w →
      Passes (Bounded.fieldType catalog naming depth ⟨within, []⟩ owner source field f.schema) w)
    (depth : Nat) (owner source : String) (identifiers : List String) (w : Walk)
    (hcovers : Covers names within w) :
    Passes (Bounded.structFields catalog naming depth ⟨within, []⟩ owner source identifiers fields)
      w := by
  induction fields generalizing depth identifiers w with
  | nil =>
    cases depth with
    | zero => exact .beyond
    | succ depth => exact .pure _
  | cons f rest ih =>
    obtain ⟨hfirst, hrest⟩ := List.forall_mem_cons.1 hfields
    cases depth with
    | zero => exact .beyond
    | succ depth =>
      rw [Bounded.structFields]
      exact .bind (hfirst _ _ _ _ _ _ hcovers) fun _ w₁ hdone =>
        .bind (ih hrest _ _ _ (hcovers.extend hdone)) fun _ _ _ => .pure _

/-- What is got through is so at any place and in any state that covers the names. -/
theorem passes (h : Through catalog naming names aliases schema) (depth : Nat)
    (within : List String) (owner source field : String) (w : Walk)
    (hcovers : Covers names within w) :
    Passes (Bounded.fieldType catalog naming depth ⟨within, aliases⟩ owner source field schema)
      w := by
  -- The induction is on why the schema is got through. At depth zero nothing ends, and so nothing
  -- fails.
  induction h generalizing depth within owner source field w with
  | primitive =>
    cases depth with
    | zero => exact .beyond
    | succ depth => exact .pure _
  | array _ ih | map _ ih =>
    cases depth with
    | zero => exact .beyond
    | succ depth => exact .bind (ih _ _ _ _ _ _ hcovers) fun _ _ _ => .pure _
  | @named aliases _ _ _ hget hnamed hname hmem =>
    rcases depth with - | - | depth
    · exact .beyond
    · rw [Bounded.fieldType_of_get hget, if_pos hnamed]
      exact .bind .beyond fun _ _ _ => .pure _
    · rw [Bounded.fieldType_of_get hget, if_pos hnamed]
      refine .bind ?_ fun _ _ _ => .pure _
      -- The type was written or is being written, so the visit answers with its name and does
      -- nothing.
      obtain ⟨backward, hvisit⟩ :=
        Bounded.run_visit_of_mem catalog depth ⟨within, aliases⟩ hname (hcovers hmem)
      intro r h
      cases hvisit.symm.trans h
      exact ⟨_, w, rfl, List.Subset.refl _⟩
  | passed hget hnamed halias _ ih =>
    cases depth with
    | zero => exact .beyond
    | succ depth =>
      rw [Bounded.fieldType_of_get hget, if_neg (by simp [hnamed]), if_neg halias]
      exact ih _ _ _ _ _ _ hcovers
  -- The type of an object without a name is written anew, under a name that covers no less.
  | object _ ih =>
    rcases depth with - | - | depth
    · exact .beyond
    · rw [Bounded.fieldType_of_isNamed rfl]
      exact .bind (.takeLifted _ _) fun _ _ _ => .bind .beyond fun _ _ _ => .pure _
    · rw [Bounded.fieldType_of_isNamed rfl]
      refine .bind (.takeLifted _ _) fun lifted w₁ hdone => .bind ?_ fun _ _ _ => .pure _
      exact .bind (passes_structFields ih _ _ _ _ _ ((hcovers.extend hdone).enter lifted))
        fun _ _ _ => .write _
  | enumeration =>
    rcases depth with - | - | depth
    · exact .beyond
    · rw [Bounded.fieldType_of_isNamed rfl]
      exact .bind (.takeLifted _ _) fun _ _ _ => .bind .beyond fun _ _ _ => .pure _
    · rw [Bounded.fieldType_of_isNamed rfl]
      exact .bind (.takeLifted _ _) fun _ _ _ => .bind (.write _) fun _ _ _ => .pure _

end Through

/-- What a call got through is got through again, where what it wrote is written. -/
def Call.Through (catalog : Catalog) (naming : Naming) (p : Place) (w : Walk) : Call → Prop
  | visit _ name _ => name ∈ w.done ++ p.within
  | emit name _ schema =>
    name ∈ w.done ∧
      (p.aliases = [] → TypeDef.Through catalog naming (w.done ++ p.within) [] schema)
  | fields _ _ _ asked _ =>
    ∀ f ∈ asked, TypeDef.Through catalog naming (w.done ++ p.within) p.aliases f.schema
  | type _ _ _ schema _ _ => TypeDef.Through catalog naming (w.done ++ p.within) p.aliases schema

/-- What a call was made for is `Through` afterwards, next to the types that are written or in the
making then. -/
theorem Leads.through {p : Place} {call : Call} {w w' : Walk}
    (h : Leads catalog naming p call w w') : call.Through catalog naming p w' := by
  induction h with
  | within _ hwithin => exact List.mem_append_right _ hwithin
  | done _ _ hdone => exact List.mem_append_left _ hdone
  | enter _ _ _ _ _ ih => exact List.mem_append_left _ ih.1
  | struct _ ih =>
    refine ⟨List.mem_cons_self, fun hopens => .object fun f hf => ?_⟩
    exact (hopens ▸ ih f hf).mono (List.subset_cons_self _ _)
  | enumeration => exact ⟨List.mem_cons_self, fun _ => .enumeration⟩
  | nil => exact List.forall_mem_nil _
  -- What the first field got through stays so, since the later fields only add.
  | cons _ hrest ihtype ihrest =>
    refine List.forall_mem_cons.2 ⟨ihtype.mono ?_, ihrest⟩
    exact append_subset_append hrest.extends.done (List.Subset.refl _)
  | primitive => exact .primitive
  | array _ ih => exact TypeDef.Through.array ih
  | map _ ih => exact TypeDef.Through.map ih
  | named hget hnamed hvisit ih => exact .named hget hnamed hvisit.get?_of_visit ih
  | passed hget hnamed halias _ _ ih => exact .passed hget hnamed halias ih
  -- The lifted type is written by then, and no longer in the making.
  | lifted hnamed _ ih =>
    refine ((ih.2 rfl).mono ?_).of_isNamed hnamed
    refine List.append_subset.2 ⟨List.subset_append_left _ _, List.cons_subset.2 ⟨?_, ?_⟩⟩
    · exact List.mem_append_left _ ih.1
    · exact List.subset_append_right _ _

/-! ### Definitions that the walk comes back to -/

/-- Passing through the definition, the walk comes to the schema inside of the definitions
`aliases`: it gets through all that is in front of it. -/
inductive ComesTo (catalog : Catalog) (naming : Naming) (names : List String) (d : String) :
    List String → Schema → Prop where
  | definition {schema : Schema} (hget : catalog.get? d = some schema)
      (hnamed : schema.isNamed = false) : ComesTo catalog naming names d [d] schema
  | items {aliases : List String} {items : Schema}
      (h : ComesTo catalog naming names d aliases (.array items)) :
      ComesTo catalog naming names d aliases items
  | values {aliases : List String} {values : Schema}
      (h : ComesTo catalog naming names d aliases (.map values)) :
      ComesTo catalog naming names d aliases values
  | passed {aliases : List String} {target : String} {schema : Schema}
      (h : ComesTo catalog naming names d aliases (.reference target))
      (hget : catalog.get? target = some schema) (hnamed : schema.isNamed = false)
      (halias : target ∉ aliases) : ComesTo catalog naming names d (target :: aliases) schema
  | field {aliases : List String} {before after : List (Field Schema)} {f : Field Schema}
      (h : ComesTo catalog naming names d aliases (.object (before ++ f :: after)))
      (hbefore : ∀ b ∈ before, Through catalog naming names [] b.schema) :
      ComesTo catalog naming names d [] f.schema

/-- More types may have been written. -/
theorem ComesTo.mono {names names' aliases : List String} {d : String} {schema : Schema}
    (h : ComesTo catalog naming names d aliases schema) (hsub : names ⊆ names') :
    ComesTo catalog naming names' d aliases schema := by
  induction h with
  | definition hget hnamed => exact .definition hget hnamed
  | items _ ih => exact .items ih
  | values _ ih => exact .values ih
  | passed _ hget hnamed halias ih => exact .passed ih hget hnamed halias
  | field _ hbefore ih => exact .field ih fun b hb => (hbefore b hb).mono hsub

/-- Somewhere the walk ends on the schema within the depth. -/
def Ends (catalog : Catalog) (naming : Naming) (names : List String) (depth : Nat)
    (aliases : List String) (schema : Schema) : Prop :=
  ∃ within owner source field w r, Covers names within w ∧
    ((Bounded.fieldType catalog naming depth ⟨within, aliases⟩ owner source field schema).run
      w).run = some r

namespace Ends

variable {names aliases : List String} {depth : Nat}

/-- A list that the walk ends on has items that it ends on. -/
theorem items {items : Schema} (h : Ends catalog naming names depth aliases (.array items)) :
    ∃ depth' < depth, Ends catalog naming names depth' aliases items := by
  obtain ⟨within, owner, source, field, w, r, hcovers, h⟩ := h
  cases depth with
  | zero => cases h
  | succ depth =>
    obtain ⟨r', hitems⟩ := Bounded.exists_first h
    exact ⟨depth, Nat.lt_succ_self _, within, owner, source, field, w, r', hcovers, hitems⟩

/-- A map that the walk ends on has values that it ends on. -/
theorem values {values : Schema} (h : Ends catalog naming names depth aliases (.map values)) :
    ∃ depth' < depth, Ends catalog naming names depth' aliases values := by
  obtain ⟨within, owner, source, field, w, r, hcovers, h⟩ := h
  cases depth with
  | zero => cases h
  | succ depth =>
    obtain ⟨r', hvalues⟩ := Bounded.exists_first h
    exact ⟨depth, Nat.lt_succ_self _, within, owner, source, field, w, r', hcovers, hvalues⟩

/-- Where the walk ends on a reference that it passes through, it ends on what that leads to. -/
theorem passed {target : String} {schema : Schema}
    (h : Ends catalog naming names depth aliases (.reference target))
    (hget : catalog.get? target = some schema) (hnamed : schema.isNamed = false)
    (halias : target ∉ aliases) :
    ∃ depth' < depth, Ends catalog naming names depth' (target :: aliases) schema := by
  obtain ⟨within, owner, source, field, w, r, hcovers, h⟩ := h
  cases depth with
  | zero => cases h
  | succ depth =>
    rw [Bounded.fieldType_of_get hget, if_neg (by simp [hnamed]), if_neg halias] at h
    exact ⟨depth, Nat.lt_succ_self _, within, owner, source, field, w, r, hcovers, h⟩

/-- Behind fields that are got through the walk comes to the next one. -/
theorem of_structFields {before after : List (Field Schema)} {f : Field Schema}
    (hbefore : ∀ b ∈ before, Through catalog naming names [] b.schema) {within : List String}
    {owner source : String} {identifiers : List String} {w : Walk}
    {r : Except Error (List FieldDefinition × Walk)} (hcovers : Covers names within w)
    (h : ((Bounded.structFields catalog naming depth ⟨within, []⟩ owner source identifiers
      (before ++ f :: after)).run w).run = some r) :
    ∃ depth' < depth, Ends catalog naming names depth' [] f.schema := by
  induction before generalizing depth identifiers w r with
  | nil =>
    cases depth with
    | zero => cases h
    | succ depth =>
      obtain ⟨r', hf⟩ := Bounded.exists_first h
      exact ⟨depth, Nat.lt_succ_self _, within, owner, source, f.name, w, r', hcovers, hf⟩
  | cons b rest ih =>
    obtain ⟨hb, hrest⟩ := List.forall_mem_cons.1 hbefore
    cases depth with
    | zero => cases h
    | succ depth =>
      -- The field in front is got through, so it neither fails nor stops the walk.
      have hpasses := hb.passes depth within owner source b.name w hcovers
      rcases Bounded.bind_eq_some.1 h with ⟨e, hfails, _⟩ | ⟨a, w₁, hends, h⟩
      · obtain ⟨_, _, hok, _⟩ := hpasses _ hfails
        cases hok
      · obtain ⟨_, _, hok, hdone⟩ := hpasses _ hends
        cases hok
        obtain ⟨r', hothers⟩ := Bounded.exists_first h
        obtain ⟨depth', hlt, hf⟩ := ih hrest (hcovers.extend hdone) hothers
        exact ⟨depth', Nat.lt_succ_of_lt hlt, hf⟩

/-- Where the walk ends on an object, it ends on the first field that is not got through before. -/
theorem field {before after : List (Field Schema)} {f : Field Schema}
    (h : Ends catalog naming names depth aliases (.object (before ++ f :: after)))
    (hbefore : ∀ b ∈ before, Through catalog naming names [] b.schema) :
    ∃ depth' < depth, Ends catalog naming names depth' [] f.schema := by
  obtain ⟨within, owner, source, field, w, r, hcovers, h⟩ := h
  -- The object takes two steps before its fields have their turn.
  rcases depth with - | - | depth
  · cases h
  · cases h
  · rw [Bounded.fieldType_of_isNamed rfl] at h
    rcases Bounded.bind_eq_some.1 h with ⟨e, hfails, _⟩ | ⟨lifted, w₁, hends, h⟩
    · cases hfails
    · obtain ⟨_, _, hok, hdone⟩ := Passes.takeLifted owner field _ hends
      cases hok
      obtain ⟨r₁, hemit⟩ := Bounded.exists_first h
      obtain ⟨r₂, hfields⟩ := Bounded.exists_first hemit
      obtain ⟨depth', hlt, hf⟩ :=
        of_structFields hbefore ((hcovers.extend hdone).enter lifted) hfields
      exact ⟨depth', Nat.lt_succ_of_lt (Nat.lt_succ_of_lt hlt), hf⟩

end Ends

/-- Where the walk ends on a definition, it ends on all that it comes to, nearer to the bottom. -/
theorem ComesTo.ends {names aliases : List String} {d : String} {schema : Schema} {depth : Nat}
    (h : ComesTo catalog naming names d aliases schema)
    (hends : Ends catalog naming names depth [] (.reference d)) :
    ∃ depth' < depth, Ends catalog naming names depth' aliases schema := by
  -- Each step of `ComesTo` lowers the depth once more.
  have hstep {depth₁ : Nat} (hlt : depth₁ < depth) {aliases : List String} {schema : Schema}
      (h : ∃ depth₂ < depth₁, Ends catalog naming names depth₂ aliases schema) :
      ∃ depth₂ < depth, Ends catalog naming names depth₂ aliases schema := by
    obtain ⟨depth₂, hlt₂, h⟩ := h
    exact ⟨depth₂, hlt₂.trans hlt, h⟩
  induction h with
  | definition hget hnamed => exact hends.passed hget hnamed List.not_mem_nil
  | items _ ih =>
    obtain ⟨depth₁, hlt, h⟩ := ih
    exact hstep hlt h.items
  | values _ ih =>
    obtain ⟨depth₁, hlt, h⟩ := ih
    exact hstep hlt h.values
  | passed _ hget hnamed halias ih =>
    obtain ⟨depth₁, hlt, h⟩ := ih
    exact hstep hlt (h.passed hget hnamed halias)
  | field _ hbefore ih =>
    obtain ⟨depth₁, hlt, h⟩ := ih
    exact hstep hlt (h.field hbefore)

/-- If the walk comes back to the definition, it does not end there. -/
theorem ComesTo.not_ends {names : List String} {d : String}
    (h : ComesTo catalog naming names d [] (.reference d)) (depth : Nat) :
    ¬ Ends catalog naming names depth [] (.reference d) := by
  -- The walk would end on the definition at a smaller depth again, and so on for ever.
  induction depth using Nat.strong_induction_on with
  | _ depth ih =>
    intro hends
    obtain ⟨depth', hlt, hends'⟩ := h.ends hends
    exact ih depth' hlt hends'

end ControllerTypes.TypeDef
