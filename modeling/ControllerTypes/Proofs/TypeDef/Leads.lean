import ControllerTypes.Proofs.Run
import ControllerTypes.TypeDef.Extract

/-!
# `ControllerTypes.Proofs.TypeDef.Leads`: the walk over types as a relation

`visit`, `emit`, `structFields` and `fieldType` call each other and carry the state of the walk
along, so each property of the walk would have to take all four of them apart again. `Leads` does it
once. `Leads catalog naming p call w w'` says that the call `call`, made at the place `p` in the
state `w`, succeeds in the state `w'`; what the call answered is part of the `Call`. There is one
rule for each way in which a call can succeed, and `leads_of_run` shows that there is no other way.
A property of the walk is then an induction over the rules.

The walk as a whole makes one call for each `Root`, which is a definition or the state of a
resource. `leadsAll_of_extract` says that a successful `extract` is the chain of these calls.
-/

set_option autoImplicit false

namespace ControllerTypes.TypeDef

open Name Run

/-- A call of the walk, with its arguments first and what it answered behind them. -/
inductive Call where
  /-- The definition is generated under the name; the flag tells if it is still being written. -/
  | visit (definition : String) (name : String) (backward : Bool)
  | emit (name source : String) (schema : Schema)
  | fields (owner source : String) (identifiers : List String) (fields : List (Field Schema))
      (definitions : List FieldDefinition)
  | type (owner source field : String) (schema : Schema) (type : FieldType) (indirect : Bool)

/-- The references of a field, each with the flag that makes it a pointer. -/
def fieldReferences (f : FieldDefinition) : List (String × Bool) :=
  f.type.referenced?.toList.map fun n => (n, f.indirect)

/-- `fieldReferences` lists what the field `f` refers to, with its flag. -/
theorem mem_fieldReferences {f : FieldDefinition} {n : String} {indirect : Bool} :
    (n, indirect) ∈ fieldReferences f ↔ f.type.referenced? = some n ∧ f.indirect = indirect := by
  simp only [fieldReferences, List.mem_map, Option.mem_toList, Prod.mk.injEq]
  constructor
  · rintro ⟨m, hm, rfl, hindirect⟩
    exact ⟨hm, hindirect⟩
  · rintro ⟨hm, hindirect⟩
    exact ⟨n, hm, rfl, hindirect⟩

/-- The references in the answer of a call. -/
def Call.references : Call → List (String × Bool)
  | visit _ name backward => [(name, backward)]
  | emit name _ _ => [(name, false)]
  | fields _ _ _ _ definitions => definitions.flatMap fieldReferences
  | type _ _ _ _ answer indirect => answer.referenced?.toList.map fun n => (n, indirect)

/-- The state with one more type written. -/
def Walk.add (w : Walk) (t : TypeDef) : Walk :=
  { w with done := t.name :: w.done, written := w.written ++ [t] }

/-- The type that is added is done from then on. -/
@[simp] theorem Walk.done_add (w : Walk) (t : TypeDef) : (w.add t).done = t.name :: w.done := rfl

/-- The type that is added stands last. -/
@[simp] theorem Walk.written_add (w : Walk) (t : TypeDef) :
    (w.add t).written = w.written ++ [t] := rfl

/-- What holds of all types after one more is written held before, and holds of that one. -/
theorem Walk.forall_written_add {P : TypeDef → Prop} {w : Walk} {t : TypeDef} :
    (∀ u ∈ (w.add t).written, P u) ↔ (∀ u ∈ w.written, P u) ∧ P t := by
  rw [written_add, List.forall_mem_append, List.forall_mem_singleton]

/-- The name for a type found in a field of its owner, and the taken names with it. -/
def liftedName (w : Walk) (owner field : String) : String × List String :=
  takeName (owner ++ pascalCase field) w.taken .types

/-- The ways in which a call of the walk succeeds. -/
inductive Leads (catalog : Catalog) (naming : Naming) : Place → Call → Walk → Walk → Prop where
  | within {p : Place} {d name : String} {w : Walk} (hname : naming.types.get? d = some name)
      (hwithin : name ∈ p.within) : Leads catalog naming p (.visit d name true) w w
  | done {p : Place} {d name : String} {w : Walk} (hname : naming.types.get? d = some name)
      (hwithin : name ∉ p.within) (hdone : name ∈ w.done) :
      Leads catalog naming p (.visit d name false) w w
  | enter {p : Place} {d name : String} {schema : Schema} {w w' : Walk}
      (hname : naming.types.get? d = some name) (hwithin : name ∉ p.within)
      (hdone : name ∉ w.done) (htarget : catalog.target? d = some schema)
      (hemit : Leads catalog naming (p.enter name) (.emit name d schema) w w') :
      Leads catalog naming p (.visit d name false) w w'
  | struct {p : Place} {name source : String} {fields : List (Field Schema)}
      {definitions : List FieldDefinition} {w w' : Walk}
      (hfields : Leads catalog naming p (.fields name source [] fields definitions) w w') :
      Leads catalog naming p (.emit name source (.object fields)) w
        (w'.add ⟨name, source, .struct definitions⟩)
  | enumeration {p : Place} {name source : String} {literals : List String} {w : Walk} :
      Leads catalog naming p (.emit name source (.enumeration literals)) w
        (w.add ⟨name, source, .enumeration (enumValues literals)⟩)
  | nil {p : Place} {owner source : String} {identifiers : List String} {w : Walk} :
      Leads catalog naming p (.fields owner source identifiers [] []) w w
  | cons {p : Place} {owner source : String} {identifiers : List String} {field : Field Schema}
      {rest : List (Field Schema)} {type : FieldType} {indirect : Bool}
      {others : List FieldDefinition} {w w₁ w' : Walk}
      (htype : Leads catalog naming p (.type owner source field.name field.schema type indirect)
        w w₁)
      (hrest : Leads catalog naming p
        (.fields owner source (takeName (goIdentifier field.name "Field") identifiers .nothing).2
          rest others) w₁ w') :
      Leads catalog naming p
        (.fields owner source identifiers (field :: rest)
          (⟨(takeName (goIdentifier field.name "Field") identifiers .nothing).1, field.name, type,
            field.required, indirect⟩ :: others)) w w'
  | primitive {p : Place} {owner source field : String} {primitive : Primitive} {w : Walk} :
      Leads catalog naming p
        (.type owner source field (.primitive primitive) (.ofPrimitive primitive) false) w w
  | array {p : Place} {owner source field : String} {items : Schema} {element : FieldType}
      {indirect : Bool} {w w' : Walk}
      (helement : Leads catalog naming p (.type owner source field items element indirect) w w') :
      Leads catalog naming p (.type owner source field (.array items) (.list element) indirect)
        w w'
  | map {p : Place} {owner source field : String} {values : Schema} {element : FieldType}
      {indirect : Bool} {w w' : Walk}
      (helement : Leads catalog naming p (.type owner source field values element indirect) w w') :
      Leads catalog naming p (.type owner source field (.map values) (.map element) indirect) w w'
  | named {p : Place} {owner source field target name : String} {schema : Schema}
      {backward : Bool} {w w' : Walk} (hget : catalog.get? target = some schema)
      (hnamed : schema.isNamed = true)
      (hvisit : Leads catalog naming p (.visit target name backward) w w') :
      Leads catalog naming p
        (.type owner source field (.reference target) (.reference name) backward) w w'
  | passed {p : Place} {owner source field target : String} {schema : Schema} {type : FieldType}
      {indirect : Bool} {w w' : Walk} (hget : catalog.get? target = some schema)
      (hnamed : schema.isNamed = false) (halias : target ∉ p.aliases)
      (hopener : ¬ (p.aliases = [] ∧ target ∈ p.openers))
      (htype : Leads catalog naming (p.pass target) (.type owner source field schema type indirect)
        w w') :
      Leads catalog naming p (.type owner source field (.reference target) type indirect) w w'
  | lifted {p : Place} {owner source field : String} {schema : Schema} {w w' : Walk}
      (hnamed : schema.isNamed = true)
      (hemit : Leads catalog naming (p.lift (liftedName w owner field).1)
        (.emit (liftedName w owner field).1 (source ++ "." ++ field) schema)
        { w with taken := (liftedName w owner field).2 } w') :
      Leads catalog naming p
        (.type owner source field schema (.reference (liftedName w owner field).1) false) w w'

/-- A visit answers the name of its definition. -/
theorem Leads.get?_of_visit {catalog : Catalog} {naming : Naming} {p : Place} {d name : String}
    {backward : Bool} {w w' : Walk} (h : Leads catalog naming p (.visit d name backward) w w') :
    naming.types.get? d = some name := by
  cases h with
  | within hname => exact hname
  | done hname => exact hname
  | enter hname => exact hname

/-! ### The functions follow the rules -/

section
variable {catalog : Catalog} {naming : Naming} {p : Place}

/-- A visit of a definition with a name. -/
theorem visit_of_name {d name : String} (hname : naming.types.get? d = some name) :
    visit catalog naming p d =
      if name ∈ p.within then return (name, true)
      else do
        if name ∈ (← get).done then return (name, false)
        else
          match catalog.target? d with
          | none => throw (.unresolved d)
          | some schema =>
            emit catalog naming (p.enter name) name d schema
            return (name, false) := by
  rw [visit]
  split
  · next hnone => exact absurd (hname.symm.trans hnone) (by simp)
  · next n hn =>
    obtain rfl : name = n := Option.some.inj (hname.symm.trans hn)
    rfl

/-- A visit to a definition without a name fails. -/
theorem visit_of_none {d : String} (hname : naming.types.get? d = none) :
    visit catalog naming p d = throw (.unresolved d) := by
  rw [visit]
  split
  · rfl
  · next hsome => exact absurd (hname.symm.trans hsome) (by simp)

/-- The type of a reference to a definition that is there. -/
theorem fieldType_of_get {owner source field target : String} {schema : Schema}
    (hget : catalog.get? target = some schema) :
    fieldType catalog naming p owner source field (.reference target) =
      if schema.isNamed then do
        let (name, backward) ← visit catalog naming p target
        return (.reference name, backward)
      else if target ∈ p.aliases then throw (.typeShape owner field (.recursiveAlias target))
      else if p.aliases = [] ∧ target ∈ p.openers then
        throw (.typeShape owner field (.endlessAlias target))
      else fieldType catalog naming (p.pass target) owner source field schema := by
  rw [fieldType]
  split
  · next hnone => exact absurd (hget.symm.trans hnone) (by simp)
  · next schema' hget' =>
    obtain rfl : schema = schema' := Option.some.inj (hget.symm.trans hget')
    rfl

/-- So does a reference to no definition. -/
theorem fieldType_of_none {owner source field target : String} (hget : catalog.get? target = none) :
    fieldType catalog naming p owner source field (.reference target)
      = throw (.unresolved target) := by
  rw [fieldType]
  split
  · rfl
  · next hsome => exact absurd (hget.symm.trans hsome) (by simp)

/-- An object or an enumeration in a field is written under a name of its own. -/
theorem fieldType_of_isNamed {owner source field : String} {schema : Schema}
    (hnamed : schema.isNamed = true) :
    fieldType catalog naming p owner source field schema = do
      let lifted ← takeLifted owner field
      emit catalog naming (p.lift lifted) lifted (source ++ "." ++ field) schema
      return (.reference lifted, false) := by
  cases schema with
  | object | enumeration =>
    rw [fieldType]
    all_goals
      intro _ heq
      cases heq
  | primitive | array | map | unsupported | reference => cases hnamed

/-- What has none of the other forms is an object or an enumeration. -/
theorem isNamed_of_other {schema : Schema} (hprimitive : ∀ q, schema = .primitive q → False)
    (harray : ∀ items, schema = .array items → False)
    (hmap : ∀ values, schema = .map values → False)
    (hunsupported : ∀ detail, schema = .unsupported detail → False)
    (hreference : ∀ target, schema = .reference target → False) : schema.isNamed = true := by
  cases schema with
  | object | enumeration => rfl
  | primitive q => exact (hprimitive q rfl).elim
  | array items => exact (harray items rfl).elim
  | map values => exact (hmap values rfl).elim
  | unsupported detail => exact (hunsupported detail rfl).elim
  | reference target => exact (hreference target rfl).elim

end

variable (catalog : Catalog) (naming : Naming)

/-- Every call that succeeds does so by one of the rules. -/
theorem leads_of_run :
    (∀ p d w name backward w',
      (visit catalog naming p d).run w = .ok ((name, backward), w') →
      Leads catalog naming p (.visit d name backward) w w') ∧
    (∀ p name source schema w w',
      (emit catalog naming p name source schema).run w = .ok ((), w') →
      Leads catalog naming p (.emit name source schema) w w') ∧
    (∀ p owner source identifiers fields w definitions w',
      (structFields catalog naming p owner source identifiers fields).run w
        = .ok (definitions, w') →
      Leads catalog naming p (.fields owner source identifiers fields definitions) w w') ∧
    (∀ p owner source field schema w type indirect w',
      (fieldType catalog naming p owner source field schema).run w
        = .ok ((type, indirect), w') →
      Leads catalog naming p (.type owner source field schema type indirect) w w') := by
  apply visit.mutual_induct catalog naming
  -- `visit`: no name, a name that is being written, and a name that is not.
  · intro p d hname w name backward w' h
    rw [visit] at h
    split at h
    · cases h
    · next hsome => exact absurd (hname.symm.trans hsome) (by simp)
  · intro p d name hname hwithin w name' backward w' h
    rw [visit_of_name hname, if_pos hwithin] at h
    cases h
    exact .within hname hwithin
  · intro p d name hname hwithin ih w name' backward w' h
    rw [visit_of_name hname, if_neg hwithin, run_bind_eq_ok] at h
    obtain ⟨w₁, w₂, hget, h⟩ := h
    cases hget
    split at h
    · next hdone =>
      cases h
      exact .done hname hwithin hdone
    · next hdone =>
      split at h
      · cases h
      · next schema htarget =>
        rw [run_bind_eq_ok] at h
        obtain ⟨⟨⟩, w₁, hemit, h⟩ := h
        cases h
        exact .enter hname hwithin hdone htarget (ih schema w w' hemit)
  -- `emit`: an object, an enumeration, and what is neither.
  · intro p name source fields ih w w' h
    rw [emit, run_bind_eq_ok] at h
    obtain ⟨definitions, w₁, hfields, h⟩ := h
    cases h
    exact .struct (ih w definitions w₁ hfields)
  · intro p name source literals w w' h
    rw [emit] at h
    cases h
    exact .enumeration
  · intro p name source other hobject henumeration w w' h
    rw [emit] at h
    · cases h
    · exact hobject
    · exact henumeration
  -- `structFields`
  · intro p owner source identifiers w definitions w' h
    rw [structFields] at h
    cases h
    exact .nil
  · intro p owner source identifiers field rest ihtype ihrest w definitions w' h
    rw [structFields, run_bind_eq_ok] at h
    obtain ⟨⟨type, indirect⟩, w₁, htype, h⟩ := h
    simp only [run_bind_eq_ok] at h
    obtain ⟨others, w₂, hrest, h⟩ := h
    cases h
    exact .cons (ihtype w type indirect w₁ htype) (ihrest _ w₁ others w' hrest)
  -- `fieldType`: the scalars, lists and maps, and what has no counterpart.
  · intro p owner source field primitive w type indirect w' h
    rw [fieldType] at h
    cases h
    exact .primitive
  · intro p owner source field items ih w type indirect w' h
    rw [fieldType, run_bind_eq_ok] at h
    obtain ⟨⟨element, indirect'⟩, w₁, helement, h⟩ := h
    cases h
    exact .array (ih w element indirect w' helement)
  · intro p owner source field values ih w type indirect w' h
    rw [fieldType, run_bind_eq_ok] at h
    obtain ⟨⟨element, indirect'⟩, w₁, helement, h⟩ := h
    cases h
    exact .map (ih w element indirect w' helement)
  · intro p owner source field detail w type indirect w' h
    rw [fieldType] at h
    cases h
  -- `fieldType` of a reference: to nothing, to a type, and to any other definition.
  · intro p owner source field target hget w type indirect w' h
    rw [fieldType] at h
    split at h
    · cases h
    · next hsome => exact absurd (hget.symm.trans hsome) (by simp)
  · intro p owner source field target schema hget hnamed ih w type indirect w' h
    rw [fieldType_of_get hget, if_pos hnamed, run_bind_eq_ok] at h
    obtain ⟨⟨name, backward⟩, w₁, hvisit, h⟩ := h
    cases h
    exact .named hget hnamed (ih w name indirect w' hvisit)
  · intro p owner source field target schema hget hnamed halias w type indirect w' h
    rw [fieldType_of_get hget, if_neg hnamed, if_pos halias] at h
    cases h
  · intro p owner source field target schema hget hnamed halias hopener w type indirect w' h
    rw [fieldType_of_get hget, if_neg hnamed, if_neg halias, if_pos hopener] at h
    cases h
  · intro p owner source field target schema hget hnamed halias hopener ih w type indirect w' h
    rw [fieldType_of_get hget, if_neg hnamed, if_neg halias, if_neg hopener] at h
    exact .passed hget (by simpa using hnamed) halias hopener (ih w type indirect w' h)
  -- `fieldType` of an object or an enumeration without a name.
  · intro p owner source field schema hprimitive harray hmap hunsupported hreference ih w type
      indirect w' h
    rw [fieldType, run_bind_eq_ok] at h
    · obtain ⟨lifted, w₁, hlifted, h⟩ := h
      cases hlifted
      rw [run_bind_eq_ok] at h
      obtain ⟨⟨⟩, w₂, hemit, h⟩ := h
      cases h
      have hnamed := isNamed_of_other hprimitive harray hmap hunsupported hreference
      exact .lifted hnamed (ih _ _ w' hemit)
    all_goals assumption

/-! ### The walk from its roots -/

/-- Where the walk starts anew. -/
inductive Root where
  | definition (d : String)
  /-- The state of a resource that no definition is generated for. -/
  | status (r : Resource)

/-- A root leads from one state to another. -/
def Root.Leads : Root → Walk → Walk → Prop
  | definition d, w, w' =>
    ∃ name, TypeDef.Leads catalog naming ⟨[], [], []⟩ (.visit d name false) w w'
  | status r, w, w' =>
    TypeDef.Leads catalog naming ⟨[r.statusType], [], []⟩
      (.emit r.statusType (r.schemaName ++ ".status") r.status) w w'

/-- Roots lead from one state to another, one after the other. -/
inductive LeadsAll : List Root → Walk → Walk → Prop where
  | nil {w : Walk} : LeadsAll [] w w
  | cons {root : Root} {rest : List Root} {w w₁ w' : Walk}
      (hroot : root.Leads catalog naming w w₁) (hrest : LeadsAll rest w₁ w') :
      LeadsAll (root :: rest) w w'

variable {catalog naming}

/-- Roots in two rows do what the first row does and then the second. -/
theorem LeadsAll.append {roots more : List Root} {w w₁ w' : Walk}
    (h : LeadsAll catalog naming roots w w₁) (hmore : LeadsAll catalog naming more w₁ w') :
    LeadsAll catalog naming (roots ++ more) w w' := by
  induction h with
  | nil => exact hmore
  | cons hroot _ ih => exact .cons hroot (ih hmore)

/-- Roots lead to a state between any two of them. -/
theorem LeadsAll.of_append {roots more : List Root} {w w' : Walk}
    (h : LeadsAll catalog naming (roots ++ more) w w') :
    ∃ w₁, LeadsAll catalog naming roots w w₁ ∧ LeadsAll catalog naming more w₁ w' := by
  induction roots generalizing w with
  | nil => exact ⟨w, .nil, h⟩
  | cons root rest ih =>
    cases h with
    | cons hroot hrest =>
      obtain ⟨w₁, hfirst, hmore⟩ := ih hrest
      exact ⟨w₁, .cons hroot hfirst, hmore⟩

/-- The root for the state of a resource: the definition that has its name, if there is one. -/
def statusRoot (naming : Naming) (r : Resource) : Root :=
  match r.statusSchemaName with
  | some d => if naming.types.get? d = some r.statusType then .definition d else .status r
  | none => .status r

/-- The roots of the walk, in order. -/
def roots (catalog : Catalog) (naming : Naming) (resources : List Resource) : List Root :=
  resources.flatMap (fun r => [.definition r.schemaName, statusRoot naming r])
    ++ (catalog.entries.filter fun x => x.2.isNamed).map fun x => .definition x.1

/-- The state of a resource has a root of its own, unless a definition goes by its name. -/
theorem statusRoot_cases (naming : Naming) (r : Resource) :
    statusRoot naming r = .status r ∨
      ∃ d, r.statusSchemaName = some d ∧ naming.types.get? d = some r.statusType ∧
        statusRoot naming r = .definition d := by
  unfold statusRoot
  split
  · next d hstatus =>
    split
    · next hgiven => exact .inr ⟨d, hstatus, hgiven, rfl⟩
    · exact .inl rfl
  · exact .inl rfl

/-- The state of every resource is a root. -/
theorem statusRoot_mem_roots (catalog : Catalog) (naming : Naming) {resources : List Resource}
    {r : Resource} (hr : r ∈ resources) :
    statusRoot naming r ∈ roots catalog naming resources :=
  List.mem_append_left _ (List.mem_flatMap.2 ⟨r, hr, List.mem_cons_of_mem _ List.mem_cons_self⟩)

/-- A root that is a state is the state of a resource. -/
theorem mem_of_status_mem_roots {resources : List Resource} {r : Resource}
    (h : .status r ∈ roots catalog naming resources) : r ∈ resources := by
  rcases List.mem_append.1 h with h | h
  · obtain ⟨s, hs, hroot⟩ := List.mem_flatMap.1 h
    rcases List.mem_cons.1 hroot with hroot | hroot
    · cases hroot
    · have hroot := List.mem_singleton.1 hroot
      rcases statusRoot_cases naming s with heq | ⟨_, _, _, heq⟩
      · cases hroot.trans heq
        exact hs
      · cases hroot.trans heq
  · obtain ⟨_, _, hroot⟩ := List.mem_map.1 h
    cases hroot

/-- A visit from outside of all types never meets one that is being written. -/
theorem leads_of_run_visit {d : String} {w w' : Walk}
    (h : (discard <| visit catalog naming ⟨[], [], []⟩ d).run w = .ok ((), w')) :
    (Root.definition d).Leads catalog naming w w' := by
  obtain ⟨⟨name, backward⟩, hvisit⟩ := run_discard_eq_ok.1 h
  have hleads := (leads_of_run catalog naming).1 _ _ _ _ _ _ hvisit
  cases backward with
  | false => exact ⟨name, hleads⟩
  | true =>
    cases hleads with
    | within _ hwithin => cases hwithin

/-- A resource is written by the two roots it has. -/
theorem leadsAll_of_writeResource {r : Resource} {w w' : Walk}
    (h : (writeResource catalog naming r).run w = .ok ((), w')) :
    LeadsAll catalog naming [.definition r.schemaName, statusRoot naming r] w w' := by
  rw [writeResource, run_bind_eq_ok] at h
  obtain ⟨⟨⟩, w₁, hspec, h⟩ := h
  refine .cons (leads_of_run_visit hspec) (.cons ?_ .nil)
  have hstatus (hrun : (writeResource.writeStatus catalog naming r).run w₁ = .ok ((), w')) :
      (Root.status r).Leads catalog naming w₁ w' :=
    (leads_of_run catalog naming).2.1 _ _ _ _ _ _ hrun
  cases hname : r.statusSchemaName with
  | none =>
    simp only [hname] at h
    simpa only [statusRoot, hname] using hstatus h
  | some d =>
    simp only [hname] at h
    by_cases hgiven : naming.types.get? d = some r.statusType
    · rw [if_pos hgiven] at h
      simpa only [statusRoot, hname, if_pos hgiven] using leads_of_run_visit h
    · rw [if_neg hgiven] at h
      simpa only [statusRoot, hname, if_neg hgiven] using hstatus h

/-- All resources are written by the roots they have. -/
theorem leadsAll_of_resources {resources : List Resource} {w w' : Walk}
    (h : (resources.forM (writeResource catalog naming)).run w = .ok ((), w')) :
    LeadsAll catalog naming
      (resources.flatMap fun r => [.definition r.schemaName, statusRoot naming r]) w w' := by
  induction resources generalizing w with
  | nil =>
    cases h
    exact .nil
  | cons r rest ih =>
    obtain ⟨w₁, hfirst, hrest⟩ := run_forM_cons.1 h
    rw [List.flatMap_cons]
    exact (leadsAll_of_writeResource hfirst).append (ih hrest)

/-- The definitions that are types are visited in order. -/
theorem leadsAll_of_definitions {entries : List (String × Schema)} {w w' : Walk}
    (h : (entries.forM fun (d, schema) => do
      if schema.isNamed then discard <| visit catalog naming ⟨[], [], []⟩ d).run w
        = .ok ((), w')) :
    LeadsAll catalog naming
      ((entries.filter fun x => x.2.isNamed).map fun x => .definition x.1) w w' := by
  induction entries generalizing w with
  | nil =>
    cases h
    exact .nil
  | cons x rest ih =>
    obtain ⟨d, schema⟩ := x
    obtain ⟨w₁, hfirst, hrest⟩ := run_forM_cons.1 h
    by_cases hnamed : schema.isNamed = true
    · simp only [if_pos hnamed] at hfirst
      rw [List.filter_cons, if_pos hnamed]
      exact .cons (leads_of_run_visit hfirst) (ih hrest)
    · simp only [if_neg hnamed] at hfirst
      cases hfirst
      rw [List.filter_cons, if_neg hnamed]
      exact ih hrest

/-- The types are what the roots lead to. -/
theorem leadsAll_of_extract {resources : List Resource} {types : List TypeDef}
    (h : extract catalog resources = .ok types) :
    ∃ w, LeadsAll catalog (.of catalog resources)
      (roots catalog (.of catalog resources) resources)
      { taken := (Naming.of catalog resources).taken } w ∧ w.written = types := by
  rw [extract, bind_eq_ok] at h
  obtain ⟨⟨⟨⟩, w⟩, hwalk, h⟩ := h
  cases h
  obtain ⟨⟨⟩, w₁, hresources, hdefinitions⟩ := run_bind_eq_ok.1 hwalk
  exact ⟨w, (leadsAll_of_resources hresources).append (leadsAll_of_definitions hdefinitions), rfl⟩

end ControllerTypes.TypeDef
