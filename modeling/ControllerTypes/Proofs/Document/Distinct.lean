import ControllerTypes.Document.Load
import ControllerTypes.Document.Form
import ControllerTypes.Proofs.Lists
import ControllerTypes.Proofs.Named
import ControllerTypes.Proofs.Run

/-!
# `ControllerTypes.Proofs.Document.Distinct`: no schema lists a property twice

JSON and YAML allow a name to stand twice in an object, and a map that is decoded keeps one value for
it (`mapOf`). So in a schema that was decoded no two properties have one name, and since schemas are
found inside of schemas the same holds at every depth (`SchemaObject.Distinct`).

An object is decoded slot by slot, in the order of the document. `record_keeps` says that what every
slot keeps is kept by the whole, whichever members there are and whichever form the object is written
in. For schemas the induction is on the size of the value that is read (`decodeSchema_distinct`), and
`load_distinct` hands the result on to the definitions of a description.
-/

set_option autoImplicit false

namespace ControllerTypes.Document

open Run

/-! ### Objects, slot by slot -/

section
variable {json : Json} {ρ α : Type} {P : ρ → Prop}

/-- Reading a member into what was read so far keeps the property. -/
def Slot.Keeps (P : ρ → Prop) (s : Slot json ρ) : Prop :=
  ∀ v h r r', s.read v h r = .ok r' → P r → P r'

/-- A member that is read on its own `Keeps` what putting its values in keeps. -/
theorem slot_keeps {name : String} {read : Json → Except Fault α} {put : ρ → α → ρ}
    (h : ∀ v a r, read v = .ok a → P r → P (put r a)) :
    (slot name read put : Slot json ρ).Keeps P := by
  intro v _ r r' hread hr
  obtain ⟨a, ha, rfl⟩ := map_eq_ok.1 hread
  exact h v a r ha hr

/-- What all `slots` keep is kept by an object that is read. -/
theorem readMembers_keeps {members : List (String × Json)} {empty r : ρ}
    {slots : List (Slot (.object members) ρ)} (h : readMembers members empty slots = .ok r)
    (hslots : ∀ s ∈ slots, s.Keeps P) (hempty : P empty) : P r := by
  refine of_foldlM_eq_ok h ?_ hempty
  rintro b ⟨m, hm⟩ _ b' hround hb
  dsimp only at hround
  -- A member that has no slot changes nothing.
  split at hround
  · next s hfind => exact hslots s (List.mem_of_find?_eq_some hfind) _ _ _ _ hround hb
  · cases hround
    exact hb

/-- What all `slots` keep is kept by a list of members that is read. -/
theorem readItems_keeps {items : List Json} {empty r : ρ} {slots : List (Slot (.array items) ρ)}
    (h : readItems items empty slots = .ok r) (hslots : ∀ s ∈ slots, s.Keeps P)
    (hempty : P empty) : P r := by
  rw [readItems] at h
  split at h
  · obtain ⟨_, _, h⟩ := bind_eq_ok.1 h
    cases h
  · refine of_foldlM_eq_ok h ?_ hempty
    rintro b ⟨⟨v, hv⟩, s⟩ hmem b' hround hb
    exact hslots s (List.of_mem_zip hmem).2 _ _ _ _ hround hb

/-- What all `slots` keep is kept by an object in either form, whichever `json` it is read from. -/
theorem record_keeps {name : String} {empty r : ρ} {slots : List (Slot json ρ)}
    (h : record name json empty slots = .ok r) (hslots : ∀ s ∈ slots, s.Keeps P)
    (hempty : P empty) : P r := by
  cases json with
  | object members => exact readMembers_keeps h hslots hempty
  | array items => exact readItems_keeps h hslots hempty
  | null | bool | number | string => cases h

end

/-! ### Maps and lists -/

section
variable {α : Type} {json : Json} {read : (v : Json) → sizeOf v < sizeOf json → Except Fault α}

/-- The members that `mapOf` reads have distinct names. -/
theorem nodup_names_of_mapOf {members : List (String × α)} (h : mapOf json read = .ok members) :
    (Named.names members).Nodup := by
  cases json with
  | object all =>
    obtain ⟨ms, _, h⟩ := bind_eq_ok.1 h
    cases h
    exact Named.nodup_names_ofList ms
  | null | bool | number | string | array => cases h

/-- Each member that `mapOf` reads was read from a smaller value. -/
theorem exists_of_mem_mapOf {members : List (String × α)} (h : mapOf json read = .ok members)
    {x : String × α} (hx : x ∈ members) : ∃ v hv, read v hv = .ok x.2 := by
  cases json with
  | object all =>
    obtain ⟨ms, hms, h⟩ := bind_eq_ok.1 h
    cases h
    -- The value that stays under a name is one of those that were read for it.
    obtain ⟨⟨m, hm⟩, _, hread⟩ :=
      forall₂_exists_left (mapM_eq_ok_iff.1 hms) (Named.mem_of_mem_ofList hx)
    obtain ⟨a, ha, rfl⟩ := map_eq_ok.1 hread
    exact ⟨_, _, ha⟩
  | null | bool | number | string | array => cases h

/-- Each item that `listOf` reads was read from a smaller value. -/
theorem exists_of_mem_listOf {items : List α} (h : listOf json read = .ok items) {a : α}
    (ha : a ∈ items) : ∃ v hv, read v hv = .ok a := by
  cases json with
  | array all =>
    obtain ⟨⟨v, hv⟩, _, hread⟩ := forall₂_exists_left (mapM_eq_ok_iff.1 h) ha
    exact ⟨_, _, hread⟩
  | null | bool | number | string | object => cases h

end

/-! ### Schemas -/

namespace SchemaObject

/-- The schema lists no property twice, and neither does any schema inside of it. -/
inductive Distinct : SchemaObject → Prop where
  | intro {s : SchemaObject} (names : (Named.names s.properties).Nodup)
      (properties : ∀ x ∈ s.properties, Distinct x.2)
      (items : ∀ i, s.items = some i → Distinct i)
      (values : ∀ v, s.additionalProperties = some (.schema v) → Distinct v)
      (allOf : ∀ m ∈ s.allOf, Distinct m) (oneOf : ∀ m ∈ s.oneOf, Distinct m)
      (anyOf : ∀ m ∈ s.anyOf, Distinct m) : Distinct s

/-- A schema that says nothing lists no property. -/
theorem Distinct.empty : Distinct {} :=
  ⟨List.nodup_nil, fun _ h => (List.not_mem_nil h).elim, nofun, nofun,
    fun _ h => (List.not_mem_nil h).elim, fun _ h => (List.not_mem_nil h).elim,
    fun _ h => (List.not_mem_nil h).elim⟩

/-- The members of a schema that hold other schemas. -/
def holders (s : SchemaObject) :=
  (s.properties, s.items, s.additionalProperties, s.allOf, s.oneOf, s.anyOf)

/-- No member of a schema matters but its `holders`. -/
theorem Distinct.congr {s s' : SchemaObject} (h : s.Distinct) (heq : s'.holders = s.holders) :
    s'.Distinct := by
  obtain ⟨names, properties, items, values, allOf, oneOf, anyOf⟩ := h
  simp only [holders, Prod.mk.injEq] at heq
  obtain ⟨hproperties, hitems, hvalues, hallOf, honeOf, hanyOf⟩ := heq
  rw [← hproperties] at names properties
  rw [← hitems] at items
  rw [← hvalues] at values
  rw [← hallOf] at allOf
  rw [← honeOf] at oneOf
  rw [← hanyOf] at anyOf
  exact ⟨names, properties, items, values, allOf, oneOf, anyOf⟩

end SchemaObject

/-- No part of the form lists a property twice. -/
def SchemaForm.Distinct : SchemaForm → Prop
  | decorated only => only.Distinct
  | all members | variants members => ∀ m ∈ members, m.Distinct
  | map values => values.Distinct
  | object properties => (Named.names properties).Nodup ∧ ∀ x ∈ properties, x.2.Distinct
  | array items => items.Distinct
  | reference _ | enumeration _ | freeMap | scalar => True

namespace SchemaObject

/-- A schema that is taken for an object or a map has a form with parts of the schema. -/
theorem Distinct.objectForm {s : SchemaObject} (h : s.Distinct) : s.objectForm.Distinct := by
  obtain ⟨names, properties, _, values, _, _, _⟩ := h
  unfold SchemaObject.objectForm
  split
  · next hvalues => exact values _ hvalues
  · trivial
  · exact ⟨names, properties⟩

/-- So has a schema without any composition. -/
theorem Distinct.plainForm {s : SchemaObject} (h : s.Distinct) : s.plainForm.Distinct := by
  have hobject := h.objectForm
  obtain ⟨_, _, items, _, _, _, _⟩ := h
  unfold SchemaObject.plainForm
  split
  · trivial
  · exact hobject
  · split
    · next hitems => exact items _ hitems
    · trivial
  · trivial
  · split
    · trivial
    · exact hobject

/-- The properties of a schema are schemas inside of it. -/
theorem Distinct.properties {s : SchemaObject} (h : s.Distinct) :
    ∀ x ∈ s.properties, x.2.Distinct := by
  obtain ⟨_, properties, _, _, _, _, _⟩ := h
  exact properties

/-- What a schema is taken for, its `form`, has parts of the schema. -/
theorem Distinct.form {s : SchemaObject} (h : s.Distinct) : s.form.Distinct := by
  have hplain := h.plainForm
  obtain ⟨_, _, _, _, allOf, oneOf, anyOf⟩ := h
  unfold SchemaObject.form
  split
  · trivial
  · split
    · -- The variants come from two lists, and some of them may be dropped.
      intro m hm
      exact (List.mem_append.1 (List.mem_of_mem_filter hm)).elim (oneOf m) (anyOf m)
    · exact hplain
  · -- A single member may be all there is, and otherwise the members are those of the schema.
    next _ only _ honly =>
    split
    · exact allOf only (honly ▸ List.mem_cons_self)
    · exact honly ▸ allOf
  · exact allOf

end SchemaObject

section
variable {json : Json}

/-- A member that holds no schemas keeps a schema as it was, up to what `Distinct` looks at. -/
theorem slot_keeps_distinct {α : Type} {name : String} {read : Json → Except Fault α}
    {put : SchemaObject → α → SchemaObject} (h : ∀ s a, (put s a).holders = s.holders) :
    (slot name read put : Slot json SchemaObject).Keeps SchemaObject.Distinct :=
  slot_keeps fun _ a s _ hs => hs.congr (h s a)

variable (ih : ∀ v s, sizeOf v < sizeOf json → decodeSchema v = .ok s → s.Distinct) {v : Json}
  (hv : sizeOf v < sizeOf json)
include ih hv

/-- A map of schemas that is read from inside of a schema holds distinct ones, by `ih`. -/
theorem distinct_of_mapOf {ps : List (String × SchemaObject)}
    (h : (mapOf v fun w _ => decodeSchema w) = .ok ps) : ∀ x ∈ ps, x.2.Distinct := by
  intro x hx
  obtain ⟨w, hw, hread⟩ := exists_of_mem_mapOf h hx
  exact ih w x.2 (Nat.lt_trans hw hv) hread

/-- So does a list of schemas. -/
theorem distinct_of_listOf {xs : List SchemaObject}
    (h : (listOf v fun w _ => decodeSchema w) = .ok xs) : ∀ m ∈ xs, m.Distinct := by
  intro m hm
  obtain ⟨w, hw, hread⟩ := exists_of_mem_listOf h hm
  exact ih w m (Nat.lt_trans hw hv) hread

end

/-- A schema that is decoded is `Distinct`, at every depth. -/
theorem decodeSchema_distinct {json : Json} {s : SchemaObject} (h : decodeSchema json = .ok s) :
    s.Distinct := by
  -- On the size of the value, since schemas are read from values inside of it by other functions.
  induction hn : sizeOf json using Nat.strongRecOn generalizing json s with
  | ind n hsize =>
    subst hn
    have ih (v : Json) (s : SchemaObject) (hv : sizeOf v < sizeOf json)
        (h : decodeSchema v = .ok s) : s.Distinct := hsize _ hv h rfl
    rw [decodeSchema] at h
    refine record_keeps h ?_ .empty
    simp only [List.forall_mem_cons]
    -- The members without a name here hold no schemas.
    refine ⟨slot_keeps_distinct fun _ _ => rfl, slot_keeps_distinct fun _ _ => rfl,
      slot_keeps_distinct fun _ _ => rfl, slot_keeps_distinct fun _ _ => rfl, ?properties,
      slot_keeps_distinct fun _ _ => rfl, ?items, ?values, slot_keeps_distinct fun _ _ => rfl,
      ?allOf, ?oneOf, ?anyOf, fun _ h => (List.not_mem_nil h).elim⟩
    case properties =>
      intro v hv s s' hread hs
      obtain ⟨_, _, items, values, allOf, oneOf, anyOf⟩ := hs
      obtain ⟨ps, hps, rfl⟩ := map_eq_ok.1 hread
      exact ⟨nodup_names_of_mapOf hps, distinct_of_mapOf ih hv hps, items, values, allOf, oneOf,
        anyOf⟩
    case items =>
      intro v hv s s' hread hs
      obtain ⟨names, properties, _, values, allOf, oneOf, anyOf⟩ := hs
      dsimp only at hread
      split at hread
      · cases hread
        exact ⟨names, properties, by rintro _ ⟨⟩, values, allOf, oneOf, anyOf⟩
      · -- Items are a schema or nothing.
        obtain ⟨i, hi, rfl⟩ := map_eq_ok.1 hread
        refine ⟨names, properties, ?_, values, allOf, oneOf, anyOf⟩
        rintro _ ⟨⟩
        exact ih v i hv hi
    case values =>
      intro v hv s s' hread hs
      obtain ⟨names, properties, items, _, allOf, oneOf, anyOf⟩ := hs
      dsimp only at hread
      split at hread
      · cases hread
        exact ⟨names, properties, items, by rintro _ ⟨⟩, allOf, oneOf, anyOf⟩
      · cases hread
        exact ⟨names, properties, items, by rintro _ ⟨⟩, allOf, oneOf, anyOf⟩
      · -- A value that is no truth value is read as a schema.
        split at hread
        · next values hvalues =>
          cases hread
          refine ⟨names, properties, items, ?_, allOf, oneOf, anyOf⟩
          rintro _ ⟨⟩
          exact ih v values hv hvalues
        · cases hread
    case allOf =>
      intro v hv s s' hread hs
      obtain ⟨names, properties, items, values, _, oneOf, anyOf⟩ := hs
      obtain ⟨xs, hxs, rfl⟩ := map_eq_ok.1 hread
      exact ⟨names, properties, items, values, distinct_of_listOf ih hv hxs, oneOf, anyOf⟩
    case oneOf =>
      intro v hv s s' hread hs
      obtain ⟨names, properties, items, values, allOf, _, anyOf⟩ := hs
      obtain ⟨xs, hxs, rfl⟩ := map_eq_ok.1 hread
      exact ⟨names, properties, items, values, allOf, distinct_of_listOf ih hv hxs, anyOf⟩
    case anyOf =>
      intro v hv s s' hread hs
      obtain ⟨names, properties, items, values, allOf, oneOf, _⟩ := hs
      obtain ⟨xs, hxs, rfl⟩ := map_eq_ok.1 hread
      exact ⟨names, properties, items, values, allOf, oneOf, distinct_of_listOf ih hv hxs⟩

/-! ### Definitions -/

/-- A map of schemas that is decoded holds schemas that are `Distinct`. -/
theorem decodeMap_distinct {json : Json} {xs : List (String × SchemaObject)}
    (h : decodeMap decodeSchema json = .ok xs) : ∀ x ∈ xs, x.2.Distinct := by
  intro x hx
  obtain ⟨v, _, hread⟩ := exists_of_mem_mapOf h hx
  exact decodeSchema_distinct hread

/-- The shared schemas of a document are `Distinct`. -/
theorem decodeComponents_distinct {json : Json} {c : Components}
    (h : decodeComponents json = .ok c) : ∀ x ∈ c.schemas, x.2.Distinct := by
  refine record_keeps (P := fun c : Components => ∀ x ∈ c.schemas, x.2.Distinct) h ?_
    fun _ hx => (List.not_mem_nil hx).elim
  simp only [List.forall_mem_cons]
  exact ⟨slot_keeps fun _ _ _ hread _ => decodeMap_distinct hread, slot_keeps fun _ _ _ _ hc => hc,
    slot_keeps fun _ _ _ _ hc => hc, fun _ h => (List.not_mem_nil h).elim⟩

/-- What `optional` reads, where a member may be missing, was read as if it could not. -/
theorem eq_ok_of_optional {α : Type} {read : Json → Except Fault α} {v : Json} {a : α}
    (h : optional read v = .ok (some a)) : read v = .ok a := by
  unfold optional at h
  split at h
  · cases h
  · obtain ⟨b, hb, heq⟩ := map_eq_ok.1 h
    cases heq
    exact hb

/-- The schemas of the document list no property twice. -/
def Distinct (doc : Document) : Prop :=
  (∀ x ∈ doc.definitions, x.2.Distinct) ∧
    ∀ c, doc.components = some c → ∀ x ∈ c.schemas, x.2.Distinct

/-- The schemas of a document that is decoded are `Distinct`. -/
theorem decode_distinct {members : List (String × Json)} {doc : Document}
    (h : decode members = .ok doc) : doc.Distinct := by
  refine readMembers_keeps (P := Document.Distinct) h ?_
    ⟨fun _ hx => (List.not_mem_nil hx).elim, nofun⟩
  simp only [List.forall_mem_cons]
  -- Only two members of a document hold schemas, the definitions and the shared components.
  refine ⟨slot_keeps fun _ _ _ _ hd => hd, slot_keeps fun _ _ _ _ hd => hd,
    slot_keeps fun _ _ _ _ hd => hd, slot_keeps fun _ _ _ _ hd => hd,
    slot_keeps fun _ _ _ hread hd => ⟨decodeMap_distinct hread, hd.2⟩,
    slot_keeps fun v c doc hread hd => ⟨hd.1, ?_⟩, fun _ h => (List.not_mem_nil h).elim⟩
  rintro _ rfl
  exact decodeComponents_distinct (eq_ok_of_optional hread)

/-- A document that is read was decoded from the `members` of its root. -/
theorem exists_decode_of_read {format : Format} {bytes : ByteArray} {doc : Document}
    (h : read format bytes = .ok doc) : ∃ members, decode members = .ok doc := by
  unfold read at h
  split at h
  · cases h
  · split at h
    · cases h
    · next members _ =>
      cases hdecode : decode members with
      | error f =>
        rw [hdecode] at h
        cases h
      | ok doc' =>
        rw [hdecode] at h
        cases h
        exact ⟨members, hdecode⟩
    · cases h

/-- The definitions of a description that comes from a document are `Distinct`. -/
theorem load_distinct {format : Format} {bytes : ByteArray} {settings : Settings}
    {api : ApiDescription} (h : load format bytes settings = .ok api) :
    ∀ d raw, api.definitions.get? d = some raw → raw.Distinct := by
  obtain ⟨doc, hread, rfl⟩ := map_eq_ok.1 h
  obtain ⟨members, hdecode⟩ := exists_decode_of_read hread
  obtain ⟨hdefinitions, hcomponents⟩ := decode_distinct hdecode
  have hshared : ∀ x ∈ (doc.components.map Components.schemas).getD [], x.2.Distinct := by
    cases hc : doc.components with
    | none => exact fun _ hx => (List.not_mem_nil hx).elim
    | some c => exact hcomponents c hc
  -- Definitions are put in one after the other, those of the document first and then the shared
  -- ones.
  refine List.foldlRecOn (motive := fun all : Definitions => ∀ d raw, all.get? d = some raw →
    raw.Distinct) _ _ nofun fun all hall x hx d raw hget => ?_
  rw [Named.Table.get?_insertNew] at hget
  rcases Option.or_eq_some_iff.1 hget with hget | ⟨_, hget⟩
  · exact hall d raw hget
  · split at hget
    · cases hget
      exact (List.mem_append.1 hx).elim (hdefinitions x) (hshared x)
    · cases hget

end ControllerTypes.Document
