import ControllerTypes.Proofs.Named
import ControllerTypes.Proofs.Resource.Extracted
import ControllerTypes.TypeDef.Naming

/-!
# `ControllerTypes.Proofs.TypeDef.Naming`: which names definitions are given

The walk over types trusts the naming it is handed in two points: the names of definitions are taken
from the start, and no two definitions share one. `Naming.Proper` states them, and `proper_of`
proves them for the naming of a catalog with its resources.

The other lemmas say where the names come from. A resource lends its two names to the definitions
its spec and its status come from (`get?_schemaName`, `statusType_of_mem_names`), every object or
enumeration has a name (`exists_name_of_isNamed`), and whatever is not lent by a resource is a fresh
name of such a definition (`get?_of_cases`, which tells the three apart).
-/

set_option autoImplicit false

namespace ControllerTypes.Naming

open Name Named

/-- What the walk relies on when definitions have names. -/
structure Proper (naming : Naming) : Prop where
  taken : ∀ n ∈ naming.names, n ∈ naming.taken
  injective : ∀ {d d' n}, naming.types.get? d = some n → naming.types.get? d' = some n → d = d'

/-- A name is the name of a definition. -/
theorem mem_names_iff {naming : Naming} {n : String} :
    n ∈ naming.names ↔ ∃ d, naming.types.get? d = some n := by
  constructor
  · intro h
    obtain ⟨⟨d, n'⟩, hmem, rfl⟩ := List.mem_map.1 h
    exact ⟨d, Table.get?_eq_some_iff.2 hmem⟩
  · rintro ⟨d, h⟩
    exact mem_names h

/-! ### The names that resources lend -/

/-- A table into which specs are put holds them behind what it held before. -/
theorem entries_foldl_specs (resources : List Resource) (t : Table String) :
    (resources.foldl (fun types r => types.insert r.schemaName r.specType) t).entries =
      (resources.map fun r => (r.schemaName, r.specType)).foldl
        (fun all x => Named.insert all x.1 x.2) t.entries := by
  induction resources generalizing t with
  | nil => rfl
  | cons r rest ih =>
    rw [List.foldl_cons, ih, List.map_cons, List.foldl_cons]
    rfl

section
variable {catalog : Catalog} {resources : List Resource}

/-- A definition becomes a spec if it is the definition of a resource. -/
theorem get?_specs_iff (h : AllExtracted catalog resources) {d n : String} :
    (specs resources).get? d = some n ↔ ∃ r ∈ resources, r.schemaName = d ∧ r.specType = n := by
  have hentries : (specs resources).entries = resources.map fun r => (r.schemaName, r.specType) := by
    rw [specs, entries_foldl_specs]
    apply ofList_of_nodup
    rw [Named.names, List.map_map]
    exact h.definitions
  rw [Table.get?_eq_some_iff, hentries, List.mem_map]
  constructor
  · rintro ⟨r, hr, heq⟩
    cases heq
    exact ⟨r, hr, rfl, rfl⟩
  · rintro ⟨r, hr, rfl, rfl⟩
    exact ⟨r, hr, rfl⟩

/-- The definitions with the status of one more resource, unless that has a name already. -/
def addStatus (types : Table String) (r : Resource) : Table String :=
  match r.statusSchemaName with
  | some definition => types.insertNew definition r.statusType
  | none => types

/-- `statuses` lends the names of the specs first, and then those of the states. -/
theorem statuses_eq (resources : List Resource) :
    statuses resources = resources.foldl addStatus (specs resources) :=
  rfl

/-- A name stays when a status is added. -/
theorem get?_addStatus {types : Table String} {r : Resource} {d n : String}
    (h : types.get? d = some n) : (addStatus types r).get? d = some n := by
  unfold addStatus
  split
  · rw [Table.get?_insertNew, h]
    rfl
  · exact h

/-- A name that is there with a status more was there, or is that of the status. -/
theorem get?_addStatus_cases {types : Table String} {r : Resource} {d n : String}
    (h : (addStatus types r).get? d = some n) :
    types.get? d = some n ∨ (r.statusSchemaName = some d ∧ r.statusType = n) := by
  unfold addStatus at h
  split at h
  · next definition hname =>
    rw [Table.get?_insertNew] at h
    rcases Option.or_eq_some_iff.1 h with h | ⟨_, h⟩
    · exact .inl h
    · split at h
      · next heq =>
        cases h
        exact .inr ⟨heq ▸ hname, rfl⟩
      · cases h
  · exact .inl h

/-- A definition that becomes a spec goes by the name of the spec. -/
theorem get?_statuses_of_specs {d n : String} (h : (specs resources).get? d = some n) :
    (statuses resources).get? d = some n := by
  rw [statuses_eq]
  exact List.foldlRecOn (motive := fun types => types.get? d = some n) resources addStatus h
    fun _ hkeep _ _ => get?_addStatus hkeep

/-- A definition with a lent name becomes the spec or the status of a resource. -/
theorem get?_statuses_cases (hx : AllExtracted catalog resources) {d n : String}
    (h : (statuses resources).get? d = some n) :
    (∃ r ∈ resources, r.schemaName = d ∧ r.specType = n) ∨
      ∃ r ∈ resources, r.statusSchemaName = some d ∧ r.statusType = n := by
  rw [← get?_specs_iff hx]
  rw [statuses_eq] at h
  refine List.foldlRecOn (motive := fun types => types.get? d = some n →
    (specs resources).get? d = some n ∨
      ∃ r ∈ resources, r.statusSchemaName = some d ∧ r.statusType = n)
    resources addStatus .inl ?_ h
  intro types ih r hr h
  rcases get?_addStatus_cases h with h | ⟨hname, htype⟩
  · exact ih h
  · exact .inr ⟨r, hr, hname, htype⟩

/-- A lent name is a name that resources bring with them. -/
theorem mem_resourceNames_of_get? (h : AllExtracted catalog resources) {d n : String}
    (hget : (statuses resources).get? d = some n) : n ∈ resourceNames resources := by
  rcases get?_statuses_cases h hget with ⟨r, hr, _, rfl⟩ | ⟨r, hr, _, rfl⟩ <;>
    exact List.mem_flatMap.2 ⟨r, hr, by simp⟩

/-- No name is lent twice. -/
theorem statuses_injective (h : AllExtracted catalog resources) {d d' n : String}
    (hd : (statuses resources).get? d = some n) (hd' : (statuses resources).get? d' = some n) :
    d = d' := by
  rcases get?_statuses_cases h hd with ⟨r, hr, rfl, rfl⟩ | ⟨r, hr, hstatus, rfl⟩
  · rcases get?_statuses_cases h hd' with ⟨s, hs, rfl, htype⟩ | ⟨s, hs, _, htype⟩
    · rw [h.eq_of_specType hs hr htype]
    · exact absurd htype.symm (h.specType_ne_statusType hr hs)
  · rcases get?_statuses_cases h hd' with ⟨s, hs, rfl, htype⟩ | ⟨s, hs, hstatus', htype⟩
    · exact absurd htype (h.specType_ne_statusType hs hr)
    · rw [h.eq_of_statusType hs hr htype, hstatus] at hstatus'
      exact Option.some.inj hstatus'

end

/-! ### The names of all other definitions -/

section
variable {naming : Naming} {d d' n : String} {schema : Schema}

/-- Naming one more definition leaves things as they are or gives it a fresh name. -/
theorem add_cases (naming : Naming) (d : String) (schema : Schema) :
    naming.add d schema = naming ∨
    ∃ name, schema.isNamed = true ∧ naming.types.get? d = none ∧ name ∉ naming.taken ∧
      isReserved name = false ∧
      naming.add d schema = ⟨naming.types.insertNew d name, name :: naming.taken⟩ := by
  unfold add
  split
  · next hadd =>
    refine .inr ⟨_, hadd.1, ?_, takeName_fst_not_mem _ _ _, ?_, rfl⟩
    · exact get?_eq_none_iff.2 hadd.2
    · exact bars_takeName_fst (goIdentifier d "Type") naming.taken .types
  · exact .inl rfl

/-- A definition keeps its name when another one is named. -/
theorem get?_add (h : naming.types.get? d = some n) (schema : Schema) :
    (naming.add d' schema).types.get? d = some n := by
  rcases add_cases naming d' schema with heq | ⟨name, _, _, _, _, heq⟩
  · rw [heq]
    exact h
  · rw [heq, Table.get?_insertNew, h]
    rfl

/-- What is named has a name afterwards. -/
theorem exists_name_add (naming : Naming) (d : String) (hnamed : schema.isNamed = true) :
    ∃ n, (naming.add d schema).types.get? d = some n := by
  by_cases hmem : d ∈ naming.types.names
  · obtain ⟨n, h⟩ := Table.mem_names_iff.1 hmem
    exact ⟨n, get?_add h schema⟩
  · refine ⟨(takeName (goIdentifier d "Type") naming.taken .types).1, ?_⟩
    rw [add, if_pos ⟨hnamed, hmem⟩, Table.get?_insertNew,
      show naming.types.get? d = none from get?_eq_none_iff.2 hmem, if_pos rfl]
    rfl

end

/-- What holds of the naming while definitions are named one after the other: it is proper, it keeps
the names that were lent, and all others are fresh names of objects or enumerations. -/
structure Grown (catalog : Catalog) (resources : List Resource) (naming : Naming) : Prop where
  proper : naming.Proper
  taken : ∀ n ∈ resourceNames resources, n ∈ naming.taken
  lent : ∀ d n, (statuses resources).get? d = some n → naming.types.get? d = some n
  cases : ∀ d n, naming.types.get? d = some n →
    (statuses resources).get? d = some n ∨
      n ∉ resourceNames resources ∧ isReserved n = false ∧
        ∃ schema, catalog.get? d = some schema ∧ schema.isNamed = true

section
variable {catalog : Catalog} {resources : List Resource}

/-- The names that resources lend are a naming. -/
theorem grown_statuses (h : AllExtracted catalog resources) :
    Grown catalog resources ⟨statuses resources, (resourceNames resources).reverse⟩ where
  proper := by
    refine ⟨?_, statuses_injective h⟩
    intro n hn
    obtain ⟨d, hget⟩ := mem_names_iff.1 hn
    exact List.mem_reverse.2 (mem_resourceNames_of_get? h hget)
  taken := fun _ hn => List.mem_reverse.2 hn
  lent := fun _ _ hget => hget
  cases := fun _ _ hget => .inl hget

/-- Naming a definition of the catalog keeps it so. -/
theorem Grown.add {naming : Naming} (h : Grown catalog resources naming) {d : String}
    {schema : Schema} (hget : catalog.get? d = some schema) :
    Grown catalog resources (naming.add d schema) := by
  rcases add_cases naming d schema with heq | ⟨name, hnamed, hnone, hnew, hreserved, heq⟩
  · rw [heq]
    exact h
  have hsame {d' n : String} (hd' : (naming.add d schema).types.get? d' = some n) :
      naming.types.get? d' = some n ∨ d' = d ∧ n = name := by
    rw [heq, Table.get?_insertNew] at hd'
    rcases Option.or_eq_some_iff.1 hd' with hd' | ⟨_, hd'⟩
    · exact .inl hd'
    · split at hd'
      · next hd => exact .inr ⟨hd, (Option.some.inj hd').symm⟩
      · cases hd'
  have htaken {d' n : String} (hd' : naming.types.get? d' = some n) : n ∈ naming.taken :=
    h.proper.taken n (mem_names_iff.2 ⟨d', hd'⟩)
  constructor
  · constructor
    · intro n hn
      obtain ⟨d', hd'⟩ := mem_names_iff.1 hn
      rw [heq]
      rcases hsame hd' with hd' | ⟨_, rfl⟩
      · exact List.mem_cons_of_mem _ (htaken hd')
      · exact List.mem_cons_self
    · intro d₁ d₂ n h₁ h₂
      rcases hsame h₁ with hold₁ | ⟨hd₁, hn₁⟩ <;> rcases hsame h₂ with hold₂ | ⟨hd₂, hn₂⟩
      · exact h.proper.injective hold₁ hold₂
      · exact absurd (htaken hold₁) (hn₂ ▸ hnew)
      · exact absurd (htaken hold₂) (hn₁ ▸ hnew)
      · rw [hd₁, hd₂]
  · intro n hn
    rw [heq]
    exact List.mem_cons_of_mem _ (h.taken n hn)
  · intro d' n hd'
    exact get?_add (h.lent d' n hd') schema
  · intro d' n hd'
    rcases hsame hd' with hd' | ⟨rfl, rfl⟩
    · exact h.cases d' n hd'
    · exact .inr ⟨fun hmem => hnew (h.taken n hmem), hreserved, schema, hget, hnamed⟩

/-- The naming of a catalog with its resources is grown from the names that are lent. -/
theorem grown_of (h : AllExtracted catalog resources) :
    Grown catalog resources (.of catalog resources) := by
  unfold Naming.of
  refine List.foldlRecOn catalog.entries _ (grown_statuses h) ?_
  rintro naming hgrown ⟨d, schema⟩ hmem
  exact hgrown.add (Table.get?_eq_some_iff.2 hmem)

/-- A definition with a name becomes the spec or the status of a resource, or it is an object or an
enumeration with a name of its own, which is none of the `resourceNames` and not reserved. -/
theorem get?_of_cases (h : AllExtracted catalog resources) {d n : String}
    (hget : (Naming.of catalog resources).types.get? d = some n) :
    (∃ r ∈ resources, r.schemaName = d ∧ r.specType = n) ∨
    (∃ r ∈ resources, r.statusSchemaName = some d ∧ r.statusType = n) ∨
    n ∉ resourceNames resources ∧ isReserved n = false ∧
      ∃ schema, catalog.get? d = some schema ∧ schema.isNamed = true := by
  rcases (grown_of h).cases d n hget with hlent | hown
  · exact (get?_statuses_cases h hlent).imp_right .inl
  · exact .inr (.inr hown)

/-- No two definitions share a name, and all their names are taken from the start. -/
theorem proper_of (h : AllExtracted catalog resources) : (Naming.of catalog resources).Proper :=
  (grown_of h).proper

/-- The definition of a resource goes by the name of its spec. -/
theorem get?_schemaName (h : AllExtracted catalog resources) {r : Resource} (hr : r ∈ resources) :
    (Naming.of catalog resources).types.get? r.schemaName = some r.specType :=
  (grown_of h).lent _ _ (get?_statuses_of_specs ((get?_specs_iff h).2 ⟨r, hr, rfl, rfl⟩))

/-- A definition goes by the name of a status only if it is the one the status comes from. -/
theorem statusType_of_mem_names (h : AllExtracted catalog resources) {r : Resource}
    (hr : r ∈ resources) {d : String}
    (hget : (Naming.of catalog resources).types.get? d = some r.statusType) :
    r.statusSchemaName = some d := by
  rcases get?_of_cases h hget with ⟨s, hs, _, htype⟩ | ⟨s, hs, hstatus, htype⟩ | ⟨hnew, _⟩
  · exact absurd htype (h.specType_ne_statusType hs hr)
  · rw [← h.eq_of_statusType hs hr htype]
    exact hstatus
  · exact absurd (List.mem_flatMap.2 ⟨r, hr, by simp⟩) hnew

/-- A definition that has a name for a type stands for something. -/
theorem exists_target_of_get? (hx : AllExtracted catalog resources) {d name : String}
    (hname : (Naming.of catalog resources).types.get? d = some name) :
    ∃ schema, catalog.target? d = some schema := by
  rcases get?_of_cases hx hname with
    ⟨r, hr, rfl, _⟩ | ⟨r, hr, hstatus, _⟩ | ⟨_, _, schema, hget, hnamed⟩
  · exact ⟨r.spec, (hx.each r hr).spec_eq⟩
  · exact ⟨r.status, (hx.each r hr).status_eq d hstatus⟩
  · exact ⟨schema, Catalog.target?_of_isNamed hget hnamed⟩

/-- Every object and every enumeration with a name of its own is given one for its type. -/
theorem exists_name_of_isNamed {d : String} {schema : Schema}
    (hget : catalog.get? d = some schema) (hnamed : schema.isNamed = true)
    (resources : List Resource) :
    ∃ n, (Naming.of catalog resources).types.get? d = some n := by
  have hfold (entries : List (String × Schema)) (naming : Naming) (hmem : (d, schema) ∈ entries) :
      ∃ n, (entries.foldl (fun n x => n.add x.1 x.2) naming).types.get? d = some n := by
    induction entries generalizing naming with
    | nil => cases hmem
    | cons x rest ih =>
      rcases List.mem_cons.1 hmem with rfl | hmem
      · obtain ⟨n, hn⟩ := exists_name_add naming d hnamed
        exact ⟨n, List.foldlRecOn (motive := fun n' : Naming => n'.types.get? d = some n) rest _ hn
          fun _ hkeep _ _ => get?_add hkeep _⟩
      · exact ih _ hmem
  exact hfold catalog.entries _ (Table.get?_eq_some_iff.1 hget)

end

end ControllerTypes.Naming
