import ControllerTypes.Proofs.Resolution.Closed
import ControllerTypes.Proofs.Resolution.Properties
import ControllerTypes.Proofs.TypeDef.Mirror

/-!
# `ControllerTypes.Proofs.TypeDef.Origin`: which part of a description a struct is written for

A struct is written for an object that stands somewhere in the description. For the type of a
definition that is the definition itself, or the one that it is another name of (`Home`). The same
goes for the type of a status. Any other struct belongs to a field, and is written for the object
that stands inside of the property behind that field (`Inside`). `Origin` says where a struct comes
from in this way, and `Origin.mirrors` that the struct stands for what its origin was resolved to.

With `Properties.fields` this makes the fields of a struct and the properties of its origin
correspond one for one (`Origin.fields`). Each field has the type of what its property was resolved
to.
-/

set_option autoImplicit false

namespace ControllerTypes.TypeDef

open Document Resolution

/-! ### Definitions that are another name of an object -/

/-- The definition `d` is the object `home`, or another name of it. -/
inductive Home (catalog : Catalog) : String → String → Prop where
  | here {d : String} {fields : List (Field Schema)}
      (hget : catalog.get? d = some (.object fields)) : Home catalog d d
  | renamed {d next home : String} (hget : catalog.get? d = some (.reference next))
      (hnext : Home catalog next home) : Home catalog d home

section
variable {catalog : Catalog} {d home : String} {schema : Schema}

/-- A definition that has a home is in the catalog. -/
theorem Home.mem_names (h : Home catalog d home) : d ∈ catalog.names := by
  cases h with
  | here hget => exact Named.Table.mem_names_of_get? hget
  | renamed hget _ => exact Named.Table.mem_names_of_get? hget

/-- The end of a chain of names is an object. -/
theorem Home.exists_fields (h : Home catalog d home) :
    ∃ fields, catalog.get? home = some (.object fields) := by
  induction h with
  | here hget => exact ⟨_, hget⟩
  | renamed _ _ ih => exact ih

/-- What a definition stands for is the object at the end. -/
theorem Home.get?_eq (h : Home catalog d home) (htarget : catalog.target? d = some schema) :
    catalog.get? home = some schema := by
  refine Catalog.target?_induction (motive := fun d => Home catalog d home →
    catalog.get? home = some schema) htarget ?_ ?_ h
  · intro d hget hnot h
    cases h with
    | here => exact hget
    | renamed hget' => exact absurd (Option.some.inj (hget.symm.trans hget')) (hnot _)
  · intro d next hget ih h
    cases h with
    | here hget' => cases hget.symm.trans hget'
    | renamed hget' hnext =>
      cases hget.symm.trans hget'
      exact ih hnext

/-- A definition that stands for an object is that object or another name of it. -/
theorem exists_home {fields : List (Field Schema)}
    (htarget : catalog.target? d = some (.object fields)) : ∃ home, Home catalog d home := by
  refine Catalog.target?_induction (motive := fun d => ∃ home, Home catalog d home) htarget
    (fun d hget _ => ⟨d, .here hget⟩) ?_
  rintro d next hget ⟨home, hhome⟩
  exact ⟨home, .renamed hget hhome⟩

end

/-! ### Origins -/

/-- The object stands inside of a schema that stands in the definition `d`: under lists and maps, in
a composition, or in a definition that is referred to and is no type of its own. -/
inductive Inside (defs : Definitions) (catalog : Catalog) :
    String → SchemaObject → String → SchemaObject → Prop where
  | object {d : String} {raw : SchemaObject} {properties : List (String × SchemaObject)}
      (hform : raw.form = .object properties) : Inside defs catalog d raw d raw
  | composed {d : String} {raw : SchemaObject} {members : List SchemaObject}
      (hform : raw.form = .all members ∨ raw.form = .variants members)
      (hobject : offered catalog (finishedBefore defs d) raw ≠ none) :
      Inside defs catalog d raw d raw
  | decorated {d home : String} {raw only object : SchemaObject}
      (hform : raw.form = .decorated only) (honly : Inside defs catalog d only home object) :
      Inside defs catalog d raw home object
  | items {d home : String} {raw items object : SchemaObject} (hform : raw.form = .array items)
      (hitems : Inside defs catalog d items home object) : Inside defs catalog d raw home object
  | values {d home : String} {raw values object : SchemaObject} (hform : raw.form = .map values)
      (hvalues : Inside defs catalog d values home object) : Inside defs catalog d raw home object
  /-- A composition without objects is its first member. -/
  | first {d home : String} {raw first object : SchemaObject} {rest : List SchemaObject}
      (hform : raw.form = .all (first :: rest) ∨ raw.form = .variants (first :: rest))
      (hnone : offered catalog (finishedBefore defs d) raw = none)
      (hfirst : Inside defs catalog d first home object) : Inside defs catalog d raw home object
  | reference {d n home ref : String} {raw other object : SchemaObject} {schema : Schema}
      (hform : raw.form = .reference ref) (hname : definitionName? ref = some n)
      (hget : catalog.get? n = some schema) (hnamed : schema.isNamed = false)
      (hraw : defs.get? n = some other) (hother : Inside defs catalog n other home object) :
      Inside defs catalog d raw home object

/-- The type is written for the object `raw`, which stands in the definition `home`. -/
inductive Origin (defs : Definitions) (catalog : Catalog) (resources : List Resource)
    (types : List TypeDef) : TypeDef → String → SchemaObject → Prop where
  | definition {t : TypeDef} {d home : String} {raw : SchemaObject} (ht : t ∈ types)
      (hname : (Naming.of catalog resources).types.get? d = some t.name)
      (hhome : Home catalog d home) (hraw : defs.get? home = some raw) :
      Origin defs catalog resources types t home raw
  | status {t : TypeDef} {r : Resource} {d home : String} {raw : SchemaObject} (ht : t ∈ types)
      (hr : r ∈ resources) (hname : t.name = r.statusType) (hstatus : r.statusSchemaName = some d)
      (hhome : Home catalog d home) (hraw : defs.get? home = some raw) :
      Origin defs catalog resources types t home raw
  /-- The type that a field refers to is written for an object in the property behind it. -/
  | lifted {t owner : TypeDef} {d home : String} {raw object : SchemaObject}
      {properties : List (String × Site)} {x : String × Site} {f : FieldDefinition}
      (ht : t ∈ types) (howner : Origin defs catalog resources types owner d raw)
      (hproperties : Properties defs catalog d raw properties)
      (hfield : (x, f) ∈ properties.zip owner.fields)
      (hinside : Inside defs catalog x.2.home x.2.raw home object)
      (href : f.type.referenced? = some t.name) :
      Origin defs catalog resources types t home object

/-! ### Structs stand for their origins -/

section
variable {defs : Definitions} {catalog : Catalog} {naming : Naming} {types : List TypeDef}
  {d home : String} {raw object : SchemaObject} {schema : Schema} {type : FieldType}

/-- Only the type of an object without a name stands for that. -/
theorem Mirrors.exists_of_object {fields : List (Field Schema)}
    (h : Mirrors catalog naming types (.object fields) type) :
    ∃ t ∈ types, type.referenced? = some t.name ∧
      MirrorsShape catalog naming types (.object fields) t.shape := by
  cases h with
  -- Every other rule of `Mirrors` is for another form of schema.
  | lifted ht _ hshape => exact ⟨_, ht, rfl, hshape⟩

/-- A field with the type of a schema refers to a type for the object inside of that. -/
theorem Inside.mirrored (hr : Resolved defs catalog) (h : Inside defs catalog d raw home object)
    (hc : Conversion defs catalog d raw schema) (hm : Mirrors catalog naming types schema type) :
    ∃ t ∈ types, type.referenced? = some t.name ∧ ∃ fields,
      Conversion defs catalog home object (.object fields) ∧
      MirrorsShape catalog naming types (.object fields) t.shape := by
  induction h generalizing schema type with
  -- The object itself: its field was lifted, and the type written for it is the one wanted.
  | object hform =>
    have hrule := hc.of_form
    simp only [hform] at hrule
    obtain ⟨fields, rfl, _⟩ := hrule
    obtain ⟨t, ht, href, hshape⟩ := hm.exists_of_object
    exact ⟨t, ht, href, fields, hc, hshape⟩
  -- A composition that is seen as an object was converted to one.
  | composed hform hobject =>
    obtain ⟨fields, rfl⟩ := hc.exists_fields hform hobject
    obtain ⟨t, ht, href, hshape⟩ := hm.exists_of_object
    exact ⟨t, ht, href, fields, hc, hshape⟩
  | decorated hform _ ih =>
    have hrule := hc.of_form
    simp only [hform] at hrule
    exact ih hrule hm
  | items hform _ ih =>
    have hrule := hc.of_form
    simp only [hform] at hrule
    obtain ⟨item, rfl, hitem⟩ := hrule
    cases hm with
    | array helement =>
      have hlist := ih hitem helement
      exact hlist
    | lifted _ _ hshape => cases hshape
  | values hform _ ih =>
    have hrule := hc.of_form
    simp only [hform] at hrule
    obtain ⟨value, rfl, hvalue⟩ := hrule
    cases hm with
    | map helement =>
      have hmap := ih hvalue helement
      exact hmap
    | lifted _ _ hshape => cases hshape
  | first hform hnone _ ih => exact ih (hc.first hform hnone) hm
  | reference hform hname hget hnamed hraw _ ih =>
    have hrule := hc.of_form
    simp only [hform] at hrule
    obtain ⟨n, hname', hstands⟩ := hrule
    cases hname.symm.trans hname'
    have hother := hr.conversion hraw hget
    -- A reference was replaced by the schema of its definition, or it stayed and is passed through
    -- now. What it leads to is no type either way.
    rcases hstands with ⟨_, target, hget', rfl⟩ | ⟨_, _, rfl⟩
    · cases hget.symm.trans hget'
      rw [referenceTo, hnamed] at hm
      exact ih hother hm
    · cases hm with
      | named hget' hnamed' =>
        cases hget.symm.trans hget'
        exact absurd (hnamed.symm.trans hnamed') Bool.false_ne_true
      | passed hget' _ htype =>
        cases hget.symm.trans hget'
        exact ih hother htype
      | lifted _ _ hshape => cases hshape

/-- The fields of a struct stand for the fields of an object, each for its own. -/
theorem MirrorsFields.forall₂ {fields : List (Field Schema)} {definitions : List FieldDefinition}
    (h : MirrorsFields catalog naming types fields definitions) :
    List.Forall₂ (fun field definition => definition.jsonName = field.name ∧
      Mirrors catalog naming types field.schema definition.type) fields definitions := by
  -- One rule of `MirrorsFields` for each field.
  induction fields generalizing definitions with
  | nil =>
    cases h
    exact .nil
  | cons field rest ih =>
    cases h with
    | cons hname _ htype hrest => exact .cons ⟨hname, htype⟩ (ih hrest)

/-- The fields of a struct that stands for an object have the types of what its properties were
resolved to, one for one. -/
theorem forall₂_fields (hr : Resolved defs catalog) {properties : List (String × Site)}
    (hproperties : Properties defs catalog home raw properties) {fields : List (Field Schema)}
    (hc : Conversion defs catalog home raw (.object fields)) {t : TypeDef}
    (hshape : MirrorsShape catalog naming types (.object fields) t.shape) :
    List.Forall₂ (fun x f => f.jsonName = x.1 ∧ ∃ schema,
      Conversion defs catalog x.2.home x.2.raw schema ∧ Mirrors catalog naming types schema f.type)
      properties t.fields := by
  -- The properties match the fields of the object, and these match the fields of the struct.
  obtain ⟨_, hseen, hmatch⟩ := hproperties.fields hr hc
  cases hseen
  obtain ⟨name, source, shape⟩ := t
  cases hshape with
  | struct hfields =>
    refine (forall₂_comp hmatch hfields.forall₂).imp ?_
    rintro x f ⟨field, ⟨hname, hconverted⟩, hname', htype⟩
    exact ⟨hname'.trans hname, field.schema, hconverted, htype⟩

end

section
variable {settings : Settings} {api : ApiDescription} {catalog : Catalog}
  {resources : List Resource} {types : List TypeDef}

/-- A type has the shape that stands under its name. -/
theorem Stands.shape_of_mem {naming : Naming} {schema : Schema} {t : TypeDef}
    (h : Stands catalog naming types t.name schema) (ht : t ∈ types)
    (hnodup : (types.map TypeDef.name).Nodup) : MirrorsShape catalog naming types schema t.shape := by
  obtain ⟨_, u, hu, hname, hshape⟩ := h
  rwa [List.inj_on_of_nodup_map hnodup hu ht hname] at hshape

/-- A struct stands for what its origin was resolved to. -/
theorem Origin.mirrors (h : Compiles settings api catalog resources types) {t : TypeDef}
    {home : String} {raw : SchemaObject}
    (ho : Origin api.definitions catalog resources types t home raw) :
    ∃ fields, Conversion api.definitions catalog home raw (.object fields) ∧
      MirrorsShape catalog (.of catalog resources) types (.object fields) t.shape := by
  have hr := resolved_of_resolveAll h.resolved
  have hnodup := (ordered_of_compiles h).1
  -- The end of a chain of names is what the definition stands for, and that is the object there.
  have hend {d home : String} {raw : SchemaObject} (hhome : Home catalog d home)
      (hraw : api.definitions.get? home = some raw) {t : TypeDef} (ht : t ∈ types)
      (hstands : ∀ schema, catalog.target? d = some schema →
        Stands catalog (.of catalog resources) types t.name schema) :
      ∃ fields, Conversion api.definitions catalog home raw (.object fields) ∧
        MirrorsShape catalog (.of catalog resources) types (.object fields) t.shape := by
    obtain ⟨fields, hfields⟩ := hhome.exists_fields
    obtain ⟨schema, htarget, _⟩ := target?_of_checkAliasCycles
      (checkAliasCycles_of_resolveAll h.resolved) hhome.mem_names
    cases (hhome.get?_eq htarget).symm.trans hfields
    exact ⟨fields, hr.conversion hraw hfields, (hstands _ htarget).shape_of_mem ht hnodup⟩
  induction ho with
  | definition ht hname hhome hraw =>
    exact hend hhome hraw ht fun _ htarget => stands_of_get? h hname htarget
  | @status t r d _ _ ht hr' hname hstatus hhome hraw =>
    refine hend hhome hraw ht fun schema htarget => ?_
    cases htarget.symm.trans ((h.allExtracted.each r hr').status_eq d hstatus)
    exact hname ▸ status_stands h hr'
  -- The owner stands for its own origin, so the field stands for its property, and the object
  -- inside of that has the type the field refers to.
  | lifted ht _ hproperties hfield hinside href ih =>
    obtain ⟨fields, hconverted, hshape⟩ := ih
    obtain ⟨_, schema, hsite, hmirrors⟩ :=
      List.forall₂_zip (forall₂_fields hr hproperties hconverted hshape) hfield
    obtain ⟨u, hu, href', fields', hconverted', hshape'⟩ := hinside.mirrored hr hsite hmirrors
    obtain rfl := List.inj_on_of_nodup_map hnodup ht hu (Option.some.inj (href.symm.trans href'))
    exact ⟨fields', hconverted', hshape'⟩

/-- The fields of a struct are the properties of its origin, one for one and in order, each with the
type of what the property was resolved to. -/
theorem Origin.fields (h : Compiles settings api catalog resources types) {t : TypeDef}
    {home : String} {raw : SchemaObject}
    (ho : Origin api.definitions catalog resources types t home raw)
    {properties : List (String × Site)}
    (hproperties : Properties api.definitions catalog home raw properties) :
    List.Forall₂ (fun x f => f.jsonName = x.1 ∧ ∃ schema,
      Conversion api.definitions catalog x.2.home x.2.raw schema ∧
      Mirrors catalog (.of catalog resources) types schema f.type) properties t.fields := by
  obtain ⟨fields, hconverted, hshape⟩ := ho.mirrors h
  exact forall₂_fields (resolved_of_resolveAll h.resolved) hproperties hconverted hshape

end

end ControllerTypes.TypeDef
