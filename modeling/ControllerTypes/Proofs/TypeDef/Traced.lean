import ControllerTypes.Proofs.Resolution.Complete
import ControllerTypes.Proofs.TypeDef.Origin

/-!
# `ControllerTypes.Proofs.TypeDef.Traced`: every struct has an origin

`Origin` and `Properties` say where a struct and its fields come from, if they come from there. This
module proves that nothing is left out. What is converted to an object has properties
(`exists_properties`), and what is converted to something with an object in it has an object inside
(`ways_of_conversion`). So a struct can be traced back, from a spec, a status or a definition to the
type that is reached from it, along the fields on the path (`exists_origin`). The exception is a
type without fields: an enumeration, or the empty status of a resource that never reports one.
-/

set_option autoImplicit false

namespace ControllerTypes

open Document Named

/-! ### Objects have properties -/

namespace Resolution

variable {defs : Definitions} {catalog : Catalog} {before : List String} {d n : String}
  {raw : SchemaObject} {schema : Schema} {fields : List (Field Schema)}

/-- What was converted to an object is seen as one. -/
theorem Conversion.offered_ne_none (h : Conversion defs catalog d raw (.object fields)) :
    offered catalog (finishedBefore defs d) raw ≠ none :=
  h.offers.ne_none_iff.1 (by simp [seen])

/-- A composition of nothing that is not seen as an object has no type. -/
theorem Conversion.unsupported (h : Conversion defs catalog d raw schema)
    (hform : raw.form = .all [] ∨ raw.form = .variants [])
    (hnone : offered catalog (finishedBefore defs d) raw = none) :
    ∃ detail, schema = .unsupported detail := by
  -- Without members there are no parts, so the result is neither an object nor one of the parts.
  obtain ⟨parts, own, hresult, hmembers, _⟩ := h.composed hform
  cases hmembers
  rcases hresult with ⟨_, fields, rfl, _⟩ | ⟨_, _, hdetail | ⟨part, hpart, _⟩⟩
  · exact absurd hnone h.offered_ne_none
  · exact hdetail
  · cases hpart

/-- What is seen as an object has properties. -/
theorem exists_properties (hr : Resolved defs catalog)
    (h : offered catalog (finishedBefore defs d) raw ≠ none) :
    ∃ properties, Properties defs catalog d raw properties := by
  -- A composition sees nothing that was finished later, and stands outside of its members.
  generalize hlength : (finishedBefore defs d).length = length
  induction length using Nat.strong_induction_on generalizing d raw with
  | _ length ih =>
    induction raw using SchemaObject.parts_induction with
    | step raw ihparts =>
      -- The members that are seen as objects give their properties, and the others give none.
      have hgiven {members : List SchemaObject} (hparts : ∀ member ∈ members, member ∈ raw.parts) :
          ∃ given, Given defs catalog d members given := by
        induction members with
        | nil => exact ⟨[], .nil⟩
        | cons member rest ihrest =>
          obtain ⟨hfirst, hrest⟩ := List.forall_mem_cons.1 hparts
          obtain ⟨others, hothers⟩ := ihrest hrest
          cases hoffer : offered catalog (finishedBefore defs d) member with
          | none => exact ⟨others, .nothing hoffer hothers⟩
          | some offer =>
            obtain ⟨properties, hproperties⟩ := ihparts member hfirst (by rw [hoffer]; simp)
            exact ⟨_, .gives hproperties hothers⟩
      have hrule := h
      rw [offered_eq] at hrule
      cases hform : raw.form with
      | reference ref =>
        simp only [hform] at hrule
        -- A reference shows an object that was finished before, so the induction over time takes
        -- over.
        obtain ⟨offer, hoffer⟩ := Option.ne_none_iff_exists'.1 hrule
        obtain ⟨n, hname, hmap⟩ := Option.bind_eq_some_iff.1 hoffer
        obtain ⟨fields, hshown, _⟩ := Option.map_eq_some_iff.1 hmap
        obtain ⟨source, hshows⟩ := exists_shows hshown
        obtain ⟨_, hbefore, ⟨fields', hget⟩, _⟩ := id hshows
        obtain ⟨origin, horigin⟩ := hr.exists_raw hget
        obtain ⟨properties, hproperties⟩ := ih _ (hlength ▸ length_finishedBefore_lt hbefore)
          (hr.conversion horigin hget).offered_ne_none rfl
        exact ⟨properties, .reference hform hname hshows horigin hproperties⟩
      | decorated only =>
        simp only [hform] at hrule
        obtain ⟨properties, hproperties⟩ :=
          ihparts only (by simp [SchemaObject.parts, hform]) hrule
        exact ⟨properties, .decorated hform hproperties⟩
      | all members =>
        obtain ⟨given, hmembers⟩ := hgiven fun _ => mem_parts_of_member (.inl hform)
        exact ⟨_, .composed (.inl hform) h hmembers⟩
      | variants members =>
        obtain ⟨given, hmembers⟩ := hgiven fun _ => mem_parts_of_member (.inr hform)
        exact ⟨_, .composed (.inr hform) h hmembers⟩
      | object properties => exact ⟨_, .object hform⟩
      | enumeration | map | freeMap | array | scalar =>
        simp only [hform] at hrule
        exact absurd rfl hrule

end Resolution

namespace TypeDef

open Resolution

variable {defs : Definitions} {catalog : Catalog} {naming : Naming} {types : List TypeDef}
  {d d' home : String} {raw raw' object : SchemaObject} {schema : Schema} {type : FieldType}
  {t : TypeDef}

/-- An object inside of a schema has properties. -/
theorem Inside.exists_properties (hr : Resolved defs catalog)
    (h : Inside defs catalog d raw home object) :
    ∃ properties, Properties defs catalog home object properties := by
  -- The rules of `Inside` end in an object or in a composition.
  induction h with
  | object hform => exact ⟨_, .object hform⟩
  | composed _ hobject => exact Resolution.exists_properties hr hobject
  | decorated _ _ ih | items _ _ ih | values _ _ ih | first _ _ _ ih => exact ih
  | reference _ _ _ _ _ _ ih => exact ih

/-! ### Objects inside of what was converted -/

/-- What the schema says about objects inside of the one it was converted from. An object has one
inside, and whatever is inside of what a list, a map or a reference leads to is inside of these. -/
def Ways (defs : Definitions) (catalog : Catalog) (d : String) (raw : SchemaObject) :
    Schema → Prop
  | .object _ => ∃ home object, Inside defs catalog d raw home object
  | .array inner | .map inner =>
    (∃ detail, inner = .unsupported detail) ∨
      ∃ d' raw', Conversion defs catalog d' raw' inner ∧ ∀ home object,
        Inside defs catalog d' raw' home object → Inside defs catalog d raw home object
  | .reference n => ∀ target other, catalog.get? n = some target → target.isNamed = false →
      defs.get? n = some other → ∀ home object,
        Inside defs catalog n other home object → Inside defs catalog d raw home object
  | .enumeration _ | .primitive _ | .unsupported _ => True

/-- What is around a schema has the same objects inside. -/
theorem Ways.around (h : Ways defs catalog d' raw' schema)
    (haround : ∀ home object, Inside defs catalog d' raw' home object →
      Inside defs catalog d raw home object) : Ways defs catalog d raw schema := by
  cases schema with
  | object fields =>
    obtain ⟨home, object, hinside⟩ := h
    exact ⟨home, object, haround home object hinside⟩
  | array inner | map inner =>
    refine h.imp_right ?_
    -- The element stays where it is. What is inside of it is inside of more.
    rintro ⟨d'', raw'', hc, hways⟩
    exact ⟨d'', raw'', hc, fun home object hinside =>
      haround home object (hways home object hinside)⟩
  | reference n =>
    exact fun target other hget hnamed hraw home object hinside =>
      haround home object (h target other hget hnamed hraw home object hinside)
  | enumeration | primitive | unsupported => trivial

/-- A conversion leads inside of what it converts. -/
theorem ways_of_conversion (hr : Resolved defs catalog) (h : Conversion defs catalog d raw schema) :
    Ways defs catalog d raw schema := by
  -- A definition that stands in the place of a reference to it was finished before.
  generalize hlength : (finishedBefore defs d).length = length
  induction length using Nat.strong_induction_on generalizing d raw schema with
  | _ length ih =>
    induction raw using SchemaObject.parts_induction generalizing schema with
    | step raw ihparts =>
      -- A composition is an object, or it is converted as its first member.
      have hcomposed {members : List SchemaObject}
          (hform : raw.form = .all members ∨ raw.form = .variants members) :
          Ways defs catalog d raw schema := by
        by_cases hobject : offered catalog (finishedBefore defs d) raw = none
        · cases members with
          | nil =>
            obtain ⟨detail, rfl⟩ := h.unsupported hform hobject
            trivial
          | cons first rest =>
            have hfirst := h.first hform hobject
            exact (ihparts first (mem_parts_of_member hform List.mem_cons_self) hfirst).around
              fun home object hinside => .first hform hobject hinside
        · obtain ⟨fields, rfl⟩ := h.exists_fields hform hobject
          exact ⟨d, raw, .composed hform hobject⟩
      have hrule := h.of_form
      cases hform : raw.form with
      | reference ref =>
        simp only [hform] at hrule
        obtain ⟨n, hname, ⟨hbefore, target, hget, rfl⟩ | ⟨_, _, rfl⟩⟩ := hrule
        · obtain ⟨other, hraw⟩ := hr.exists_raw hget
          -- A definition that is a type stays a reference, and nothing is said about those.
          cases hnamed : target.isNamed with
          | true =>
            rw [referenceTo, if_pos hnamed]
            intro target' other hget' hnamed'
            cases hget.symm.trans hget'
            cases hnamed.symm.trans hnamed'
          | false =>
            rw [referenceTo, if_neg (by simp [hnamed])]
            exact (ih _ (hlength ▸ length_finishedBefore_lt hbefore) (hr.conversion hraw hget)
              rfl).around fun home object hinside =>
                .reference hform hname hget hnamed hraw hinside
        · exact fun target other hget hnamed hraw home object hinside =>
            .reference hform hname hget hnamed hraw hinside
      | decorated only =>
        simp only [hform] at hrule
        exact (ihparts only (by simp [SchemaObject.parts, hform]) hrule).around
          fun home object hinside => .decorated hform hinside
      | all members => exact hcomposed (.inl hform)
      | variants members => exact hcomposed (.inr hform)
      | enumeration literals =>
        simp only [hform] at hrule
        subst hrule
        trivial
      | map values =>
        simp only [hform] at hrule
        obtain ⟨value, rfl, hvalue⟩ := hrule
        exact .inr ⟨d, values, hvalue, fun home object hinside => .values hform hinside⟩
      | freeMap =>
        simp only [hform] at hrule
        subst hrule
        exact .inl ⟨_, rfl⟩
      | object properties =>
        simp only [hform] at hrule
        obtain ⟨fields, rfl, _⟩ := hrule
        exact ⟨d, raw, .object hform⟩
      | array items =>
        simp only [hform] at hrule
        obtain ⟨item, rfl, hitem⟩ := hrule
        exact .inr ⟨d, items, hitem, fun home object hinside => .items hform hinside⟩
      | scalar =>
        simp only [hform] at hrule
        subst hrule
        unfold convertScalar
        split <;> trivial

/-! ### From a field to the type it refers to -/

/-- The type has the name of a definition, or it has no fields, or there is an object for it inside
of the schema. -/
def Sourced (defs : Definitions) (catalog : Catalog) (naming : Naming) (t : TypeDef) (d : String)
    (raw : SchemaObject) : Prop :=
  (∃ k, naming.types.get? k = some t.name) ∨ t.fields = [] ∨
    ∃ home object, Inside defs catalog d raw home object

/-- What is around a schema has the same objects inside. -/
theorem Sourced.around (h : Sourced defs catalog naming t d' raw')
    (haround : ∀ home object, Inside defs catalog d' raw' home object →
      Inside defs catalog d raw home object) : Sourced defs catalog naming t d raw := by
  refine h.imp_right fun hrest => hrest.imp_right ?_
  rintro ⟨home, object, hinside⟩
  exact ⟨home, object, haround home object hinside⟩

/-- A type that a field refers to has its source in what the field was converted from. -/
theorem Mirrors.sourced (hr : Resolved defs catalog) (hnodup : (types.map TypeDef.name).Nodup)
    (ht : t ∈ types) {d : String} {raw : SchemaObject} {schema : Schema} {type : FieldType}
    (h : Mirrors catalog naming types schema type) (hc : Conversion defs catalog d raw schema)
    (href : type.referenced? = some t.name) : Sourced defs catalog naming t d raw := by
  have hways := ways_of_conversion hr hc
  match h with
  -- A scalar refers to nothing.
  | .string | .integer | .number | .boolean | .dateTime => cases href
  | .array helement | .map helement =>
    -- Elements without a counterpart have no type. Any other element was converted from something
    -- inside.
    rcases hways with ⟨detail, rfl⟩ | ⟨d', raw', hinner, haround⟩
    · cases helement with
      | lifted _ _ hshape => cases hshape
    · exact (sourced hr hnodup ht helement hinner href).around haround
  | .named _ _ hname => exact .inl ⟨_, hname.trans href⟩
  | .passed hget hnamed htype =>
    obtain ⟨other, hraw⟩ := hr.exists_raw hget
    exact (sourced hr hnodup ht htype (hr.conversion hraw hget) href).around
      (hways _ other hget hnamed hraw)
  | .lifted hu _ hshape =>
    -- No two types share a name, so the type that was lifted is the one at hand.
    obtain rfl := List.inj_on_of_nodup_map hnodup ht hu (Option.some.inj href).symm
    refine .inr ?_
    obtain ⟨name, source, shape⟩ := t
    cases hshape with
    | struct => exact .inr hways
    | enumeration => exact .inl rfl

/-! ### The types of a package -/

section
variable {settings : Settings} {api : ApiDescription} {resources : List Resource}

/-- What is another name of an object leads to one with properties. -/
theorem Home.exists_properties (hr : Resolved defs catalog) (h : Home catalog d home) :
    ∃ raw properties, defs.get? home = some raw ∧ Properties defs catalog home raw properties := by
  obtain ⟨fields, hget⟩ := h.exists_fields
  obtain ⟨raw, hraw⟩ := hr.exists_raw hget
  obtain ⟨properties, hproperties⟩ :=
    Resolution.exists_properties hr (hr.conversion hraw hget).offered_ne_none
  exact ⟨raw, properties, hraw, hproperties⟩

/-- The type has no fields, or it is written for an object in the description. -/
def HasOrigin (defs : Definitions) (catalog : Catalog) (resources : List Resource)
    (types : List TypeDef) (t : TypeDef) : Prop :=
  t.fields = [] ∨ ∃ home raw properties, Origin defs catalog resources types t home raw ∧
    Properties defs catalog home raw properties

/-- The type of a definition has an origin. -/
theorem hasOrigin_of_get? (h : Compiles settings api catalog resources types) (ht : t ∈ types)
    (hname : (Naming.of catalog resources).types.get? d = some t.name) :
    HasOrigin api.definitions catalog resources types t := by
  obtain ⟨schema, htarget⟩ := Naming.exists_target_of_get? h.allExtracted hname
  have hshape := (stands_of_get? h hname htarget).shape_of_mem ht (ordered_of_compiles h).1
  cases schema with
  | object fields =>
    obtain ⟨home, hhome⟩ := exists_home htarget
    obtain ⟨raw, properties, hraw, hproperties⟩ :=
      hhome.exists_properties (resolved_of_resolveAll h.resolved)
    exact .inr ⟨home, raw, properties, .definition ht hname hhome hraw, hproperties⟩
  | enumeration =>
    obtain ⟨name, source, shape⟩ := t
    cases hshape
    exact .inl rfl
  | reference | array | map | primitive | unsupported => cases hshape

/-- The type of a status has an origin, unless the status is empty. -/
theorem hasOrigin_of_status (h : Compiles settings api catalog resources types) (ht : t ∈ types)
    {r : Resource} (hr : r ∈ resources) (hname : t.name = r.statusType) :
    HasOrigin api.definitions catalog resources types t := by
  have hextracted := h.allExtracted.each r hr
  -- Without a definition the status is empty, and so has no fields.
  cases hstatus : r.statusSchemaName with
  | none =>
    have hstands : Stands catalog (.of catalog resources) types t.name r.status :=
      hname ▸ status_stands h hr
    have hshape := hstands.shape_of_mem ht (ordered_of_compiles h).1
    rw [hextracted.status_empty hstatus] at hshape
    obtain ⟨name, source, shape⟩ := t
    cases hshape with
    | struct hfields =>
      cases hfields
      exact .inl rfl
  | some d =>
    obtain ⟨fields, hobject⟩ := hextracted.status_object
    obtain ⟨home, hhome⟩ := exists_home (hobject ▸ hextracted.status_eq d hstatus)
    obtain ⟨raw, properties, hraw, hproperties⟩ :=
      hhome.exists_properties (resolved_of_resolveAll h.resolved)
    exact .inr ⟨home, raw, properties, .status ht hr hname hstatus hhome hraw, hproperties⟩

/-- Every type with an assigned name has an origin. -/
theorem hasOrigin_of_assigned (h : Compiles settings api catalog resources types) (ht : t ∈ types)
    (hassigned : Assigned catalog resources t.name) :
    HasOrigin api.definitions catalog resources types t := by
  -- The name is that of a definition, of a spec or of a status.
  rcases hassigned with ⟨d, _, _, _, hname⟩ | ⟨r, hr, hspec | hstatus⟩
  · exact hasOrigin_of_get? h ht hname
  · exact hasOrigin_of_get? h ht (hspec ▸ Naming.get?_schemaName h.allExtracted hr)
  · exact hasOrigin_of_status h ht hr hstatus

/-- A type has an origin when a type that uses it has one. -/
theorem HasOrigin.uses (h : Compiles settings api catalog resources types) {owner : TypeDef}
    {f : FieldDefinition} (howner : HasOrigin api.definitions catalog resources types owner)
    (hf : f ∈ owner.fields) (ht : t ∈ types) (href : f.type.referenced? = some t.name) :
    HasOrigin api.definitions catalog resources types t := by
  have hr := resolved_of_resolveAll h.resolved
  rcases howner with hnone | ⟨home, raw, properties, horigin, hproperties⟩
  · rw [hnone] at hf
    cases hf
  · have hfields := horigin.fields h hproperties
    -- The field has a property at the same place in the origin of its owner.
    rw [← List.map_snd_zip hfields.length_eq.ge] at hf
    obtain ⟨⟨x, f⟩, hfield, rfl⟩ := List.mem_map.1 hf
    obtain ⟨_, schema, hsite, hmirrors⟩ := List.forall₂_zip hfields hfield
    -- The type is that of a definition, or it is lifted for an object inside of that property.
    rcases hmirrors.sourced hr (ordered_of_compiles h).1 ht hsite href with
      ⟨k, hname⟩ | hnone | ⟨home', object, hinside⟩
    · exact hasOrigin_of_get? h ht hname
    · exact .inl hnone
    · obtain ⟨others, hothers⟩ := hinside.exists_properties hr
      exact .inr ⟨home', object, others,
        .lifted ht horigin hproperties hfield hinside href, hothers⟩

/-- Every struct has an origin, and its origin has properties: only a type without fields is not
traced back to an object in the description. -/
theorem exists_origin (h : Compiles settings api catalog resources types) (ht : t ∈ types) :
    HasOrigin api.definitions catalog resources types t := by
  obtain ⟨w, rfl, _, _, hc⟩ := exists_covers h
  obtain ⟨n, hassigned, hpath⟩ := hc.reached t ht
  -- The induction follows the path from the type with an assigned name.
  generalize hend : t.name = m at hpath
  induction hpath generalizing t with
  | refl => exact hasOrigin_of_assigned h ht (hend ▸ hassigned)
  | tail _ hstep ih =>
    obtain ⟨owner, howner, hname, f, hf, href⟩ := hstep
    exact (ih howner hname).uses h hf ht (hend ▸ href)

end

end TypeDef

end ControllerTypes
