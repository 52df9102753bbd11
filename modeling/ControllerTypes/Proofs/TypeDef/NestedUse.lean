import ControllerTypes.Proofs.Resolution.Equations
import ControllerTypes.Proofs.TypeDef.Origin

/-!
# `ControllerTypes.Proofs.TypeDef.NestedUse`: what becomes of a resource inside of other objects

A field whose property is a reference to a definition has the type of the object at the end of the
chain of names that begins there (`Mirrors.referenced`, `PlainUse.referenced`). The definition of a
resource is known to the walk by the name of its spec, and no other definition is. So a field with a
reference to a resource refers to the spec exactly if the definition of the resource is an object
itself, and not another name of one (`nested_use_iff`). The theorem speaks of structs with an origin,
and `ControllerTypes.Proofs.TypeDef.Traced` proves that every struct with fields has one.

`gadget_not_used_as_spec` is a description in which a resource is another name of an object. The
object is written once more under its own name, and that is the type which fields get.
-/

set_option autoImplicit false

namespace ControllerTypes.TypeDef

open Document Resolution

/-- The schema is a reference to the definition and nothing else, or a list or a map of such. -/
inductive PlainUse : SchemaObject → String → Prop where
  | reference {raw : SchemaObject} {ref n : String} (href : raw.ref = some ref)
      (hname : definitionName? ref = some n) : PlainUse raw n
  | items {raw items : SchemaObject} {n : String} (hform : raw.form = .array items)
      (hitems : PlainUse items n) : PlainUse raw n
  | values {raw values : SchemaObject} {n : String} (hform : raw.form = .map values)
      (hvalues : PlainUse values n) : PlainUse raw n

section
variable {defs : Definitions} {catalog : Catalog} {naming : Naming} {types : List TypeDef}
  {d n home : String} {raw : SchemaObject} {schema : Schema} {type : FieldType}

/-- What stands for a reference has the type of the object at the end of the chain of names. -/
theorem Mirrors.referenced (hm : Mirrors catalog naming types (.reference n) type)
    (h : Home catalog n home) : type.referenced? = naming.types.get? home := by
  -- The chain of names is followed by `Mirrors.passed`, one name at a time.
  induction h generalizing type with
  | here hget =>
    cases hm with
    | named _ _ hname => exact hname.symm
    | passed hget' hnamed =>
      cases hget.symm.trans hget'
      cases hnamed
    | lifted _ _ hshape => cases hshape
  | renamed hget _ ih =>
    cases hm with
    | named hget' hnamed =>
      cases hget.symm.trans hget'
      cases hnamed
    | passed hget' _ htype =>
      cases hget.symm.trans hget'
      exact ih htype
    -- A reference is no object, so nothing was lifted for it.
    | lifted _ _ hshape => cases hshape

/-- Whatever was put in the place of a reference, the type there is that of the object at the end
of the chain of names. -/
theorem referenced_of_standsFor (hs : StandsFor defs catalog d n schema) (h : Home catalog n home)
    (hm : Mirrors catalog naming types schema type) :
    type.referenced? = naming.types.get? home := by
  -- The reference was replaced by what the definition was resolved to, or it stayed as it was.
  rcases hs with ⟨_, target, hget, rfl⟩ | ⟨_, _, rfl⟩
  · -- If the definition was replaced, the chain of names begins one name later, or has ended.
    cases h with
    | here hget' =>
      cases hget.symm.trans hget'
      exact hm.referenced (.here hget)
    | renamed hget' hnext =>
      cases hget.symm.trans hget'
      exact hm.referenced hnext
  · exact hm.referenced h

/-- The same under any number of lists and maps. -/
theorem PlainUse.referenced (hu : PlainUse raw n) (hc : Conversion defs catalog d raw schema)
    (h : Home catalog n home) (hm : Mirrors catalog naming types schema type) :
    type.referenced? = naming.types.get? home := by
  induction hu generalizing schema type with
  | reference href hname =>
    have hrule := hc.of_form
    simp only [form_of_ref href] at hrule
    -- The name in the reference is the only one it has.
    obtain ⟨n, hname', hstands⟩ := hrule
    cases hname.symm.trans hname'
    exact referenced_of_standsFor hstands h hm
  | items hform _ ih =>
    have hrule := hc.of_form
    simp only [hform] at hrule
    obtain ⟨item, rfl, hitem⟩ := hrule
    cases hm with
    | array helement =>
      have hlist := ih hitem h helement
      exact hlist
    | lifted _ _ hshape => cases hshape
  | values hform _ ih =>
    have hrule := hc.of_form
    simp only [hform] at hrule
    obtain ⟨value, rfl, hvalue⟩ := hrule
    cases hm with
    | map helement =>
      have hmap := ih hvalue h helement
      exact hmap
    | lifted _ _ hshape => cases hshape

end

section
variable {settings : Settings} {api : ApiDescription} {catalog : Catalog}
  {resources : List Resource} {types : List TypeDef}

/-- The fields of a struct are the properties of its origin, one for one and in order. A field whose
property refers to the definition of a resource, under any number of lists and maps, refers to the
spec of that resource exactly if the definition is an object itself. -/
theorem nested_use_iff (h : Compiles settings api catalog resources types) {t : TypeDef}
    {home : String} {raw : SchemaObject}
    (ho : Origin api.definitions catalog resources types t home raw)
    {properties : List (String × Site)}
    (hproperties : Properties api.definitions catalog home raw properties) :
    List.Forall₂ (fun x f => f.jsonName = x.1 ∧
      ∀ r ∈ resources, PlainUse x.2.raw r.schemaName →
        (f.type.referenced? = some r.specType ↔
          ∃ fields, catalog.get? r.schemaName = some (.object fields)))
      properties t.fields := by
  refine (ho.fields h hproperties).imp ?_
  rintro x f ⟨hname, schema, hconverted, hmirrors⟩
  refine ⟨hname, fun r hr huse => ?_⟩
  have hx := h.allExtracted
  -- The spec of the resource is an object, so a chain of names leads from its definition to one.
  obtain ⟨fields, hspec⟩ := (hx.each r hr).spec_object
  obtain ⟨end', hhome⟩ := exists_home (hspec ▸ (hx.each r hr).spec_eq)
  have hspecName := Naming.get?_schemaName hx hr
  rw [huse.referenced hconverted hhome hmirrors]
  constructor
  · -- No two definitions share a name, so the end of the chain is the definition itself.
    intro hreferred
    obtain rfl := (Naming.proper_of hx).injective hreferred hspecName
    exact hhome.exists_fields
  · rintro ⟨fields', hget⟩
    cases hhome with
    | here => exact hspecName
    | renamed hget' _ => cases hget.symm.trans hget'

end

/-! ### A resource that is another name of an object

Gadgets are devices by another name, and both gadgets and racks are created. A rack has a gadget in
front, and smaller racks in it. -/

namespace Workshop

/-- A device has a serial number. -/
def device : SchemaObject where
  properties := [("serial", { type := some (.single "string") })]

/-- What is in front of a rack is a gadget. -/
def frontUse : SchemaObject where
  ref := "#/definitions/Gadget"

/-- The racks in a rack. -/
def racksUse : SchemaObject where
  type := some (.single "array")
  items := some { ref := "#/definitions/Rack" }

/-- A rack has a gadget in front, and racks in it. -/
def rack : SchemaObject where
  properties := [("front", frontUse), ("racks", racksUse)]

/-- Devices, gadgets and racks, and the operations that create the latter two. -/
def api : ApiDescription where
  info := ⟨"Workshop", "1", none, []⟩
  definitions := .ofList
    [("Device", device), ("Gadget", { ref := "#/definitions/Device" }), ("Rack", rack)]
  operations :=
    [⟨"/gadgets", .post, some "CreateGadget", some "Gadget", []⟩,
     ⟨"/racks", .post, some "CreateRack", some "Rack", []⟩]

def deviceFields : List (Field Schema) := [⟨"serial", .primitive .string, false⟩]

def rackFields : List (Field Schema) :=
  [⟨"front", .reference "Device", false⟩, ⟨"racks", .array (.reference "Rack"), false⟩]

/-- A gadget is a reference to a device, and the front of a rack has become a device. -/
def catalog : Catalog := .ofList
  [("Device", .object deviceFields), ("Gadget", .reference "Device"), ("Rack", .object rackFields)]

/-- Gadgets are created. -/
def gadgetResource : Resource where
  kind := "Gadget"
  plural := "gadgets"
  schemaName := "Gadget"
  spec := .object deviceFields
  status := .emptyObject
  statusSchemaName := none
  operations := [.create]
  specType := "GadgetSpec"
  statusType := "GadgetStatus"

/-- Racks are created. -/
def rackResource : Resource where
  kind := "Rack"
  plural := "racks"
  schemaName := "Rack"
  spec := .object rackFields
  status := .emptyObject
  statusSchemaName := none
  operations := [.create]
  specType := "RackSpec"
  statusType := "RackStatus"

def resources : List Resource := [gadgetResource, rackResource]

def serial : FieldDefinition := ⟨"Serial", "serial", .string, false, false⟩

def front : FieldDefinition := ⟨"Front", "front", .reference "Device", false, false⟩

def racks : FieldDefinition := ⟨"Racks", "racks", .list (.reference "RackSpec"), false, true⟩

/-- The spec of a rack refers to a device and to itself. -/
def rackSpec : TypeDef := ⟨"RackSpec", "Rack", .struct [front, racks]⟩

/-- Devices are written under a name of their own besides the spec of gadgets. -/
def types : List TypeDef :=
  [⟨"GadgetSpec", "Gadget", .struct [serial]⟩, ⟨"GadgetStatus", "Gadget.status", .struct []⟩,
   ⟨"Device", "Device", .struct [serial]⟩, rackSpec, ⟨"RackStatus", "Rack.status", .struct []⟩]

/-- Workshops compile. -/
theorem compiles : Compiles {} api catalog resources types where
  resolved := by cbv
  extracted := by cbv
  written := by cbv

/-- The spec of a rack is written for the definition. -/
theorem origin : Origin api.definitions catalog resources types rackSpec "Rack" rack := by
  have hget : catalog.get? "Rack" = some (.object rackFields) := by cbv
  exact .definition (by decide) (by cbv) (.here hget) (by cbv)

/-- A rack has the properties it says it has. -/
theorem properties : Properties api.definitions catalog "Rack" rack
    [("front", ⟨"Rack", frontUse⟩), ("racks", ⟨"Rack", racksUse⟩)] :=
  .object (show rack.form = .object rack.properties by cbv)

/-- The front is a reference to a gadget and nothing else. -/
theorem front_use : PlainUse frontUse "Gadget" := .reference rfl (by cbv)

/-- The racks are a list of references to a rack. -/
theorem racks_use : PlainUse racksUse "Rack" := by
  have hform : racksUse.form = .array { ref := "#/definitions/Rack" } := by cbv
  exact .items hform (.reference rfl (by cbv))

end Workshop

/-- The racks in a rack refer to its spec, and what is in front of a rack does not refer to the spec
of gadgets. -/
theorem rack_used_as_spec :
    Compiles {} Workshop.api Workshop.catalog Workshop.resources Workshop.types ∧
    Workshop.racks.type.referenced? = some Workshop.rackResource.specType ∧
    Workshop.front.type.referenced? ≠ some Workshop.gadgetResource.specType := by
  have hfields := nested_use_iff Workshop.compiles Workshop.origin Workshop.properties
  -- The two fields are taken out of the correspondence by their places.
  obtain ⟨_, hfront⟩ := List.forall₂_zip hfields (a := ("front", ⟨"Rack", Workshop.frontUse⟩))
    (b := Workshop.front) List.mem_cons_self
  obtain ⟨_, hracks⟩ := List.forall₂_zip hfields (a := ("racks", ⟨"Rack", Workshop.racksUse⟩))
    (b := Workshop.racks) (List.mem_cons_of_mem _ List.mem_cons_self)
  refine ⟨Workshop.compiles, ?_, ?_⟩
  · refine (hracks Workshop.rackResource ?_ Workshop.racks_use).2 ⟨Workshop.rackFields, by cbv⟩
    exact List.mem_cons_of_mem _ List.mem_cons_self
  · -- If the front were of the spec of gadgets, `Gadget` would be an object.
    intro href
    obtain ⟨fields, hget⟩ :=
      (hfront Workshop.gadgetResource List.mem_cons_self Workshop.front_use).1 href
    have halias : Workshop.catalog.get? "Gadget" = some (.reference "Device") := by cbv
    cases halias.symm.trans hget

/-- A field can refer to something else than the spec of a resource, although its property is a
reference to the definition of that resource. -/
theorem gadget_not_used_as_spec :
    ¬ ∀ (settings : Settings) (api : ApiDescription) (catalog : Catalog)
      (resources : List Resource) (types : List TypeDef),
      Compiles settings api catalog resources types →
      ∀ (t : TypeDef) (home : String) (raw : SchemaObject) (properties : List (String × Site)),
        Origin api.definitions catalog resources types t home raw →
        Properties api.definitions catalog home raw properties →
        List.Forall₂ (fun x f => f.jsonName = x.1 ∧
          ∀ r ∈ resources, PlainUse x.2.raw r.schemaName →
            f.type.referenced? = some r.specType) properties t.fields := by
  intro halways
  obtain ⟨_, hfront⟩ := List.forall₂_zip
    (halways _ _ _ _ _ Workshop.compiles _ _ _ _ Workshop.origin Workshop.properties)
    (a := ("front", ⟨"Rack", Workshop.frontUse⟩)) (b := Workshop.front) List.mem_cons_self
  have href := hfront Workshop.gadgetResource List.mem_cons_self Workshop.front_use
  exact absurd href (by decide)

end ControllerTypes.TypeDef
