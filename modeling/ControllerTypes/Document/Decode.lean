import ControllerTypes.Document.Basic
import ControllerTypes.Document.Fault
import ControllerTypes.Named

/-!
# `ControllerTypes.Document.Decode`: from a value to a document

Decoding goes through the members of an object in document order and stops at the first that does
not fit. Members nobody asks for are passed over. An object other than the document itself and its
`info` may also be written as the list of its members in the order in which they are declared here;
trailing ones may be left out. `null` is accepted only where a member is optional.

`record` does all this for any object, given one `Slot` per member. A slot is handed the proof that
the value it reads is smaller than the object, so decoders of nested schemas can call themselves.

* `decodeSchema` reads one schema object, `decode` a whole document.
-/

set_option autoImplicit false

namespace ControllerTypes.Document

/-! ### Scalars and collections -/

/-- A string. -/
def decodeString : Json → Except Fault String
  | .string s => .ok s
  | v => .error (.wrongKind v .string)

/-- A boolean. -/
def decodeBool : Json → Except Fault Bool
  | .bool b => .ok b
  | v => .error (.wrongKind v .boolean)

/-- Nothing for `null`, and otherwise what `read` makes of the value. -/
def optional {α : Type} (read : Json → Except Fault α) : Json → Except Fault (Option α)
  | .null => .ok none
  | v => (read v).map some

/-- An item is smaller than the array it stands in, so reading it ends. -/
theorem sizeOf_item_lt {items : List Json} {v : Json} (h : v ∈ items) :
    sizeOf v < sizeOf (Json.array items) := by
  have := List.sizeOf_lt_of_mem h
  simp only [Json.array.sizeOf_spec]
  omega

/-- So is the value of a member of an object. -/
theorem sizeOf_member_lt {members : List (String × Json)} {m : String × Json} (h : m ∈ members) :
    sizeOf m.2 < sizeOf (Json.object members) := by
  have := List.sizeOf_lt_of_mem h
  have hm : sizeOf m = 1 + sizeOf m.1 + sizeOf m.2 := by cases m; rfl
  simp only [Json.object.sizeOf_spec]
  omega

/-- The items of an array. -/
def listOf {α : Type} (json : Json)
    (read : (v : Json) → sizeOf v < sizeOf json → Except Fault α) : Except Fault (List α) :=
  match json with
  | .array items => items.attach.mapM fun ⟨v, h⟩ => read v (sizeOf_item_lt h)
  | v => .error (.wrongKind v .sequence)

/-- The members of a map under their names, of which none comes twice. -/
def mapOf {α : Type} (json : Json)
    (read : (v : Json) → sizeOf v < sizeOf json → Except Fault α) :
    Except Fault (List (String × α)) :=
  match json with
  | .object members => do
    let read ← members.attach.mapM fun ⟨m, h⟩ =>
      (read m.2 (sizeOf_member_lt h)).map fun v => (m.1, v)
    return Named.ofList read
  | v => .error (.wrongKind v .map)

/-- The items of an array, each read on its own. -/
def decodeList {α : Type} (read : Json → Except Fault α) (json : Json) : Except Fault (List α) :=
  listOf json fun v _ => read v

/-- The members of a map, each read on its own. -/
def decodeMap {α : Type} (read : Json → Except Fault α) (json : Json) :
    Except Fault (List (String × α)) :=
  mapOf json fun v _ => read v

/-! ### Objects -/

/-- A member of an object: its name, and how its value goes into what was read so far. -/
structure Slot (json : Json) (ρ : Type) where
  name : String
  read : (v : Json) → sizeOf v < sizeOf json → ρ → Except Fault ρ

/-- A member whose value is read without regard to where it stands. -/
def slot {json : Json} {ρ α : Type} (name : String) (read : Json → Except Fault α)
    (put : ρ → α → ρ) : Slot json ρ :=
  ⟨name, fun v _ r => (read v).map (put r)⟩

/-- An object given as a map, by its members. -/
def readMembers {ρ : Type} (members : List (String × Json)) (empty : ρ)
    (slots : List (Slot (.object members) ρ)) : Except Fault ρ :=
  members.attach.foldlM
    (fun r ⟨m, h⟩ =>
      match slots.find? (·.name == m.1) with
      | some s => s.read m.2 (sizeOf_member_lt h) r
      | none => .ok r)
    empty

/-- An object given as a list, by the order of its members. -/
def readItems {ρ : Type} (items : List Json) (empty : ρ) (slots : List (Slot (.array items) ρ)) :
    Except Fault ρ :=
  let read := (items.attach.zip slots).foldlM
    (fun r (⟨v, h⟩, s) => s.read v (sizeOf_item_lt h) r) empty
  -- Items too many are found only after those that have a place were read.
  if slots.length < items.length then read.bind fun _ => .error (.tooManyItems items.length)
  else read

/-- An object in either form. -/
def record {ρ : Type} (name : String) (json : Json) (empty : ρ) (slots : List (Slot json ρ)) :
    Except Fault ρ :=
  match json, slots with
  | .object members, slots => readMembers members empty slots
  | .array items, slots => readItems items empty slots
  | v, _ => .error (.wrongKind v (.record name))

/-! ### Schemas -/

/-- A type name or a list of them. -/
def decodeType (json : Json) : Except Fault TypeSpec :=
  match decodeString json, decodeList decodeString json with
  | .ok name, _ => .ok (.single name)
  | _, .ok names => .ok (.multiple names)
  | _, _ => .error (.noForm "TypeSpec")

/-- A schema object. -/
def decodeSchema (json : Json) : Except Fault SchemaObject :=
  record "SchemaObject" json {}
    [slot "$ref" (optional decodeString) fun s v => { s with ref := v },
     slot "type" (optional decodeType) fun s v => { s with type := v },
     slot "format" (optional decodeString) fun s v => { s with format := v },
     slot "description" (optional decodeString) fun s v => { s with description := v },
     ⟨"properties", fun v _ s =>
      (mapOf v fun w _ => decodeSchema w).map fun ps => { s with properties := ps }⟩,
     slot "required" (decodeList decodeString) fun s v => { s with required := v },
     ⟨"items", fun v _ s =>
      match v with
      | .null => .ok { s with items := none }
      | w => (decodeSchema w).map fun i => { s with items := some i }⟩,
     ⟨"additionalProperties", fun v _ s =>
      match v with
      | .null => .ok { s with additionalProperties := none }
      | .bool flag => .ok { s with additionalProperties := some (.allowed flag) }
      | w =>
        -- A flag or a schema: when it is neither, the faults inside are not told.
        match decodeSchema w with
        | .ok values => .ok { s with additionalProperties := some (.schema values) }
        | .error _ => .error (.noForm "AdditionalProperties")⟩,
     slot "enum" (decodeList .ok) fun s v => { s with literals := v },
     ⟨"allOf", fun v _ s =>
      (listOf v fun w _ => decodeSchema w).map fun xs => { s with allOf := xs }⟩,
     ⟨"oneOf", fun v _ s =>
      (listOf v fun w _ => decodeSchema w).map fun xs => { s with oneOf := xs }⟩,
     ⟨"anyOf", fun v _ s =>
      (listOf v fun w _ => decodeSchema w).map fun xs => { s with anyOf := xs }⟩]
termination_by sizeOf json
decreasing_by all_goals omega

/-! ### The other objects -/

/-- The body of one media type. -/
def decodeMediaType (json : Json) : Except Fault MediaType :=
  record "MediaType" json {}
    [slot "schema" (optional decodeSchema) fun m v => { m with schema := v }]

/-- A request body. -/
def decodeRequestBody (json : Json) : Except Fault RequestBody :=
  record "RequestBody" json {}
    [slot "$ref" (optional decodeString) fun b v => { b with ref := v },
     slot "content" (decodeMap decodeMediaType) fun b v => { b with content := v }]

/-- A response. -/
def decodeResponse (json : Json) : Except Fault Response :=
  record "Response" json {}
    [slot "$ref" (optional decodeString) fun r v => { r with ref := v },
     slot "description" (optional decodeString) fun r v => { r with description := v },
     slot "content" (decodeMap decodeMediaType) fun r v => { r with content := v },
     slot "schema" (optional decodeSchema) fun r v => { r with schema := v }]

/-- A parameter. -/
def decodeParameter (json : Json) : Except Fault Parameter :=
  record "Parameter" json {}
    [slot "name" decodeString fun p v => { p with name := v },
     slot "in" decodeString fun p v => { p with location := v },
     slot "required" decodeBool fun p v => { p with required := v },
     slot "schema" (optional decodeSchema) fun p v => { p with schema := v }]

/-- An operation. -/
def decodeOperation (json : Json) : Except Fault Operation :=
  record "Operation" json {}
    [slot "operationId" (optional decodeString) fun o v => { o with operationId := v },
     slot "summary" (optional decodeString) fun o v => { o with summary := v },
     slot "parameters" (decodeList decodeParameter) fun o v => { o with parameters := v },
     slot "requestBody" (optional decodeRequestBody) fun o v => { o with requestBody := v },
     slot "responses" (decodeMap decodeResponse) fun o v => { o with responses := v }]

/-- The operations of a path. -/
def decodePathItem (json : Json) : Except Fault PathItem :=
  record "PathItem" json {}
    [slot "get" (optional decodeOperation) fun p v => { p with get := v },
     slot "put" (optional decodeOperation) fun p v => { p with put := v },
     slot "post" (optional decodeOperation) fun p v => { p with post := v },
     slot "delete" (optional decodeOperation) fun p v => { p with delete := v },
     slot "patch" (optional decodeOperation) fun p v => { p with patch := v },
     slot "head" (optional decodeOperation) fun p v => { p with head := v },
     slot "parameters" (decodeList decodeParameter) fun p v => { p with parameters := v }]

/-- The shared parts of a document. -/
def decodeComponents (json : Json) : Except Fault Components :=
  record "Components" json {}
    [slot "schemas" (decodeMap decodeSchema) fun c v => { c with schemas := v },
     slot "requestBodies" (decodeMap decodeRequestBody) fun c v => { c with requestBodies := v },
     slot "responses" (decodeMap decodeResponse) fun c v => { c with responses := v }]

/-- What a document says about itself. It has no list form, and keeps members of other names. -/
def decodeInfo : Json → Except Fault Info
  | .object members =>
    members.foldlM
      (fun info (name, v) =>
        match name with
        | "title" => (decodeString v).map fun t => { info with title := t }
        | "version" => (decodeString v).map fun t => { info with version := t }
        | "description" => (optional decodeString v).map fun t => { info with description := t }
        | _ => .ok { info with extra := info.extra ++ [(name, v)] })
      {}
  | v => .error (.wrongKind v (.record "Info"))

/-- A whole document from the members of its root. -/
def decode (members : List (String × Json)) : Except Fault Document :=
  readMembers members {}
    [slot "swagger" (optional decodeString) fun d v => { d with swagger := v },
     slot "openapi" (optional decodeString) fun d v => { d with openapi := v },
     slot "info" decodeInfo fun d v => { d with info := v },
     slot "paths" (decodeMap decodePathItem) fun d v => { d with paths := v },
     slot "definitions" (decodeMap decodeSchema) fun d v => { d with definitions := v },
     slot "components" (optional decodeComponents) fun d v => { d with components := v }]

end ControllerTypes.Document
