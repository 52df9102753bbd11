import ControllerTypes.Description.Basic
import ControllerTypes.Json.Printer
import ControllerTypes.Named
import ControllerTypes.Settings

/-!
# `ControllerTypes.Description.OfDocument`: reading a document as a description

The two versions of the format put the same things in different places: a request body is a
parameter that travels in `body` or a `requestBody`, a response has its schema directly or under a
media type, and schemas stand under `definitions` or under `components`. `Document.describe` looks
in all of them.

A body counts only if its schema is a reference to a definition, which `definitionName?` reads off
the reference. A shared body or response that is not there, or refers elsewhere, counts as no body.

`definitionName?` is `schema_ref_name`, `requestDefinition?` is `request_body_name`,
`namedResponses` is `response_names`, `operations` is `collect_operations`, `Info.describe` is
`convert_info`, and `describe` is `convert_document`.
-/

set_option autoImplicit false

namespace ControllerTypes

/-- The part of a text behind a given beginning. -/
def afterStart? (start text : String) : Option String :=
  if start.toList <+: text.toList then
    some (String.ofList (text.toList.drop start.toList.length))
  else none

namespace Document

/-- The definition a schema reference names: `Pod` for `#/definitions/Pod` or
`#/components/schemas/Pod`. -/
def definitionName? (ref : String) : Option String :=
  ((afterStart? "#/definitions/" ref).or (afterStart? "#/components/schemas/" ref)).filter
    fun name => name != ""

/-- The definition a schema refers to. -/
def SchemaObject.definition? (schema : SchemaObject) : Option String :=
  schema.ref.bind definitionName?

/-- The definition in the JSON body of a content, or in its first body if none is JSON. -/
def contentDefinition? (content : List (String × MediaType)) : Option String :=
  let json := content.find? fun m => isInfix "json".toList m.1.toList
  (json.or content.head?).bind fun m => m.2.schema.bind SchemaObject.definition?

/-- The definition of a request body. -/
def bodyDefinition? (shared : Option Components) (body : RequestBody) : Option String :=
  match body.ref with
  | none => contentDefinition? body.content
  | some ref => do
    let name ← afterStart? "#/components/requestBodies/" ref
    let target ← Named.get? (← shared).requestBodies name
    contentDefinition? target.content

/-- The definition that an operation of the path takes as its request body. -/
def requestDefinition? (shared : Option Components) (item : PathItem) (op : Operation) :
    Option String :=
  let parameter := (op.parameters ++ item.parameters).find? fun p => p.location == "body"
  (parameter.bind fun p => p.schema.bind SchemaObject.definition?).or
    (op.requestBody.bind (bodyDefinition? shared))

/-- The definition of a response. -/
def responseDefinition? (shared : Option Components) (response : Response) : Option String := do
  let target ←
    match response.ref with
    | none => some response
    | some ref => do
      let name ← afterStart? "#/components/responses/" ref
      Named.get? (← shared).responses name
  match target.schema with
  -- A schema without a name counts too, so the content is not asked any more.
  | some schema => schema.definition?
  | none => contentDefinition? target.content

/-- The responses of an operation that are kept. -/
def namedResponses (shared : Option Components) (op : Operation) : List ApiResponse :=
  let kept := op.responses.filter fun r => isSuccess r.1 || r.1 == "default"
  kept.filterMap fun (status, response) =>
    (responseDefinition? shared response).map fun schema => ⟨status, schema⟩

/-- The operations of a path under their methods. -/
def PathItem.operations (item : PathItem) : List (Method × Operation) :=
  [(Method.get, item.get), (.put, item.put), (.post, item.post), (.delete, item.delete),
   (.patch, item.patch), (.head, item.head)].filterMap fun (method, op) => op.map (method, ·)

/-- The operations of a document. -/
def operations (doc : Document) : List ApiOperation :=
  doc.paths.flatMap fun (path, item) =>
    item.operations.map fun (method, op) =>
      { path, method, operationId := op.operationId,
        requestBody := requestDefinition? doc.components item op,
        responses := namedResponses doc.components op }

/-- The text of an alias: a string itself, and any other value as JSON without quotation marks. -/
def aliasText : Json → String
  | .string s => s
  | v => Settings.unquote v.render

/-- What a document says about itself, with the alias taken from the given extension. -/
def Info.describe (info : Info) (aliasExtension : String) : ApiInfo :=
  let extensions := info.extra.filter fun m => ['x', '-'].isPrefixOf m.1.toList
  { title := info.title, version := info.version, extensions,
    serviceAlias := (Named.get? extensions aliasExtension).map aliasText }

/-- The schemas of both versions; of two with one name the first is kept. -/
def schemas (doc : Document) : Definitions :=
  let shared := (doc.components.map Components.schemas).getD []
  (doc.definitions ++ shared).foldl (fun all x => all.insertNew x.1 x.2) .empty

/-- The description a document gives. -/
def describe (doc : Document) (settings : Settings) : ApiDescription where
  info := doc.info.describe settings.aliasExtension
  definitions := doc.schemas
  operations := doc.operations

end Document

end ControllerTypes
