import ControllerTypes.Document.Basic
import ControllerTypes.Named

/-!
# `ControllerTypes.Description.Basic`: what an API description comes down to

Whatever version a document is written in, three things are left of it: what it says about itself,
its named schemas, and its operations. Only request and response bodies that name a definition are
kept, because a body without a name cannot become a resource.

These are `ApiDescription`, `ApiOperation` and `OperationResponse`. `ApiOperation.successResponse?`
is `success_response`; `references` and `label` keep their names.
-/

set_option autoImplicit false

namespace ControllerTypes

/-- The methods of operations. -/
inductive Method where
  | get
  | put
  | post
  | delete
  | patch
  | head
  deriving DecidableEq, Repr

/-- The method in capitals. -/
def Method.upper : Method → String
  | get => "GET"
  | put => "PUT"
  | post => "POST"
  | delete => "DELETE"
  | patch => "PATCH"
  | head => "HEAD"

/-- A response whose body is a named definition. -/
structure ApiResponse where
  /-- The status code, or `default`. -/
  status : String
  /-- The name of the definition. -/
  schema : String
  deriving DecidableEq, Repr

/-- An operation: a path and a method. -/
structure ApiOperation where
  path : String
  method : Method
  operationId : Option String
  /-- The definition the request body names. -/
  requestBody : Option String
  /-- The successful and the default responses that name a definition, in document order. -/
  responses : List ApiResponse
  deriving DecidableEq, Repr

/-- What a document says about itself. -/
structure ApiInfo where
  title : String
  version : String
  /-- The short name of the service, from the extension the settings name. -/
  serviceAlias : Option String
  /-- The extensions: the members whose names begin with `x-`. -/
  extensions : List (String × Json)
  deriving Repr

/-- The schemas of a document under their names, in document order. -/
abbrev Definitions := Named.Table Document.SchemaObject

/-- A whole description. -/
structure ApiDescription where
  info : ApiInfo
  definitions : Definitions
  /-- The operations, in document order. -/
  operations : List ApiOperation

/-- The status is one of success: it begins with a 2. -/
def isSuccess (status : String) : Bool := status.toList.head? == some '2'

namespace ApiOperation

/-- The definition of the first response with a success status, or else of the default response. -/
def successResponse? (op : ApiOperation) : Option String :=
  let success := op.responses.find? fun r => isSuccess r.status
  (success.or (op.responses.find? fun r => r.status == "default")).map ApiResponse.schema

/-- The request or some response has the definition as its body. -/
def references (op : ApiOperation) (definition : String) : Bool :=
  op.requestBody == some definition || op.responses.any fun r => r.schema == definition

/-- The name by which messages call the operation. -/
def label (op : ApiOperation) : String :=
  match op.operationId with
  | some id => id
  | none => op.method.upper ++ " " ++ op.path

end ApiOperation

end ControllerTypes
