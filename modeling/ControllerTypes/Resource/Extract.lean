import ControllerTypes.Error
import ControllerTypes.Name.Barred
import ControllerTypes.Name.Identifier
import ControllerTypes.Name.Plural
import ControllerTypes.Resolution.Catalog
import ControllerTypes.Resource.Basic
import ControllerTypes.Settings

/-!
# `ControllerTypes.Resource.Extract`: which definitions are resources

An operation that creates or updates nominates a definition: its request body, or the body of its
success response when the request has none. Every nominated definition has to be there, and unless
it is ignored it has to stand for an object; then it is a resource with that object as its spec.

A resource is known by several nouns: its own name and those of the operations that nominated it.
`Extraction.concerns` is true of the operations that carry the definition or share a noun with it.
They decide what can be done with the resource, and the first read among them reports its status,
one that reads a single item before any that lists them.

Resources come in the order of the definitions. A kind must not repeat an earlier one, and neither
may its file, so both are given out as fresh names.

`ApiOperation.nominee?` is what `nominate` collects, `nouns` is `resource_nouns`, `concerns` is
`matches_resource`, `pairedRead?` is `paired_read`, `supported` is `supported_operations`, and
`resources` is `extract_resources`.
-/

set_option autoImplicit false

namespace ControllerTypes

open Name

namespace ApiOperation

/-- The definition the operation nominates as a resource. -/
def nominee? (op : ApiOperation) : Option String :=
  match op.crud.isMutating with
  | true => op.requestBody.or op.successResponse?
  | false => none

end ApiOperation

namespace Extraction

/-- The nouns the definition is known by: its own name in snake case, and the noun of every
operation whose `nominee?` it is. -/
def nouns (operations : List ApiOperation) (definition : String) : List String :=
  snakeCase definition ::
    (operations.filter fun op => op.nominee? == some definition).filterMap ApiOperation.noun?

/-- The operation `references` the definition by its request or one of its responses, or its `noun?`
is among the `nouns` of the definition. What is in `nouns` is given, since it is the same for all
operations. -/
def concerns (definition : String) (nouns : List String) (op : ApiOperation) : Bool :=
  op.references definition || op.noun?.any nouns.contains

/-- The read that reports the status, among the operations that concern a definition. -/
def pairedRead? (concerned : List ApiOperation) : Option ApiOperation :=
  let reads := concerned.filter fun op => op.crud == .read
  (reads.find? fun op => !op.isList).or reads.head?

/-- The status that a read reports of a definition, with the definition it comes from. -/
def statusOf (catalog : Catalog) (definition : String) (read : Option ApiOperation) :
    Schema × Option String :=
  match read.bind ApiOperation.successResponse? with
  | none => (.emptyObject, none)
  | some response =>
    -- A read that answers the spec itself reports no state of its own.
    if response = definition then (.emptyObject, none)
    else
      match catalog.target? response with
      | some (.object fields) => (.object fields, some response)
      | _ => (.emptyObject, none)

/-- What the operations can do, in the order of `Crud.all`. -/
def supported (concerned : List ApiOperation) : List Crud :=
  Crud.all.filter fun c => concerned.any fun op => op.crud == c

/-- A kind for the definition that is not among the taken ones and has a file of its own, and the
taken kinds with it. -/
def takeKind (definition : String) (taken : List String) : String × List String :=
  takeName (goIdentifier definition "Resource") taken (.kinds (taken.map kindFile))

/-- The object a definition stands for, which a resource needs as its spec. -/
def specOf (catalog : Catalog) (definition : String) : Except Error Schema :=
  match catalog.target? definition with
  | some (.object fields) => .ok (.object fields)
  | some other => .error (.resourceShape definition other.variantName)
  | none => .error (.unresolved definition)

/-- The resource of this kind that a definition is. -/
def resourceOf (catalog : Catalog) (operations : List ApiOperation) (kind definition : String) :
    Except Error Resource := do
  let spec ← specOf catalog definition
  let concerned := operations.filter (concerns definition (nouns operations definition))
  let (status, statusSchemaName) := statusOf catalog definition (pairedRead? concerned)
  return { kind, plural := plural kind, schemaName := definition, spec, status, statusSchemaName,
           operations := supported concerned, specType := kind ++ "Spec",
           statusType := kind ++ "Status" }

/-- The resources of the definitions, in order. -/
def resourcesOf (catalog : Catalog) (operations : List ApiOperation) (taken : List String) :
    List String → Except Error (List Resource)
  | [] => return []
  | definition :: rest => do
    let (kind, taken) := takeKind definition taken
    let resource ← resourceOf catalog operations kind definition
    return resource :: (← resourcesOf catalog operations taken rest)

/-- The definition is nominated and not ignored. -/
def isCandidate (operations : List ApiOperation) (settings : Settings) (definition : String) :
    Bool :=
  (operations.any fun op => op.nominee? == some definition) && !settings.ignores definition

/-- The resources of a description. -/
def resources (operations : List ApiOperation) (catalog : Catalog) (settings : Settings) :
    Except Error (List Resource) :=
  -- A missing definition is an error even if it would be ignored.
  match (operations.filterMap ApiOperation.nominee?).find? fun name => !catalog.contains name with
  | some missing => .error (.unresolved missing)
  | none =>
    resourcesOf catalog operations [] (catalog.names.filter (isCandidate operations settings))

end Extraction

end ControllerTypes
