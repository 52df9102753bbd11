import ControllerTypes.Description.Basic
import ControllerTypes.Name.Snake
import ControllerTypes.Text.Segments

/-!
# `ControllerTypes.Resource.Crud`: what an operation does, and to what

Operations are sorted into create, read, update and delete. The id of an operation decides if its
first word is one of the known verbs, since descriptions of remote calls send everything as `post`;
otherwise the method does. What follows the verb is the noun, the thing the operation is about, and
an operation without an id takes its noun from the path.

Verbs are recognized in two ways. `classify?` asks `ofVerb?` about the whole first word, and `nounOf`
takes the first of `verbs` that an underscore follows off the front.

`Crud` is `CrudOperation`, and the functions are those of `OperationClassifier`: `classify?` is
`classify`, `ofMethod` is `classify_method`, `ApiOperation.crud` is `classify_operation`,
`ApiOperation.isList` is `is_list`, `nounOf` is `extract_resource`, `nounOfPath?` is
`resource_from_path`, and `ApiOperation.noun?` is `resource_noun`.
-/

set_option autoImplicit false

namespace ControllerTypes

open Name Text

/-- What an operation does to a resource. -/
inductive Crud where
  | create
  | read
  | update
  | delete
  deriving DecidableEq, Repr

namespace Crud

/-- All of them, in the order in which they are listed. -/
def all : List Crud := [create, read, update, delete]

/-- The operation changes the remote state of something that goes on existing. -/
def isMutating : Crud → Bool
  | create | update => true
  | read | delete => false

/-- The name in full. -/
def name : Crud → String
  | create => "Create"
  | read => "Read"
  | update => "Update"
  | delete => "Delete"

/-- The initial of the name. -/
def initial : Crud → Char
  | create => 'C'
  | read => 'R'
  | update => 'U'
  | delete => 'D'

/-- The words that may stand in front of a noun. -/
def verbs : List String :=
  ["create", "put", "get", "describe", "head", "list", "read", "update", "modify", "patch",
   "replace", "delete", "remove"]

/-- What an operation of this verb does. -/
def ofVerb? : String → Option Crud
  | "create" | "put" => some create
  | "get" | "describe" | "head" | "list" | "read" => some read
  | "update" | "modify" | "patch" | "replace" => some update
  | "delete" | "remove" => some delete
  | _ => none

/-- The first word of a name in snake case. -/
def firstWord (snake : String) : String := String.ofList (snake.toList.takeWhile (· != '_'))

/-- What an operation of this name does, if its first word is a verb. -/
def classify? (operation : String) : Option Crud :=
  ofVerb? (firstWord (snakeCase operation))

/-- What an operation of this method does. -/
def ofMethod : Method → Crud
  | .post => create
  | .put | .patch => update
  | .get | .head => read
  | .delete => delete

/-- What the text has behind a word and an underscore. -/
def behindWord? (word text : List Char) : Option (List Char) :=
  if word <+: text then
    match text.drop word.length with
    | '_' :: noun => some noun
    | _ => none
  else none

/-- The noun in the name of an operation: what follows the verb, or all of the name. -/
def nounOf (operation : String) : String :=
  let snake := snakeCase operation
  ((verbs.findSome? fun v => behindWord? v.toList snake.toList).map String.ofList).getD snake

/-- The singular of the last word of a path. -/
def singular (word : List Char) : List Char :=
  match word.reverse with
  -- The letters stand in reverse: `policies` becomes `policy`, and a bare `ies` keeps two of them.
  | 's' :: 'e' :: 'i' :: stem => if stem.isEmpty then ['i', 'e'] else (('y' :: stem).reverse)
  | 's' :: stem => if stem.isEmpty then ['s'] else stem.reverse
  | _ => word

/-- The noun in a path: the singular of its last segment that is no parameter. -/
def nounOfPath? (path : String) : Option String :=
  let fixed := (segments path.toList).filter fun s => !s.isEmpty && s.head? != some '\x7b'
  fixed.getLast?.map fun s => String.ofList (singular (snakeChars s))

end Crud

namespace ApiOperation

/-- What the operation does. -/
def crud (op : ApiOperation) : Crud :=
  (op.operationId.bind Crud.classify?).getD (.ofMethod op.method)

/-- The path without slashes at its end ends with a parameter. -/
def endsWithParameter (path : String) : Bool :=
  (path.toList.reverse.dropWhile (· == '/')).head? == some '\x7d'

/-- The operation reads a collection and not one of its items. -/
def isList (op : ApiOperation) : Bool :=
  match op.operationId with
  | some id => "list".toList.isPrefixOf (snakeCase id).toList
  | none => op.method == .get && !endsWithParameter op.path

/-- What the operation is about. -/
def noun? (op : ApiOperation) : Option String :=
  match op.operationId with
  | some id => some (Crud.nounOf id) |>.filter (· != "")
  | none => Crud.nounOfPath? op.path

end ApiOperation

end ControllerTypes
