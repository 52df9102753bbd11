import ControllerTypes.Yaml.Node.Graph
import ControllerTypes.Yaml.Scalar

/-!
# `ControllerTypes.Yaml.Value.OfGraph`: the value of a document

A node that refers to another one has its value. A node may be inside of what it refers to, and few
nodes may stand for a great many values, so there are two limits: collections are nested at most
`deepest` levels, and references are followed at most a hundred times for each mark of the document.

No two keys of a mapping may be equal.
-/

set_option autoImplicit false

namespace ControllerTypes.Yaml

/-- A step that counts the references it follows and may fail. -/
abbrev Compose (α : Type) := StateT Nat Option α

/-- The value fails to be. -/
def Compose.fail {α : Type} : Compose α := fun _ => none

namespace Graph

/-- How deep collections may be nested. -/
def deepest : Nat := 128

/-- How many references may be followed in all. -/
def followLimit (g : Graph) : Nat := g.size * 100

/-- The node a reference leads to, or the node itself. -/
def follow (g : Graph) : Node → Compose Node
  | .aliasOf anchor => fun followed =>
    -- Without a limit a short text could stand for an enormous value.
    if g.followLimit ≤ followed then none
    else (g.target? anchor).map fun node => (node, followed + 1)
  | node => pure node

/-- The tag that is left to the users of a value, without its mark. -/
def localTag? (properties : Properties) : Option String :=
  properties.tag.bind fun tag =>
    match tag.toList with
    | '!' :: name => some (String.ofList name)
    | _ => none

/-- Two marks at the front of a tag mean the same as one. -/
def tagName (name : String) : String :=
  match name.toList with
  | '!' :: c :: rest => String.ofList (c :: rest)
  | _ => name

/-- The value with the tag that is left to its users; the tag must have a name. -/
def withTag (properties : Properties) (v : Value) : Compose Value :=
  match localTag? properties with
  | none => pure v
  | some "" => Compose.fail
  | some name => pure (.tagged (tagName name) v)

/-- The tag that says what type a scalar is of. -/
def typeTag? (properties : Properties) : Option String :=
  if (localTag? properties).isSome then none else properties.tag

mutual

/-- The value of a node with room for `depth` levels of collections. -/
def compose (g : Graph) (depth : Nat) (node : Node) : Compose Value := do
  match ← g.follow node with
  | .aliasOf _ => Compose.fail
  | .scalar properties plain text =>
    match Scalar.value? (typeTag? properties) plain text with
    | some v => withTag properties v
    | none => Compose.fail
  | .sequence properties items =>
    match depth with
    -- A node inside of what it refers to ends here at the latest.
    | 0 => Compose.fail
    | inner + 1 => withTag properties (.sequence (← composeItems g inner items))
  | .mapping properties entries =>
    match depth with
    | 0 => Compose.fail
    | inner + 1 => withTag properties (.mapping (← composeEntries g inner [] entries))
termination_by (depth, 0)

/-- The values of the items of a sequence. -/
def composeItems (g : Graph) (depth : Nat) : List Node → Compose (List Value)
  | [] => pure []
  | node :: rest => do
    let item ← compose g depth node
    pure (item :: (← composeItems g depth rest))
termination_by nodes => (depth, nodes.length + 1)

/-- The values of the entries of a mapping, behind those in `entries`, which come last first. -/
def composeEntries (g : Graph) (depth : Nat) (entries : List (Value × Value)) :
    List (Node × Node) → Compose (List (Value × Value))
  | [] => pure entries.reverse
  | (key, node) :: rest => do
    let name ← compose g depth key
    if entries.any fun e => e.1.same name then Compose.fail
    else
      let v ← compose g depth node
      composeEntries g depth ((name, v) :: entries) rest
termination_by nodes => (depth, nodes.length + 1)

end

/-- The value of the document. -/
def value? (g : Graph) : Option Value := (g.compose deepest g.root 0).map Prod.fst

end Graph

/-- The value of a text. -/
def Value.parse? (text : String) : Option Value := (Graph.parse? text.toList).bind Graph.value?

end ControllerTypes.Yaml
