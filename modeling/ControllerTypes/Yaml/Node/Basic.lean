/-!
# `ControllerTypes.Yaml.Node.Basic`: the tree a YAML text describes

A node is what the text says before anyone asks what it means: a scalar is still the characters that
were written, and a node that refers to another one by its anchor has not been replaced by it.

Anchors are numbers here, because the same name may be given again. A `Graph` is the root together
with a way to find an anchor's node in it.
-/

set_option autoImplicit false

namespace ControllerTypes.Yaml

/-- What may stand in front of a node. -/
structure Properties where
  anchor : Option Nat := none
  /-- The whole tag, with its abbreviation written out. -/
  tag : Option String := none
  deriving Repr, Inhabited

/-- A node. -/
inductive Node where
  /-- The node of an anchor. -/
  | aliasOf (anchor : Nat)
  /-- A scalar; a plain one is written without quotation marks, as part of a line. -/
  | scalar (properties : Properties) (plain : Bool) (text : String)
  | sequence (properties : Properties) (items : List Node)
  | mapping (properties : Properties) (entries : List (Node × Node))
  deriving Repr, Inhabited

namespace Node

/-- What stands where nothing is written. -/
def empty : Node := scalar {} true ""

/-- What stands in front of a node. -/
def properties : Node → Properties
  | aliasOf _ => {}
  | scalar properties _ _ => properties
  | sequence properties _ => properties
  | mapping properties _ => properties

mutual

/-- The node and all nodes inside of it, each in front of its own. -/
def all : Node → List Node
  | aliasOf a => [aliasOf a]
  | scalar p plain text => [scalar p plain text]
  | sequence p items => sequence p items :: allItems items
  | mapping p entries => mapping p entries :: allEntries entries

/-- The nodes in the items of a sequence. -/
def allItems : List Node → List Node
  | [] => []
  | item :: rest => item.all ++ allItems rest

/-- The nodes in the entries of a mapping. -/
def allEntries : List (Node × Node) → List Node
  | [] => []
  | (key, value) :: rest => key.all ++ (value.all ++ allEntries rest)

end

/-- The marks that tell a node: one for a scalar or an alias, two for the ends of a collection. -/
def marks : Node → Nat
  | aliasOf _ | scalar _ _ _ => 1
  | sequence _ _ | mapping _ _ => 2

end Node

/-- A document. -/
structure Graph where
  root : Node
  deriving Repr

namespace Graph

/-- The node of an anchor, the last one if several have it. -/
def target? (g : Graph) (anchor : Nat) : Option Node :=
  g.root.all.reverse.find? fun n => n.properties.anchor == some anchor

/-- The number of marks that tell the whole document. -/
def size (g : Graph) : Nat := g.root.all.foldr (fun n total => n.marks + total) 0

end Graph

end ControllerTypes.Yaml
