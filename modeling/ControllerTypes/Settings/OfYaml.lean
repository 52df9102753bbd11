import ControllerTypes.Error
import ControllerTypes.Settings
import ControllerTypes.Text.Blank
import ControllerTypes.Yaml.Node.Graph
import ControllerTypes.Yaml.Scalar

/-!
# `ControllerTypes.Settings.OfYaml`: reading settings from a YAML text

A setting is given once or keeps its default, and keys that name no setting are passed over. Texts
are taken as they are written, so a version `1.10` needs no quotation marks. What is left empty
counts as an empty map or list.

`ofYaml` is `from_yaml`.
-/

set_option autoImplicit false

namespace ControllerTypes

open Text Yaml

namespace Yaml.Graph

/-- The node itself, or what it refers to. -/
def resolve? (g : Graph) : Node → Option Node
  | .aliasOf anchor => g.target? anchor
  | node => some node

/-- The characters of a scalar, whatever they mean. -/
def text? (g : Graph) (node : Node) : Option String :=
  match g.resolve? node with
  | some (.scalar _ _ text) => some text
  | _ => none

/-- The characters of a scalar, or nothing from one that means nothing. -/
def optionalText? (g : Graph) (node : Node) : Option (Option String) :=
  match g.resolve? node with
  | some (.scalar properties plain text) =>
    match properties.tag with
    | some "tag:yaml.org,2002:null" => if Scalar.isNull text then some none else none
    | some _ => some (some text)
    | none => some (if plain && (text == "" || Scalar.isNull text) then none else some text)
  | _ => none

/-- The texts of a list. -/
def texts? (g : Graph) (node : Node) : Option (List String) :=
  match g.resolve? node with
  | some (.sequence _ items) => items.mapM g.text?
  | some (.scalar _ true "") => some []
  | _ => none

/-- The members of a map under the texts of their keys. -/
def members? (g : Graph) (node : Node) : Option (List (String × Node)) :=
  match g.resolve? node with
  | some (.mapping _ entries) => entries.mapM fun (key, v) => (g.text? key).map (·, v)
  | some (.scalar _ true "") => some []
  | _ => none

end Yaml.Graph

namespace Settings

/-- The value of a setting, read from its member. A setting without a member keeps its default, and
no setting may have two. -/
def setting? {α : Type} (members : List (String × Node)) (name : String) (default : α)
    (read : Node → Option α) : Option α :=
  match members.filter fun m => m.1 == name with
  | [] => some default
  | [m] => read m.2
  | _ => none

/-- The patterns in the member `ignore`. -/
def ignored? (g : Graph) (node : Node) : Option (List String) := do
  setting? (← g.members? node) "resources" [] g.texts?

/-- The settings in a document. -/
def ofGraph? (g : Graph) : Option Settings := do
  let members ← g.members? g.root
  let defaults : Settings := {}
  let apiVersion ← setting? members "api_version" defaults.apiVersion g.optionalText?
  let groupSuffix ← setting? members "group_suffix" defaults.groupSuffix g.text?
  let aliasExtension ← setting? members "alias_extension" defaults.aliasExtension g.text?
  let ignored ← setting? members "ignore" defaults.ignored (ignored? g)
  pure { apiVersion, groupSuffix, aliasExtension, ignored }

/-- The settings in a text; an empty text leaves all of them at their defaults. -/
def ofYaml (text : String) : Except Error Settings :=
  if (trim text.toList).isEmpty then .ok {}
  else
    match (Graph.parse? text.toList).bind ofGraph? with
    | some settings => .ok settings
    | none => .error (.settings "Failed to parse config YAML: these are no settings")

end Settings

end ControllerTypes
