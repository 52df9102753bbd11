import ControllerTypes.Compiled

/-!
# `ControllerTypes.Emission.Artifact`: what a run is about to write

An artifact is one file of the package made from a `CompiledApi`. `plan` fixes which artifacts there
are, under which names and in which order; it refuses to give two of them one name. `renderAll` has
every one of them rendered before anything is written, so a renderer that fails leaves no half of a
package behind.

`planned` and `plan` are `plan`, `context` is the `RenderContext` that `render_all` fills in, and
`renderAll` is `render_all`. `ArtifactKind.name` is `template_name`, which three of the four sorts
of files also go by.
-/

set_option autoImplicit false

namespace ControllerTypes

/-- The sorts of files in a package. -/
inductive ArtifactKind where
  | documentation
  | registration
  | types
  | resource
  deriving DecidableEq, Repr

/-- The name a sort of file goes by. -/
def ArtifactKind.name : ArtifactKind → String
  | documentation => "doc.go"
  | registration => "groupversion_info.go"
  | types => "types.go"
  | resource => "resource.go"

/-- A file that is going to be rendered. -/
structure Planned where
  kind : ArtifactKind
  /-- The file name. -/
  name : String
  /-- The resource the file is about, if it is about one. -/
  resource : Option Resource

/-- What a renderer may use for one file. -/
structure RenderContext where
  /-- The API group. -/
  group : String
  /-- The API version. -/
  version : String
  /-- The title of the description. -/
  title : String
  /-- The kinds of all resources. -/
  kinds : List String
  /-- The types, for the file that holds them. -/
  types : List TypeDef
  /-- The resource, for the file of one. -/
  resource : Option Resource

/-- A rendered file. -/
structure Artifact where
  kind : ArtifactKind
  /-- The file name. -/
  name : String
  contents : ByteArray

/-- A way to make the contents of files. -/
abbrev Renderer := ArtifactKind → RenderContext → Except Error ByteArray

namespace CompiledApi

/-- The files of a package, whether or not their names differ. -/
def planned (api : CompiledApi) : List Planned :=
  [⟨.documentation, ArtifactKind.documentation.name, none⟩,
   ⟨.registration, ArtifactKind.registration.name, none⟩,
   ⟨.types, ArtifactKind.types.name, none⟩]
  ++ api.resources.map fun r => ⟨.resource, Name.kindFile r.kind, some r⟩

/-- The first name in the list that stands there before. -/
def firstRepeated? (seen : List String) : List String → Option String
  | [] => none
  | name :: rest => if name ∈ seen then some name else firstRepeated? (name :: seen) rest

/-- The files of a package, no two of which have one name. -/
def plan (api : CompiledApi) : Except Error (List Planned) :=
  match firstRepeated? [] (api.planned.map Planned.name) with
  | some file => .error (.render (.clash file))
  | none => .ok api.planned

/-- What the renderer may use for a planned file. -/
def context (api : CompiledApi) (file : Planned) : RenderContext where
  group := api.group
  version := api.version
  title := api.info.title
  kinds := api.resources.map Resource.kind
  types := if file.kind = .types then api.types else []
  resource := file.resource

/-- A planned file is rendered. -/
def renderFile (api : CompiledApi) (renderer : Renderer) (file : Planned) :
    Except Error Artifact :=
  (renderer file.kind (api.context file)).map fun contents => ⟨file.kind, file.name, contents⟩

/-- All files of the package are rendered, in order. -/
def renderAll (api : CompiledApi) (renderer : Renderer) : Except Error (List Artifact) := do
  (← api.plan).mapM (api.renderFile renderer)

end CompiledApi

end ControllerTypes
