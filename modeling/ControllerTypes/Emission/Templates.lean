import ControllerTypes.Emission.Artifact
import ControllerTypes.Source.File

/-!
# `ControllerTypes.Emission.Templates`: the renderer of Go files

Every sort of file is one of the files of `ControllerTypes.Source.File`. A file about a resource
needs one, so the renderer fails when it is asked for such a file without it; a plan never does.

`Templates.renderer` is `TeraRenderer` with the four templates that come with it.
-/

set_option autoImplicit false

namespace ControllerTypes.Templates

open Source

/-- The lines of a file. -/
def lines (kind : ArtifactKind) (context : RenderContext) : Except Error (List String) :=
  let package : Package := ⟨context.group, context.version⟩
  match kind with
  | .documentation => .ok (package.documentation context.title)
  | .registration => .ok package.registration
  | .types => .ok (typesFile package context.types)
  | .resource =>
    match context.resource with
    | some r => .ok (resourceFile package r)
    | none => .error (.render (.failed "a file about a resource needs a resource"))

/-- The renderer of Go files. -/
def renderer : Renderer := fun kind context =>
  (lines kind context).map fun text => (unlines text).toUTF8

end ControllerTypes.Templates
