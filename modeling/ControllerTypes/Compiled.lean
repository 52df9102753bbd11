import ControllerTypes.Document.Load
import ControllerTypes.Resolution.Basic
import ControllerTypes.Resource.Extract
import ControllerTypes.TypeDef.Extract

/-!
# `ControllerTypes.Compiled`: a description that is worked out

A `CompiledApi` is all that the files of a package are made from. `CompiledApi.ofDescription` works
it out in three steps, each of which may fail and stops the ones behind it: the definitions are
resolved, the resources are found among them, and the types are written. `CompiledApi.read` does the
same for a description that is still an input.

Nothing here depends on what was compiled before. What a `Generator` may do with the result, and
when, is the matter of `ControllerTypes.Emission.Generator`.

`CompiledApi.ofDescription` is the body of `compile_stages` behind `load_document`, and
`CompiledApi.read` the whole of it.
-/

set_option autoImplicit false

namespace ControllerTypes

/-- A description that was worked out. -/
structure CompiledApi where
  info : ApiInfo
  /-- The API group. -/
  group : String
  /-- The API version. -/
  version : String
  resources : List Resource
  types : List TypeDef

namespace CompiledApi

/-- The description worked out for a version of the API. -/
def ofDescription (settings : Settings) (version : String) (api : ApiDescription) :
    Except Error CompiledApi := do
  let catalog ← Resolution.resolveAll api.definitions
  let resources ← Extraction.resources api.operations catalog settings
  let types ← TypeDef.extract catalog resources
  return {
    info := api.info, group := settings.apiGroup api.info.serviceAlias, version, resources, types }

/-- The description in an input worked out for a version of the API. -/
def read (settings : Settings) (version : String) (format : Document.Format) (bytes : ByteArray) :
    Except Error CompiledApi := do
  ofDescription settings version (← Document.load format bytes settings)

end CompiledApi

end ControllerTypes
