import ControllerTypes.Main
import ControllerTypes.Proofs.Description.Responses
import ControllerTypes.Proofs.Emission.Failed
import ControllerTypes.Proofs.Emission.FileNames
import ControllerTypes.Proofs.Files.Tree
import ControllerTypes.Proofs.Name.NormalForm
import ControllerTypes.Proofs.Name.Search
import ControllerTypes.Proofs.Reordered
import ControllerTypes.Proofs.Resolution.Acyclic
import ControllerTypes.Proofs.Resolution.Leftover
import ControllerTypes.Proofs.Resolution.Live
import ControllerTypes.Proofs.Resolution.Merged
import ControllerTypes.Proofs.Resolution.Required
import ControllerTypes.Proofs.Resource.Dangling
import ControllerTypes.Proofs.Resource.Listing
import ControllerTypes.Proofs.Resource.Singular
import ControllerTypes.Proofs.Settings.Glob
import ControllerTypes.Proofs.Source.Comment
import ControllerTypes.Proofs.Source.Contained
import ControllerTypes.Proofs.Source.Declared
import ControllerTypes.Proofs.Source.TypeExpr
import ControllerTypes.Proofs.TypeDef.Faults
import ControllerTypes.Proofs.TypeDef.Finite
import ControllerTypes.Proofs.TypeDef.NestedUse
import ControllerTypes.Proofs.TypeDef.Traced
import ControllerTypes.Proofs.TypeDef.WellNamed
import ControllerTypes.Proofs.Yaml.Lossless
import ControllerTypes.Source.Filter
