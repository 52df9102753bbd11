import ControllerTypes.Json.Printer
import ControllerTypes.Resource.Basic
import ControllerTypes.Source.Comment
import ControllerTypes.Source.TypeExpr

/-!
# `ControllerTypes.Source.File`: the files of a generated package

A package has four sorts of files, which are lists of lines here: its documentation, the
registration of its group and version, all its types, and one file for each kind of resource.

An enumeration is a named string with one constant for each literal. The constant is written with
the escapes of JSON, which Go reads as the same text.

The templates are `doc.go`, `groupversion_info.go`, `types.go` and `resource.go`:
`Package.documentation`, `Package.registration`, `typesFile` and `resourceFile`.
-/

set_option autoImplicit false

namespace ControllerTypes.Source

/-- The text of lines, each of which a line feed ends. -/
def unlines (lines : List String) : String := String.join (lines.map (· ++ "\n"))

/-- The group and the version a package belongs to. -/
structure Package where
  /-- The API group. -/
  group : String
  /-- The API version, which is also the name of the package. -/
  version : String

namespace Package

/-- The line that names the package. -/
def clause (p : Package) : String := "package " ++ p.version

/-- The documentation of the package; an empty title is left out. -/
def documentation (p : Package) (title : String) : List String :=
  ["// +k8s:deepcopy-gen=package",
   "// +groupName=" ++ p.group,
   "",
   "// Package " ++ p.version ++ " is the " ++ p.version ++ " version of the " ++ p.group
     ++ " API."]
  ++ (if title = "" then [] else "//" :: comment title)
  ++ [p.clause]

/-- The variable that holds the group and the version. -/
def groupVersion : String := "GroupVersion"

/-- The variable that collects the types of the package. -/
def schemeBuilder : String := "SchemeBuilder"

/-- The variable that adds the types of the package to a scheme. -/
def addToScheme : String := "AddToScheme"

/-- The registration of the group and the version. -/
def registration (p : Package) : List String :=
  ["// Package " ++ p.version ++ " contains API Schema definitions for the " ++ p.group ++ " "
     ++ p.version ++ " API group",
   "// +kubebuilder:object:generate=true",
   "// +groupName=" ++ p.group,
   p.clause,
   "",
   "import (",
   "\t\"k8s.io/apimachinery/pkg/runtime/schema\"",
   "\t\"sigs.k8s.io/controller-runtime/pkg/scheme\"",
   ")",
   "",
   "var (",
   "\t// " ++ groupVersion ++ " is the API Group Version used to register the objects",
   "\t" ++ groupVersion ++ " = schema.GroupVersion\x7bGroup: \"" ++ p.group ++ "\", Version: \""
     ++ p.version ++ "\"\x7d",
   "",
   "\t// " ++ schemeBuilder ++ " is used to add go types to the GroupVersionKind scheme",
   "\t" ++ schemeBuilder ++ " = &scheme.Builder\x7bGroupVersion: " ++ groupVersion ++ "\x7d",
   "",
   "\t// " ++ addToScheme ++ " adds the types in this group-version to the given scheme.",
   "\t" ++ addToScheme ++ " = " ++ schemeBuilder ++ ".AddToScheme",
   ")"]

/-- What every file with types begins with. -/
def typeHeader (p : Package) : List String :=
  [p.clause,
   "",
   "import (",
   "\tmetav1 \"k8s.io/apimachinery/pkg/apis/meta/v1\"",
   ")",
   ""]

end Package

/-- The name of the constant for a literal of an enumeration. -/
def constantName (type : String) (v : EnumValue) : String := type ++ "_" ++ v.goName

/-- The constant for a literal of an enumeration. -/
def constant (type : String) (v : EnumValue) : String :=
  "\t" ++ constantName type v ++ " " ++ type ++ " = " ++ Json.quote v.value

/-- A field of a struct; one that may be absent is left out of the serialized form when empty. -/
def fieldLine (f : FieldDefinition) : String :=
  "\t" ++ f.name ++ " " ++ f.goType ++ " `json:\"" ++ f.jsonName
    ++ (if f.required then "" else ",omitempty") ++ "\"`"

/-- The declarations of a type, with a blank line in front. -/
def declaration (t : TypeDef) : List String :=
  ["", "// " ++ t.name ++ " is generated from " ++ t.source] ++
  match t.shape with
  | .struct fields =>
    ["type " ++ t.name ++ " struct \x7b"] ++ fields.map fieldLine ++ ["\x7d"]
  | .enumeration values =>
    ["type " ++ t.name ++ " string", "", "const ("] ++ values.map (constant t.name) ++ [")"]

/-- The file of all types. -/
def typesFile (p : Package) (types : List TypeDef) : List String :=
  p.typeHeader
  -- An import that nothing uses does not compile.
  ++ ["// Keeps the metav1 import when no type uses a timestamp",
      "var (",
      "\t_ = &metav1.Time\x7b\x7d",
      ")"]
  ++ types.flatMap declaration

/-- The remark on where the status comes from, if the definition has a name. -/
def statusRemark (r : Resource) : List String :=
  match r.statusSchemaName.filter (· != "") with
  | some name => ["", "\t// Status is generated from " ++ name]
  | none => []

/-- The file of a kind of resource, with the list of the kind. -/
def resourceFile (p : Package) (r : Resource) : List String :=
  p.typeHeader
  ++ ["// " ++ r.kind ++ " is the Schema for the " ++ r.plural ++ " API",
      "// Supported operations: " ++ ", ".intercalate (r.operations.map Crud.name),
      "// +kubebuilder:object:root=true",
      "// +kubebuilder:subresource:status",
      "type " ++ r.kind ++ " struct \x7b",
      "\tmetav1.TypeMeta   `json:\",inline\"`",
      "\tmetav1.ObjectMeta `json:\"metadata,omitempty\"`",
      "",
      "\t// Spec is generated from " ++ r.schemaName,
      "\tSpec " ++ r.specType ++ " `json:\"spec,omitempty\"`"]
  ++ statusRemark r
  ++ ["\tStatus " ++ r.statusType ++ " `json:\"status,omitempty\"`",
      "\x7d",
      "",
      "// " ++ r.listKind ++ " contains a list of " ++ r.kind,
      "// +kubebuilder:object:root=true",
      "type " ++ r.listKind ++ " struct \x7b",
      "\tmetav1.TypeMeta `json:\",inline\"`",
      "\tmetav1.ListMeta `json:\"metadata,omitempty\"`",
      "\tItems           []" ++ r.kind ++ " `json:\"items\"`",
      "\x7d",
      "",
      "func init() \x7b",
      "\t" ++ Package.schemeBuilder ++ ".Register(&" ++ r.kind ++ "\x7b\x7d, &" ++ r.listKind
        ++ "\x7b\x7d)",
      "\x7d"]

end ControllerTypes.Source
