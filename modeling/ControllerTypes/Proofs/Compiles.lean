import ControllerTypes.Compiled
import ControllerTypes.Proofs.Resource.Extracted
import Mathlib

/-!
# `ControllerTypes.Proofs.Compiles`: the stages of a compilation

A description compiles if its definitions are resolved, resources are found among them, and the
types are written. `Compiles` holds what the three stages answered, since most properties of a
package speak of more than what is left of them in a `CompiledApi`. A document is loaded into a
description first, and nothing is asked of that description here, so what is proved of `Compiles`
holds of every document.
-/

set_option autoImplicit false

namespace ControllerTypes

open Run

/-- The description compiles by way of this catalog to these resources and types. -/
structure Compiles (settings : Settings) (api : ApiDescription) (catalog : Catalog)
    (resources : List Resource) (types : List TypeDef) : Prop where
  resolved : Resolution.resolveAll api.definitions = .ok catalog
  extracted : Extraction.resources api.operations catalog settings = .ok resources
  written : TypeDef.extract catalog resources = .ok types

/-- A compilation that succeeds went through all stages: there is a catalog by way of which it
`Compiles`. -/
theorem compiles_of_ofDescription {settings : Settings} {version : String} {api : ApiDescription}
    {compiled : CompiledApi} (h : CompiledApi.ofDescription settings version api = .ok compiled) :
    ∃ catalog, Compiles settings api catalog compiled.resources compiled.types := by
  simp only [CompiledApi.ofDescription, bind_eq_ok] at h
  obtain ⟨catalog, hcatalog, resources, hresources, types, htypes, h⟩ := h
  cases h
  exact ⟨catalog, hcatalog, hresources, htypes⟩

/-- A description that `Compiles` is compiled, to these resources and types. -/
theorem Compiles.exists_ofDescription {settings : Settings} {api : ApiDescription}
    {catalog : Catalog} {resources : List Resource} {types : List TypeDef}
    (h : Compiles settings api catalog resources types) (version : String) :
    ∃ compiled, CompiledApi.ofDescription settings version api = .ok compiled ∧
      compiled.resources = resources ∧ compiled.types = types := by
  simp only [CompiledApi.ofDescription, bind_eq_ok]
  exact ⟨_, ⟨catalog, h.resolved, resources, h.extracted, types, h.written, rfl⟩, rfl, rfl⟩

/-- The resources of a description that `Compiles` are `AllExtracted` from its catalog. -/
theorem Compiles.allExtracted {settings : Settings} {api : ApiDescription} {catalog : Catalog}
    {resources : List Resource} {types : List TypeDef}
    (h : Compiles settings api catalog resources types) : AllExtracted catalog resources :=
  Extraction.allExtracted_of_resources h.extracted

/-! ### The text of a document -/

/-- A `text` is read as the document that it is parsed and decoded to. By `hsize` it is long enough
to be one. -/
theorem Document.read_toUTF8 {text : String} {members : List (String × Json)} {doc : Document}
    (hsize : 2 ≤ text.utf8ByteSize) (hparse : Json.parse? text = some (.object members))
    (hdecode : decode members = .ok doc) : read .json text.toUTF8 = .ok doc := by
  have hlong : ¬ text.toUTF8.size < 2 := Nat.not_lt.2 hsize
  -- The bytes of a text are read as that text again.
  have htext : jsonText? .json text.toUTF8 = some text := Text.Utf8.decode?_toUTF8 text
  rw [read, if_neg hlong, htext, Option.bind_some, hparse]
  dsimp only
  rw [hdecode]
  rfl

/-- The `text` of a document compiles if the description of that document `Compiles`. -/
theorem Compiles.read_toUTF8 {settings : Settings} {doc : Document} {catalog : Catalog}
    {resources : List Resource} {types : List TypeDef}
    (h : Compiles settings (doc.describe settings) catalog resources types) {text : String}
    {members : List (String × Json)} (hsize : 2 ≤ text.utf8ByteSize)
    (hparse : Json.parse? text = some (.object members))
    (hdecode : Document.decode members = .ok doc) (version : String) :
    CompiledApi.read settings version .json text.toUTF8 = .ok
      { info := (doc.describe settings).info,
        group := settings.apiGroup (doc.describe settings).info.serviceAlias,
        version, resources, types } := by
  -- Loading the text is reading and describing it, so only that stage is added.
  have hload : Document.load .json text.toUTF8 settings = .ok (doc.describe settings) := by
    rw [Document.load, Document.read_toUTF8 hsize hparse hdecode]
    rfl
  simp only [CompiledApi.read, CompiledApi.ofDescription, bind_eq_ok]
  exact ⟨_, hload, catalog, h.resolved, resources, h.extracted, types, h.written, rfl⟩

/-! ### A description that compiles

Trees consist of nodes, which know the tree they belong to. The tree is a resource, and the sort of
a tree is an enumeration without a name. -/

namespace Forest

/-- Trees, their nodes, and the operation that creates a tree. -/
def api : ApiDescription where
  info := ⟨"Forest", "1", none, []⟩
  definitions := .ofList
    [("Tree", { properties :=
        [("nodes", { type := some (.single "array"), items := some { ref := "#/definitions/Node" } }),
         ("sort", { literals := [.string "oak", .string "elm"] })] }),
     ("Node", { properties := [("tree", { ref := "#/definitions/Tree" })] })]
  operations := [⟨"/trees", .post, some "CreateTree", some "Tree", []⟩]

/-- The fields of a tree. -/
def treeFields : List (Field Schema) :=
  [⟨"nodes", .array (.reference "Node"), false⟩, ⟨"sort", .enumeration ["oak", "elm"], false⟩]

/-- The fields of a node. -/
def nodeFields : List (Field Schema) := [⟨"tree", .reference "Tree", false⟩]

def catalog : Catalog := .ofList [("Tree", .object treeFields), ("Node", .object nodeFields)]

/-- The only kind of resource. -/
def tree : Resource where
  kind := "Tree"
  plural := "trees"
  schemaName := "Tree"
  spec := .object treeFields
  status := .emptyObject
  statusSchemaName := none
  operations := [.create]
  specType := "TreeSpec"
  statusType := "TreeStatus"

def node : TypeDef :=
  ⟨"Node", "Node", .struct [⟨"Tree", "tree", .reference "TreeSpec", false, true⟩]⟩

def sort : TypeDef :=
  ⟨"TreeSpecSort", "Tree.sort", .enumeration [⟨"oak", "Oak"⟩, ⟨"elm", "Elm"⟩]⟩

def spec : TypeDef :=
  ⟨"TreeSpec", "Tree", .struct [⟨"Nodes", "nodes", .list (.reference "Node"), false, false⟩,
    ⟨"Sort", "sort", .reference "TreeSpecSort", false, false⟩]⟩

def status : TypeDef := ⟨"TreeStatus", "Tree.status", .struct []⟩

/-- Trees compile. -/
theorem compiles : Compiles {} api catalog [tree] [node, sort, spec, status] where
  resolved := by cbv
  extracted := by cbv
  written := by cbv

end Forest

end ControllerTypes
