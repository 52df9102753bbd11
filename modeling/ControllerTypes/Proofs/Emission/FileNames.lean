import ControllerTypes.Proofs.Compiles
import ControllerTypes.Proofs.Emission.Plan
import ControllerTypes.Proofs.Files.Path
import ControllerTypes.Proofs.Name.Snake

/-!
# `ControllerTypes.Proofs.Emission.FileNames`: the files of a package do not clash

A definition may have any name, and a part of it becomes the name of a file. `isGoFile_kindFile`
says what is left of such a name: a small letter, then small letters, digits and underscores, and
the ending of Go files. There is no way out of a directory in it.

What every run writes are files of the same form, those of kinds that are reserved. Together with
the files of the kinds, all of which differ, they are the files of a package (`map_name_planned`).
So the plan of a package that compiles never fails (`plan_of_compiled`).
-/

set_option autoImplicit false

namespace ControllerTypes

open Text Name Run

/-- The name is a small letter, then small letters, digits and underscores, and `.go`. -/
def IsGoFile (name : String) : Prop :=
  ∃ c rest, name = String.ofList (c :: rest) ++ ".go" ∧ isAsciiLower c = true ∧
    ∀ d ∈ rest, isAsciiLower d = true ∨ isAsciiDigit d = true ∨ d = '_'

/-! ### The file of an exported name -/

open Snake in
/-- The file of an `Exported` name is a Go file. The capital that the name begins with becomes the
small letter that the file begins with. -/
theorem isGoFile_kindFile {kind : String} (h : Exported kind) : IsGoFile (kindFile kind) := by
  obtain ⟨c, cs, heq, hc, hcs⟩ := h
  have hlower := isAsciiLower_toAsciiLower hc
  have hne : toAsciiLower c ≠ '_' := by
    intro h
    rw [h] at hlower
    exact absurd hlower (by decide)
  -- No underscore is in front of the first letter, so `strip` leaves it where it is.
  obtain ⟨rest, hstrip, hfront⟩ := strip_cons_of_ne hne (squeeze (mark (some c) cs))
  refine ⟨toAsciiLower c, rest, ?_, hlower, fun d hd => ?_⟩
  · rw [kindFile, snakeCase, snakeChars, heq, mark_none_of_isAsciiUpper hc, squeeze_cons_of_ne hne,
      hstrip]
  · exact of_mem_mark hcs ((squeeze_sublist _).subset (hfront.subset hd))

/-- The path of a Go file has its name behind those of the `directory` it is in, so it does not lead
out of there. -/
theorem names_join_of_isGoFile {name : String} (h : IsGoFile name) (directory : String) :
    Files.names (Files.join directory name).toList =
      Files.names directory.toList ++ [name.toList] := by
  obtain ⟨c, rest, rfl, hc, hrest⟩ := h
  have hlist : (String.ofList (c :: rest) ++ ".go").toList = c :: (rest ++ ['.', 'g', 'o']) := by
    rw [String.toList_append, String.toList_ofList]
    rfl
  -- A small letter, a digit and an underscore are no slash, and neither is the ending.
  have hslash : '/' ∉ c :: (rest ++ ['.', 'g', 'o']) := by
    rw [List.mem_cons, List.mem_append, not_or, not_or]
    refine ⟨?_, fun hmem => absurd (hrest '/' hmem) (by decide), by decide⟩
    rintro rfl
    exact absurd hc (by decide)
  exact Files.names_join (hlist ▸ hslash) (by simp) (by simp) directory

/-! ### The plan of a package -/

/-- The files every run writes are Go files, since they are those of kinds that are reserved. So
nothing has to be known of their names one by one. -/
theorem isGoFile_of_mem_sharedFiles {name : String} (h : name ∈ sharedFiles) : IsGoFile name := by
  have hshared : sharedFiles = ["Doc", "GroupversionInfo", "Types"].map kindFile := by decide
  have hexported : ∀ kind ∈ ["Doc", "GroupversionInfo", "Types"], Exported kind := by decide
  rw [hshared] at h
  obtain ⟨kind, hkind, rfl⟩ := List.mem_map.1 h
  exact isGoFile_kindFile (hexported kind hkind)

namespace CompiledApi

/-- The files of a package are the shared ones and those of the kinds. -/
theorem map_name_planned (api : CompiledApi) :
    api.planned.map Planned.name =
      sharedFiles ++ (api.resources.map Resource.kind).map kindFile := by
  rw [planned, List.map_append, List.map_map, List.map_map]
  rfl

/-- In a package that compiles all kinds and all files are different, and the files are Go files
that stay in whatever `directory` they are written to. So the package has a plan, and `plan` never
answers a clash. -/
theorem plan_of_compiled {settings : Settings} {version : String} {api : ApiDescription}
    {compiled : CompiledApi} (h : ofDescription settings version api = .ok compiled) :
    (compiled.resources.map Resource.kind).Nodup ∧
      (compiled.planned.map Planned.name).Nodup ∧
        (∀ file ∈ compiled.planned, IsGoFile file.name ∧
          ∀ directory, Files.names (Files.join directory file.name).toList =
            Files.names directory.toList ++ [file.name.toList]) ∧
          compiled.plan = .ok compiled.planned := by
  obtain ⟨catalog, hcompiles⟩ := compiles_of_ofDescription h
  have hkinds := Extraction.kinds_of_resources hcompiles.extracted
  obtain ⟨hnodup, hnew⟩ := Extraction.nodup_kindFiles [] _
  -- The shared files differ from each other, the files of kinds from each other, and none of the
  -- latter is one of the former since all of those are taken.
  have hfiles : (compiled.planned.map Planned.name).Nodup := by
    rw [map_name_planned, hkinds, List.nodup_append]
    refine ⟨by decide, hnodup, ?_⟩
    rintro file hshared _ hkind rfl
    exact hnew file hkind (List.mem_append_left _ hshared)
  have hplan : compiled.plan = .ok compiled.planned := plan_eq_ok_iff.2 ⟨hfiles, rfl⟩
  refine ⟨hcompiles.allExtracted.kinds, hfiles, fun file hfile => ?_, hplan⟩
  -- The second half of the statement follows from the first, for any file.
  suffices hgo : IsGoFile file.name from ⟨hgo, names_join_of_isGoFile hgo⟩
  have hname := List.mem_map_of_mem (f := Planned.name) hfile
  rw [map_name_planned, hkinds] at hname
  rcases List.mem_append.1 hname with hname | hname
  · exact isGoFile_of_mem_sharedFiles hname
  · obtain ⟨kind, hkind, heq⟩ := List.mem_map.1 hname
    rw [← heq]
    exact isGoFile_kindFile (Extraction.exported_of_mem_kindsOf hkind)

/-! ### Odd names

A path, no name at all, a file that every run writes, and two names that differ in capitals only. -/

namespace OddNames

def operation (definition : String) : ApiOperation := ⟨"/", .post, none, some definition, []⟩

def api : ApiDescription where
  info := ⟨"Odd", "1", none, []⟩
  definitions := .ofList
    [("../x", { type := some (.single "object") }),
     ("", { type := some (.single "object") }),
     ("Types", { type := some (.single "object") }),
     ("DBItem", { type := some (.single "object") }),
     ("DbItem", { type := some (.single "object") })]
  operations :=
    [operation "../x", operation "", operation "Types", operation "DBItem", operation "DbItem"]

def catalog : Catalog := .ofList
  [("../x", .object []), ("", .object []), ("Types", .object []), ("DBItem", .object []),
   ("DbItem", .object [])]

/-- The resource of this kind that a definition without properties is. -/
def resource (kind plural definition : String) : Resource where
  kind := kind
  plural := plural
  schemaName := definition
  spec := .object []
  status := .emptyObject
  statusSchemaName := none
  operations := [.create]
  specType := kind ++ "Spec"
  statusType := kind ++ "Status"

def resources : List Resource :=
  [resource "X" "xes" "../x", resource "Resource" "resources" "",
   resource "Types1" "types1s" "Types", resource "DBItem" "dbitems" "DBItem",
   resource "DbItem1" "dbitem1s" "DbItem"]

def compiled : CompiledApi where
  info := api.info
  group := "unknown.services.k8s.aws"
  version := "v1"
  resources := resources
  types := resources.flatMap fun r =>
    [⟨r.specType, r.schemaName, .struct []⟩, ⟨r.statusType, r.schemaName ++ ".status", .struct []⟩]

/-- The five definitions compile, each to a kind with a file of its own. -/
theorem compiles : ofDescription {} "v1" api = .ok compiled := by
  have hresolved : Resolution.resolveAll api.definitions = .ok catalog := by cbv
  have hextracted : Extraction.resources api.operations catalog {} = .ok resources := by cbv
  have hwritten : TypeDef.extract catalog resources = .ok compiled.types := by cbv
  have hgroup : Settings.apiGroup {} api.info.serviceAlias = compiled.group := by decide
  simp only [ofDescription, bind_eq_ok]
  exact ⟨catalog, hresolved, resources, hextracted, compiled.types, hwritten, by rw [hgroup]; rfl⟩

/-- All five have a file of their own, and none of them is outside the directory or one of the
shared files. -/
theorem odd_names_planned :
    compiled.planned.map Planned.name =
        ["doc.go", "groupversion_info.go", "types.go", "x.go", "resource.go", "types1.go",
         "db_item.go", "db_item1.go"] ∧
      compiled.plan = .ok compiled.planned :=
  ⟨by cbv, (plan_of_compiled compiles).2.2.2⟩

end OddNames

end CompiledApi

end ControllerTypes
