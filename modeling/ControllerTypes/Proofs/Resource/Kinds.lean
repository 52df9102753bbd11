import ControllerTypes.Proofs.Name.Exported
import ControllerTypes.Proofs.Name.Taken
import ControllerTypes.Resource.Extract
import Mathlib.Data.List.Nodup

/-!
# `ControllerTypes.Proofs.Resource.Kinds`: the kinds that definitions are given

Which kind a definition is given depends on its name and on the kinds before it, and on nothing
else. `kindsOf` is this part of an extraction alone. Every kind is an exported name
(`exported_of_mem_kindsOf`).

Different kinds may well have the same file in mind, since files do without capitals. A kind is
therefore turned away if its file is one that every run writes, or that of an earlier kind
(`kindFile_takeKind`), so that all kinds have files of their own (`nodup_kindFiles`) and are
different for that reason alone.
-/

set_option autoImplicit false

namespace ControllerTypes.Extraction

open Name

/-- The kinds given out to the definitions, in order. -/
def kindsOf (taken : List String) : List String → List String
  | [] => []
  | definition :: rest =>
    (takeKind definition taken).1 :: kindsOf (takeKind definition taken).2 rest

/-- Every kind is exported: it is found from an identifier, whose `lead` is. -/
theorem exported_of_mem_kindsOf {taken definitions : List String} {kind : String}
    (h : kind ∈ kindsOf taken definitions) : Exported kind := by
  have hlead : Exported "Resource" := by decide
  induction definitions generalizing taken with
  | nil => exact absurd h List.not_mem_nil
  | cons definition rest ih =>
    rcases List.mem_cons.1 h with rfl | h
    · exact exported_takeName (exported_goIdentifier definition hlead) _ _
    · exact ih h

/-- The file of a kind is neither one that every run writes nor that of a kind given out before,
which is what `Barred.kinds` excludes. -/
theorem kindFile_takeKind (definition : String) (taken : List String) :
    kindFile (takeKind definition taken).1 ∉ sharedFiles ++ taken.map kindFile := by
  have hbars : Barred.bars (.kinds (taken.map kindFile)) (takeKind definition taken).1 = false :=
    bars_takeName_fst _ _ _
  rw [Barred.bars, isReservedKind, Bool.or_eq_false_iff, Bool.or_eq_false_iff] at hbars
  obtain ⟨⟨_, hshared⟩, htaken⟩ := hbars
  rw [List.mem_append, not_or, ← List.contains_iff_mem, ← List.contains_iff_mem]
  exact ⟨by simpa using hshared, by simpa using htaken⟩

/-- Every kind has a file of its own, and none of them is the file of a kind in `taken`. -/
theorem nodup_kindFiles (taken definitions : List String) :
    ((kindsOf taken definitions).map kindFile).Nodup ∧
      ∀ file ∈ (kindsOf taken definitions).map kindFile,
        file ∉ sharedFiles ++ taken.map kindFile := by
  -- The kinds given out so far grow with every definition, so the second half has to be about any
  -- `taken`.
  induction definitions generalizing taken with
  | nil => exact ⟨List.nodup_nil, by simp [kindsOf]⟩
  | cons definition rest ih =>
    obtain ⟨hrest, hnew⟩ := ih (takeKind definition taken).2
    have hsnd : (takeKind definition taken).2 = (takeKind definition taken).1 :: taken := rfl
    rw [kindsOf, List.map_cons, List.nodup_cons, List.forall_mem_cons]
    refine ⟨⟨fun hmem => ?_, hrest⟩, kindFile_takeKind definition taken, fun file hfile hmem => ?_⟩
    · -- The first kind is among those taken when the others are found.
      refine hnew _ hmem ?_
      rw [hsnd, List.map_cons]
      exact List.mem_append_right _ List.mem_cons_self
    · refine hnew file hfile ?_
      rw [hsnd, List.map_cons]
      rcases List.mem_append.1 hmem with hmem | hmem
      · exact List.mem_append_left _ hmem
      · exact List.mem_append_right _ (List.mem_cons_of_mem _ hmem)

/-- No two kinds are the same, since not even their files are. -/
theorem nodup_kindsOf (taken definitions : List String) : (kindsOf taken definitions).Nodup :=
  (nodup_kindFiles taken definitions).1.of_map kindFile

end ControllerTypes.Extraction
