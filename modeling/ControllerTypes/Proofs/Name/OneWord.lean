import ControllerTypes.Proofs.Name.Exported
import Mathlib.Data.List.Basic

/-!
# `ControllerTypes.Proofs.Name.OneWord`: names without an underscore

The constants of an enumeration are called after their type with an underscore in between, and
nothing else in a package has an underscore in its name. `OneWord` is this property of a name, and
it holds of every exported one (`Exported.oneWord`). `append_underscore_inj` is what it is good for:
two words with an underscore in between can be told apart again.
-/

set_option autoImplicit false

namespace ControllerTypes.Name

open Text

/-- The name has no underscore. -/
def OneWord (s : String) : Prop := '_' ∉ s.toList

instance (s : String) : Decidable (OneWord s) := inferInstanceAs (Decidable (¬ '_' ∈ s.toList))

/-- Two words put together without an underscore are one word. -/
theorem OneWord.append {s t : String} (hs : OneWord s) (ht : OneWord t) : OneWord (s ++ t) := by
  rw [OneWord, String.toList_append, List.mem_append]
  exact fun h => h.elim hs ht

/-- An `Exported` name is one word: it has letters and digits only. -/
theorem Exported.oneWord {s : String} (h : Exported s) : OneWord s := by
  obtain ⟨c, rest, heq, hc, hrest⟩ := h
  rw [OneWord, heq, List.mem_cons, not_or]
  constructor
  · rintro rfl
    exact absurd hc (by decide)
  · exact fun hmem => absurd (hrest _ hmem) (by decide)

/-! ### Names with an underscore -/

/-- A name with an underscore in it is not one word. -/
theorem not_oneWord_underscore (s t : String) : ¬ OneWord (s ++ "_" ++ t) := by
  intro h
  refine h ?_
  rw [String.toList_append, String.toList_append]
  exact List.mem_append_left _ (List.mem_append_right _ (by decide))

/-- Two words around an underscore can be read off the whole. `hs` and `ht` are of one side only,
since the underscore is where it is in both. -/
theorem append_underscore_inj {s s' t t' : String} (hs : OneWord s) (ht : OneWord t)
    (h : s ++ "_" ++ t = s' ++ "_" ++ t') : s = s' ∧ t = t' := by
  have hlist := congrArg String.toList h
  simp only [String.toList_append] at hlist
  -- As lists, the first underscore of the whole is the one between the words.
  rw [List.append_assoc, List.append_assoc, show "_".toList = ['_'] from rfl, List.singleton_append,
    List.singleton_append, List.append_cons_inj_of_notMem hs ht] at hlist
  exact ⟨String.toList_inj.1 hlist.1, String.toList_inj.1 hlist.2.2⟩

end ControllerTypes.Name
