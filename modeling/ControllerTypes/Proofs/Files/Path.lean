import ControllerTypes.Files.Path

/-!
# `ControllerTypes.Proofs.Files.Path`: where a file in a directory is

The path of a file is put together as a text, and whoever reads it cuts it at the slashes.
`names_join` says that the cuts come out right: a name that has no slash in it, and is not passed
over, stands behind the names of its directory, however the path of the directory is written.
-/

set_option autoImplicit false

namespace ControllerTypes.Files

open Text

/-- A path has at least one segment. -/
theorem segments_ne_nil (cs : List Char) : segments cs ≠ [] := by
  cases cs with
  | nil => exact List.cons_ne_nil _ _
  | cons c rest =>
    rw [segments]
    split
    · exact List.cons_ne_nil _ _
    · split <;> exact List.cons_ne_nil _ _

/-- A slash keeps the segments on both sides of it apart. -/
theorem segments_append_slash (front back : List Char) :
    segments (front ++ '/' :: back) = segments front ++ segments back := by
  induction front with
  | nil =>
    obtain ⟨segment, others, hback⟩ := List.exists_cons_of_ne_nil (segments_ne_nil back)
    have hslash : segments ('/' :: back) = [] :: segment :: others := by
      rw [segments, hback]
      rfl
    rw [List.nil_append, hslash, hback]
    rfl
  | cons c rest ih =>
    obtain ⟨segment, others, hrest⟩ := List.exists_cons_of_ne_nil (segments_ne_nil rest)
    rw [hrest] at ih
    rw [List.cons_append, segments, ih, segments, hrest]
    -- On the text in front: a slash opens a segment, and any other character joins the first one.
    by_cases hc : c == '/'
    · simp only [List.cons_append, if_pos hc]
    · simp only [List.cons_append, if_neg hc]

/-- A name without a slash is one segment. -/
theorem segments_of_not_mem {cs : List Char} (h : '/' ∉ cs) : segments cs = [cs] := by
  induction cs with
  | nil => rfl
  | cons c rest ih =>
    have hc : ¬(c == '/') = true := by
      rw [beq_iff_eq]
      rintro rfl
      exact h List.mem_cons_self
    rw [segments, ih fun hmem => h (List.mem_cons_of_mem c hmem)]
    simp only [if_neg hc]

/-- A slash keeps the names on both sides of it apart. -/
theorem names_append_slash (front back : List Char) :
    names (front ++ '/' :: back) = names front ++ names back := by
  rw [names, segments_append_slash, List.filter_append]
  rfl

/-- The path of a file has the name of the file behind those of the directory. -/
theorem names_join {name : String} (hslash : '/' ∉ name.toList) (hempty : name.toList ≠ [])
    (hdot : name.toList ≠ ['.']) (directory : String) :
    names (join directory name).toList = names directory.toList ++ [name.toList] := by
  have hname : names name.toList = [name.toList] := by
    rw [names, segments_of_not_mem hslash]
    simp [hempty, hdot]
  have habsolute : isAbsolute name.toList = false := by
    rw [isAbsolute, beq_eq_false_iff_ne]
    exact fun h => hslash (List.mem_of_mem_head? h)
  -- The path of the directory is empty, ends in a slash, or is given one.
  rw [join, habsolute, Bool.false_or]
  split
  · next hempty =>
    rw [eq_of_beq hempty, hname]
    rfl
  · split
    · next hlast =>
      obtain ⟨front, hfront⟩ := List.getLast?_eq_some_iff.1 (eq_of_beq hlast)
      rw [String.toList_append, hfront, List.append_assoc, List.singleton_append,
        names_append_slash, names_append_slash, hname]
      simp [names, segments]
    · rw [String.toList_append, String.toList_append, List.append_assoc, ← hname,
        ← names_append_slash]
      rfl

end ControllerTypes.Files
