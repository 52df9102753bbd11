import ControllerTypes.Proofs.Source.OneLine
import ControllerTypes.Source.Filter

/-!
# `ControllerTypes.Proofs.Source.Comment`: texts that stay in their comment

The title of a description goes into the documentation of the package as a comment, whatever stands
in it. A line of it that came out without its slashes would be read as Go.

`uncomment` takes the slashes off a line, with one space behind them, and so undoes `commentLine` up
to the blanks at the end of the line (`uncomment_commentLine`). The comment of a text is put together
with line feeds, and its lines have none of their own (`not_mem_commentLine`). That is why cutting it
at the line feeds gives the same lines again (`splitOn_comment`), and each of them reads back as a line
of the text (`comment_reads_back`).

Only an empty text has no line at all. What is written for it is empty too, and that is one line
without slashes when it is cut.
-/

set_option autoImplicit false

namespace ControllerTypes.Source

open Text

/-- The line without the slashes in front and one space behind them. -/
def uncomment : List Char → List Char
  | '/' :: '/' :: ' ' :: text => text
  | '/' :: '/' :: text => text
  | line => line

/-- The line begins with two slashes and does not end with a blank. -/
structure Commented (line : List Char) : Prop where
  slashes : ['/', '/'] <+: line
  trimmed : ∀ c ∈ line.getLast?, isBlank c = false

/-! ### One line -/

/-- A trimmed line does not end with a blank, as trimming goes on until something else is at the
end. -/
theorem isBlank_getLast?_trimEnd {line : List Char} {c : Char}
    (h : c ∈ (trimEnd line).getLast?) : isBlank c = false := by
  rw [trimEnd, dropWhileEnd, List.getLast?_reverse] at h
  have hnot := List.head?_dropWhile_not isBlank line.reverse
  rw [h] at hnot
  simpa using hnot

/-- Taking the slashes off gives the line back without the blanks at its end. The space behind the
slashes is missing where there is no text. -/
theorem uncomment_commentLine (line : List Char) : uncomment (commentLine line) = trimEnd line := by
  unfold commentLine
  split
  · next hempty => exact hempty.symm
  · rfl

/-- What is written for a line is `Commented`, whether there is text in the line or not. -/
theorem commented_commentLine (line : List Char) : Commented (commentLine line) := by
  unfold commentLine
  split
  · refine ⟨List.prefix_rfl, fun c hc => ?_⟩
    cases hc
    decide
  · next hline =>
    refine ⟨⟨_, rfl⟩, fun c hc => ?_⟩
    -- There is text behind the slashes, and the last character is that of the text.
    obtain ⟨first, rest, htext⟩ := List.exists_cons_of_ne_nil hline
    rw [htext] at hc
    rw [List.getLast?_cons_cons, List.getLast?_cons_cons, List.getLast?_cons_cons, ← htext] at hc
    exact isBlank_getLast?_trimEnd hc

/-! ### All lines -/

/-- A text that is not empty has a line, though it may be an empty one. -/
theorem lines_ne_nil {cs : List Char} (h : cs ≠ []) : lines cs ≠ [] := by
  fun_cases lines cs with
  | case1 => exact absurd rfl h
  | case2 | case3 | case4 | case5 => exact List.cons_ne_nil _ _

/-- The comment of a text, cut at its line feeds, has a line for each line of the text. This is
where the line feeds in the text itself would show. -/
theorem splitOn_comment {s : String} (h : s ≠ "") :
    ("\n".intercalate (comment s)).toList.splitOn '\n' = (lines s.toList).map commentLine := by
  have htexts : (comment s).map String.toList = (lines s.toList).map commentLine := by
    rw [comment, List.map_map]
    exact List.map_congr_left fun line _ => String.toList_ofList
  rw [String.toList_intercalate, htexts]
  -- Cutting what was put together gives the pieces back if no piece has a line feed in it, and if
  -- there is a piece at all.
  refine List.splitOn_intercalate '\n' (List.forall_mem_map.2 fun line hline => ?_) ?_
  · exact not_mem_commentLine (not_mem_of_mem_lines hline)
  · rw [Ne, List.map_eq_nil_iff]
    exact lines_ne_nil fun hempty => h (String.toList_eq_nil_iff.1 hempty)

/-- The comment of a text that is not empty, cut at its line feeds, has as many lines as the text.
All of them are comments without blanks at their ends. Without the slashes they are the lines of the
text, trimmed at the end, in order. -/
theorem comment_reads_back (s : String) (h : s ≠ "") :
    ∃ text, Filter.comment.apply (.string s) = .ok text ∧
      (text.toList.splitOn '\n').length = (lines s.toList).length ∧
      (∀ line ∈ text.toList.splitOn '\n', Commented line) ∧
      (text.toList.splitOn '\n').map uncomment = (lines s.toList).map trimEnd := by
  -- All three parts speak of the text that is cut, so they begin with the same lemma.
  refine ⟨_, rfl, ?_, ?_, ?_⟩
  · rw [splitOn_comment h, List.length_map]
  · rw [splitOn_comment h]
    exact List.forall_mem_map.2 fun line _ => commented_commentLine line
  · rw [splitOn_comment h, List.map_map]
    exact List.map_congr_left fun line _ => uncomment_commentLine line

/-- Blanks at the ends of lines go, and so does a carriage return; the empty line in between has its
slashes, and the line behind it keeps its indentation. -/
theorem orders_commented :
    "Orders \r\n\n  paid\t" ≠ "" ∧
      ∃ text, Filter.comment.apply (.string "Orders \r\n\n  paid\t") = .ok text ∧
        text = "// Orders\n//\n//   paid" ∧ (text.toList.splitOn '\n').length = 3 ∧
        (∀ line ∈ text.toList.splitOn '\n', Commented line) ∧
        (text.toList.splitOn '\n').map uncomment =
          ["Orders".toList, "".toList, "  paid".toList] := by
  have hne : "Orders \r\n\n  paid\t" ≠ "" := by decide
  obtain ⟨text, happly, hlength, hcommented, hback⟩ := comment_reads_back _ hne
  have htext : "\n".intercalate (comment "Orders \r\n\n  paid\t") = "// Orders\n//\n//   paid" := by
    decide
  refine ⟨hne, text, happly, (Except.ok.inj happly).symm.trans htext, ?_, hcommented, ?_⟩
  · rw [hlength]
    decide
  · rw [hback]
    decide

end ControllerTypes.Source
