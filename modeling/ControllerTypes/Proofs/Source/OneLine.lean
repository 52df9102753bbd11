import ControllerTypes.Proofs.Name.Exported
import ControllerTypes.Proofs.Source.Literal
import ControllerTypes.Resource.Extract
import ControllerTypes.Source.File
import Mathlib

/-!
# `ControllerTypes.Proofs.Source.OneLine`: texts that stay on one line

A file is a list of lines, and a line feed inside of one of them makes two lines of it
(`lineFeeds_unlines_eq_length_iff`). `OneLine` is a text without line feeds.

Three sorts of text have none whatever a document says. What is made of letters and digits and of the
few signs that Go types are written with is `Plain`, and so are identifiers, plurals and types of
fields. A title is cut at its line feeds before it becomes comments (`oneLine_of_mem_comment`). The
literals of enumerations are quoted (`oneLine_quote`).
-/

set_option autoImplicit false

namespace ControllerTypes.Source

open Name Text

/-! ### Lines and line feeds -/

/-- How many line feeds the text has. -/
def lineFeeds (s : String) : Nat := s.toList.count '\n'

/-- The text has no line feed. -/
def OneLine (s : String) : Prop := '\n' ∉ s.toList

instance (s : String) : Decidable (OneLine s) := inferInstanceAs (Decidable (¬ '\n' ∈ s.toList))

/-- A text is one line if both parts of it are, wherever it is cut. -/
theorem oneLine_append {s t : String} : OneLine (s ++ t) ↔ OneLine s ∧ OneLine t := by
  rw [OneLine, String.toList_append, List.mem_append, not_or]
  rfl

/-- The line feeds of two texts, one behind the other, are those of both. -/
theorem lineFeeds_append (s t : String) : lineFeeds (s ++ t) = lineFeeds s + lineFeeds t := by
  rw [lineFeeds, String.toList_append, List.count_append]
  rfl

/-- No line feeds are the same as one line. -/
theorem lineFeeds_eq_zero_iff {s : String} : lineFeeds s = 0 ↔ OneLine s := List.count_eq_zero

/-- Every line ends with a line feed of its own, beside those that are in it. So there are at least
as many as there are lines. -/
theorem lineFeeds_unlines (ls : List String) :
    lineFeeds (unlines ls) = ls.length + (ls.map lineFeeds).sum := by
  induction ls with
  | nil => rfl
  | cons l rest ih =>
    have hcons : unlines (l :: rest) = l ++ "\n" ++ unlines rest := String.join_cons
    have hend : lineFeeds "\n" = 1 := by decide
    rw [hcons, lineFeeds_append, lineFeeds_append, hend, ih, List.length_cons, List.map_cons,
      List.sum_cons]
    omega

/-- A file has as many lines as it was made of if none of these has a line feed in it: any line feed
in excess is one inside of a line. -/
theorem lineFeeds_unlines_eq_length_iff {ls : List String} :
    lineFeeds (unlines ls) = ls.length ↔ ∀ l ∈ ls, OneLine l := by
  rw [lineFeeds_unlines, Nat.add_eq_left, List.sum_eq_zero_iff_forall_eq_nat, List.forall_mem_map]
  exact forall₂_congr fun _ _ => lineFeeds_eq_zero_iff

/-- Texts on one line can be listed on one, with a `separator` that is one line itself. -/
theorem oneLine_intercalate {separator : String} {texts : List String} (hs : OneLine separator)
    (ht : ∀ t ∈ texts, OneLine t) : OneLine (separator.intercalate texts) := by
  induction texts with
  | nil => exact List.not_mem_nil
  | cons t rest ih =>
    obtain ⟨hfirst, hrest⟩ := List.forall_mem_cons.1 ht
    cases rest with
    | nil => exact hfirst
    | cons u others =>
      rw [String.intercalate_cons_cons, oneLine_append, oneLine_append]
      exact ⟨⟨hfirst, hs⟩, ih hrest⟩

/-! ### Comments and literals -/

/-- A text that is cut at its line feeds has none left. -/
theorem not_mem_of_mem_lines {cs line : List Char} (h : line ∈ lines cs) : '\n' ∉ line := by
  -- One case for each rule of `lines`; only the last two put a character into a line, and it is no
  -- line feed.
  fun_induction lines cs generalizing line with
  | case1 => cases h
  | case2 rest ih | case3 rest ih =>
    rcases List.mem_cons.1 h with rfl | h
    · exact List.not_mem_nil
    · exact ih h
  | case4 c rest _ hc hlines ih =>
    rw [List.mem_singleton.1 h]
    intro hmem
    exact hc (List.mem_singleton.1 hmem).symm
  | case5 c rest _ hc first others hlines ih =>
    rw [hlines] at ih
    rcases List.mem_cons.1 h with rfl | h
    · intro hmem
      rcases List.mem_cons.1 hmem with heq | hmem
      · exact hc heq.symm
      · exact ih List.mem_cons_self hmem
    · exact ih (List.mem_cons_of_mem _ h)

/-- A line stays one when it is written as a comment: the slashes are put in front and blanks taken
off the end. -/
theorem not_mem_commentLine {line : List Char} (h : '\n' ∉ line) : '\n' ∉ commentLine line := by
  have htrimmed : '\n' ∉ trimEnd line := by
    intro hmem
    have hmem := List.mem_reverse.1 hmem
    exact h (List.mem_reverse.1 ((List.dropWhile_sublist _).mem hmem))
  unfold commentLine
  split
  · decide
  · simp only [List.mem_cons, not_or]
    exact ⟨by decide, by decide, by decide, htrimmed⟩

/-- The comments a text is turned into are lines. -/
theorem oneLine_of_mem_comment {text l : String} (h : l ∈ comment text) : OneLine l := by
  obtain ⟨line, hline, rfl⟩ := List.mem_map.1 h
  rw [OneLine, String.toList_ofList]
  exact not_mem_commentLine (not_mem_of_mem_lines hline)

/-- A literal is one line. -/
theorem oneLine_quote (s : String) : OneLine (Json.quote s) := by
  rw [OneLine, Json.quote, String.toList_ofList, List.mem_cons, List.mem_append, List.mem_flatMap]
  rintro (h | ⟨c, _, hc⟩ | h)
  · exact absurd h (by decide)
  · -- A line feed is a control character, and none of them is written.
    exact absurd (Literal.le_toNat_of_mem_escape hc) (by decide)
  · exact absurd h (by decide)

/-! ### Plain texts -/

/-- The character is a letter or a digit, or one of the signs in Go types. -/
def isPlain (c : Char) : Bool := isAsciiAlphanumeric c || ['*', '[', ']', '.'].contains c

/-- The text has plain characters only. -/
def Plain (s : String) : Prop := ∀ c ∈ s.toList, isPlain c = true

instance (s : String) : Decidable (Plain s) :=
  decidable_of_iff (s.toList.all isPlain = true) List.all_eq_true

/-- Two plain texts, one behind the other, are plain. -/
theorem Plain.append {s t : String} (hs : Plain s) (ht : Plain t) : Plain (s ++ t) := by
  intro c hc
  rw [String.toList_append] at hc
  exact (List.mem_append.1 hc).elim (hs c) (ht c)

/-- Other characters are not in a plain text. -/
theorem Plain.not_mem {s : String} (h : Plain s) {c : Char} (hc : isPlain c = false) :
    c ∉ s.toList :=
  fun hmem => Bool.false_ne_true (hc.symm.trans (h c hmem))

/-- A plain text is one line, since a line feed is not plain. -/
theorem Plain.oneLine {s : String} (h : Plain s) : OneLine s := h.not_mem (by decide)

/-- Exported names are plain. -/
theorem plain_of_exported {s : String} (h : Exported s) : Plain s := by
  intro d hd
  rw [isPlain, h.alphanumeric d hd, Bool.true_or]

/-- The type of what a list or a map holds is plain if the type it refers to is. -/
theorem plain_elementExpr {type : FieldType} (h : ∀ n, type.referenced? = some n → Plain n) :
    Plain type.elementExpr.text := by
  induction type with
  | string | integer | number | boolean | dateTime => decide
  | list element ih | map element ih => exact Plain.append (by decide) (ih h)
  | reference name => exact Plain.append (by decide) (h name rfl)

/-- The type of what a field holds is plain if the type it refers to is. -/
theorem plain_valueExpr {type : FieldType} (h : ∀ n, type.referenced? = some n → Plain n) :
    Plain type.valueExpr.text := by
  cases type with
  | reference name => exact h name rfl
  | dateTime => decide
  | _ => exact plain_elementExpr h

/-- The Go type of a field is plain if the type it refers to is, with a pointer in front or without.
-/
theorem plain_goType {f : FieldDefinition} (h : ∀ n, f.type.referenced? = some n → Plain n) :
    Plain f.goType := by
  rw [FieldDefinition.goType]
  rcases f.typeExpr_cases with heq | heq | heq <;> rw [heq]
  · exact plain_elementExpr h
  · exact plain_valueExpr h
  · exact Plain.append (by decide) (plain_valueExpr h)

/-- A plural is plain if the kind is: it has the letters of the kind, made small, and those of an
ending. -/
theorem plain_plural {kind : String} (h : Plain kind) : Plain (plural kind) := by
  have hlower {c : Char} (hc : isPlain c = true) : isPlain (toAsciiLower c) = true := by
    cases hupper : isAsciiUpper c with
    | false => rwa [toAsciiLower_of_not_isAsciiUpper hupper]
    | true =>
      have hcode := (toNat_of_isAsciiUpper hupper).2
      exact forall_ascii (P := fun c => isAsciiUpper c = true → isPlain (toAsciiLower c) = true)
        (by decide) (by omega) hupper
  intro c hc
  rw [plural, String.toList_ofList, List.mem_reverse] at hc
  -- A letter of the kind, or one of the ending.
  rcases mem_pluralReversed hc with hc | hc
  · obtain ⟨d, hd, rfl⟩ := List.mem_map.1 (List.mem_reverse.1 hc)
    exact hlower (h d hd)
  · have hending : ['s', 'e', 'i'].all isPlain = true := by decide
    exact List.all_eq_true.1 hending c hc

end ControllerTypes.Source
