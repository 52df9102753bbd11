import ControllerTypes.Name.Snake
import ControllerTypes.Proofs.Name.Exported
import Mathlib.Data.List.DropRight

/-!
# `ControllerTypes.Proofs.Name.Snake`: what is left of a name in snake case

Marking, squeezing and stripping each say one thing about what they leave.

Marking writes one character for each, which is what that character becomes (`written`), and adds
underscores (`markChar_eq`, `mem_mark`). Squeezing and stripping only take underscores away, until
each one that is left stands alone between two other characters (`separated_strip_squeeze`). This is
also when they have nothing to do (`strip_squeeze_eq_self`), so a name that is in snake case already
stays as it is (`snakeChars_eq_self`).

A digit is passed on by all three, and since it is no letter, it makes no capital in front of it
begin a word. So a number that stands behind a name is there unchanged afterwards
(`snakeChars_append_digits`).
-/

set_option autoImplicit false

namespace ControllerTypes.Name

open Text

namespace Snake

/-- The small letter of a capital is one. -/
theorem isAsciiLower_toAsciiLower {c : Char} (h : isAsciiUpper c = true) :
    isAsciiLower (toAsciiLower c) = true :=
  forall_ascii (P := fun c => isAsciiUpper c = true → isAsciiLower (toAsciiLower c) = true)
    (by decide) (toNat_of_isAsciiAlphanumeric (isAsciiAlphanumeric_of_isAsciiUpper h)) h

/-- In ASCII the capitals are those from `A` to `Z`, so `isUpper` needs no table there. -/
theorem isUpper_of_isAsciiAlphanumeric {c : Char} (h : isAsciiAlphanumeric c = true) :
    isUpper c = isAsciiUpper c := by
  rw [isUpper, if_pos (toNat_of_isAsciiAlphanumeric h)]

/-- An ASCII capital is a capital. -/
theorem isUpper_of_isAsciiUpper {c : Char} (h : isAsciiUpper c = true) : isUpper c = true := by
  rw [isUpper_of_isAsciiAlphanumeric (isAsciiAlphanumeric_of_isAsciiUpper h), h]

/-- What is no capital is no ASCII capital either. -/
theorem not_isAsciiUpper {c : Char} (h : isUpper c = false) : isAsciiUpper c = false := by
  rw [← Bool.not_eq_true] at h ⊢
  exact mt isUpper_of_isAsciiUpper h

/-- The separators are dashes, spaces and dots. -/
theorem isSeparator_eq_false_iff {c : Char} :
    isSeparator c = false ↔ c ≠ '-' ∧ c ≠ ' ' ∧ c ≠ '.' := by
  simp [isSeparator, and_assoc]

/-- No capital is a separator. -/
theorem isSeparator_of_isUpper {c : Char} (h : isUpper c = true) : isSeparator c = false := by
  rw [isSeparator_eq_false_iff]
  refine ⟨?_, ?_, ?_⟩ <;> rintro rfl <;> exact absurd h (by decide)

/-! ### What is written for a character -/

/-- What the character becomes, apart from an underscore that may be put in front of it. -/
def written (c : Char) : Char := if isSeparator c then '_' else toAsciiLower c

/-- Marking writes one character for each, and an underscore in front of a capital that begins a
word. So the two parts can be spoken of on their own. -/
theorem markChar_eq (before : Option Char) (c : Char) (rest : List Char) :
    markChar before c rest =
      (if isUpper c && beginsWord before rest then ['_'] else []) ++ [written c] := by
  -- A capital is no separator and a separator no capital, so `written` has one case left on either
  -- side.
  unfold markChar
  split
  · next hupper =>
    rw [hupper, Bool.true_and, written, isSeparator_of_isUpper hupper]
    split <;> rfl
  · next hupper =>
    rw [Bool.not_eq_true] at hupper
    rw [hupper, Bool.false_and, written, toAsciiLower_of_not_isAsciiUpper (not_isAsciiUpper hupper)]
    split <;> rfl

/-- No underscore is put in front of a capital that stands at the beginning, where nothing is
`before` it. -/
theorem mark_none_of_isAsciiUpper {c : Char} (h : isAsciiUpper c = true) (rest : List Char) :
    mark none (c :: rest) = toAsciiLower c :: mark (some c) rest := by
  rw [mark, markChar, if_pos (isUpper_of_isAsciiUpper h)]
  rfl

/-- A marked name consists of underscores and what its characters become, from whatever character
`before` the marking goes on. -/
theorem mem_mark {before : Option Char} {cs : List Char} {d : Char} (h : d ∈ mark before cs) :
    d = '_' ∨ ∃ c ∈ cs, d = written c := by
  induction cs generalizing before with
  | nil => exact absurd h List.not_mem_nil
  | cons c rest ih =>
    rw [mark, markChar_eq, List.append_assoc, List.mem_append, List.mem_append] at h
    -- The underscore in front, the character itself, or what is behind it.
    rcases h with h | h | h
    · split at h
      · exact .inl (List.mem_singleton.1 h)
      · exact absurd h List.not_mem_nil
    · exact .inr ⟨c, List.mem_cons_self, List.mem_singleton.1 h⟩
    · rcases ih h with heq | ⟨e, he, heq⟩
      · exact .inl heq
      · exact .inr ⟨e, List.mem_cons_of_mem c he, heq⟩

/-- A marked name ends with what its last character becomes, since an underscore is only put in
front of one. -/
theorem getLast?_mark (before : Option Char) (cs : List Char) :
    (mark before cs).getLast? = cs.getLast?.map written := by
  induction cs generalizing before with
  | nil => rfl
  | cons c rest ih =>
    rw [mark, List.getLast?_append, ih, markChar_eq, List.getLast?_concat, List.getLast?_cons]
    cases rest.getLast? with
    | none => rfl
    | some d => rfl

/-- A letter or digit becomes a small letter or a digit. -/
theorem of_written {c : Char} (h : isAsciiAlphanumeric c = true) :
    isAsciiLower (written c) = true ∨ isAsciiDigit (written c) = true :=
  forall_ascii (P := fun c => isAsciiAlphanumeric c = true →
    isAsciiLower (written c) = true ∨ isAsciiDigit (written c) = true)
    (by decide) (toNat_of_isAsciiAlphanumeric h) h

/-- What becomes of letters and digits may stand in the name of a file: small letters, digits and
underscores. -/
theorem of_mem_mark {before : Option Char} {cs : List Char} {d : Char}
    (hcs : ∀ c ∈ cs, isAsciiAlphanumeric c = true) (hd : d ∈ mark before cs) :
    isAsciiLower d = true ∨ isAsciiDigit d = true ∨ d = '_' := by
  rcases mem_mark hd with rfl | ⟨c, hc, rfl⟩
  · exact .inr (.inr rfl)
  · exact (of_written (hcs c hc)).imp_right .inl

/-! ### Underscores -/

/-- Every underscore stands alone between two other characters. -/
structure Separated (cs : List Char) : Prop where
  single : ¬['_', '_'] <:+: cs
  head : cs.head? ≠ some '_'
  last : cs.getLast? ≠ some '_'

/-- Where there are no underscores, all of them stand alone. -/
theorem Separated.of_not_mem {cs : List Char} (h : '_' ∉ cs) : Separated cs where
  single hdouble := h (hdouble.subset List.mem_cons_self)
  head hhead := h (List.mem_of_head? hhead)
  last hlast := h (List.mem_of_getLast? hlast)

/-- Squeezing leaves what is not an underscore where it is, whatever follows. -/
theorem squeeze_cons_of_ne {c : Char} (hc : c ≠ '_') (cs : List Char) :
    squeeze (c :: cs) = c :: squeeze cs := by
  cases cs with
  | nil => rfl
  | cons d rest =>
    rw [squeeze, if_neg]
    simp [hc]

/-- Squeezing adds nothing and changes no order. -/
theorem squeeze_sublist (cs : List Char) : (squeeze cs).Sublist cs := by
  fun_induction squeeze cs with
  | case1 => exact .refl _
  | case2 => exact .refl _
  | case3 c d rest h ih => exact ih.cons c
  | case4 c d rest h ih => exact ih.cons_cons c

/-- A squeezed name begins with what the name begins with, as one underscore of a run is left. -/
theorem head?_squeeze (cs : List Char) : (squeeze cs).head? = cs.head? := by
  fun_induction squeeze cs with
  | case1 => rfl
  | case2 => rfl
  | case3 c d rest h ih =>
    have hcd : c = d := by simp_all
    rw [ih, hcd, List.head?_cons, List.head?_cons]
  | case4 c d rest h ih => rfl

/-- A squeezed name ends with what the name ends with, for the same reason. -/
theorem getLast?_squeeze (cs : List Char) : (squeeze cs).getLast? = cs.getLast? := by
  fun_induction squeeze cs with
  | case1 => rfl
  | case2 => rfl
  | case3 c d rest h ih => rw [ih, List.getLast?_cons_cons]
  | case4 c d rest h ih => rw [List.getLast?_cons, ih, ← List.getLast?_cons]

/-- No underscore follows another one in a squeezed name. -/
theorem not_infix_squeeze (cs : List Char) : ¬['_', '_'] <:+: squeeze cs := by
  fun_induction squeeze cs with
  | case1 => decide
  | case2 c => exact fun h => Nat.not_succ_le_self 1 h.length_le
  | case3 c d rest h ih => exact ih
  | case4 c d rest h ih =>
    intro hdouble
    rcases List.infix_cons_iff.1 hdouble with hfront | hrest
    · -- What follows `c` in the squeezed name is the same as before, which is `d`.
      obtain ⟨hc, tail, htail⟩ := List.cons_prefix_cons.1 hfront
      have hhead := head?_squeeze (d :: rest)
      rw [← htail] at hhead
      cases hhead
      exact h (by simp [← hc])
    · exact ih hrest

/-- Squeezing changes nothing if and only if no underscore follows another one. -/
theorem squeeze_eq_self_iff {cs : List Char} : squeeze cs = cs ↔ ¬['_', '_'] <:+: cs := by
  refine ⟨fun h => h ▸ not_infix_squeeze cs, fun hsingle => ?_⟩
  fun_induction squeeze cs with
  | case1 => rfl
  | case2 => rfl
  | case3 c d rest h ih =>
    have hcd : c = '_' ∧ d = '_' := by simpa using h
    -- Where squeezing leaves something out, there is a pair at the front.
    obtain ⟨rfl, rfl⟩ := hcd
    exact absurd (List.prefix_append ['_', '_'] rest).isInfix hsingle
  | case4 c d rest h ih => rw [ih fun hdouble => hsingle (List.infix_cons hdouble)]

/-- Stripping leaves a part of the name in one piece, so what is true of all its pieces stays true.
-/
theorem strip_isInfix (cs : List Char) : strip cs <:+: cs :=
  (List.rdropWhile_prefix (· == '_') _).isInfix.trans (List.dropWhile_suffix (· == '_')).isInfix

/-- Nothing is taken off the front of a name that does not begin with an underscore. -/
theorem dropWhile_eq_self {cs : List Char} (h : cs.head? ≠ some '_') :
    cs.dropWhile (· == '_') = cs := by
  cases cs with
  | nil => rfl
  | cons c rest => exact List.dropWhile_cons_of_neg (by simpa using h)

/-- Nothing is taken off the end of a name that does not end with an underscore. -/
theorem strip_eq_dropWhile {cs : List Char} (h : cs.getLast? ≠ some '_') :
    strip cs = cs.dropWhile (· == '_') := by
  -- The last character of what is left in front is that of the whole name.
  refine List.rdropWhile_eq_self_iff.2 fun hne hlast => h ?_
  have hend := List.dropWhile_suffix (· == '_') (l := cs)
  rw [hend.getLast hne] at hlast
  rw [List.getLast?_eq_some_getLast (hend.ne_nil hne), eq_of_beq hlast]

/-- A stripped name does not begin with an underscore. -/
theorem head?_strip_ne (cs : List Char) : (strip cs).head? ≠ some '_' := by
  intro hhead
  obtain ⟨rest, heq⟩ := List.head?_eq_some_iff.1 hhead
  have hfront : '_' :: rest <+: cs.dropWhile (· == '_') :=
    heq ▸ List.rdropWhile_prefix (· == '_') _
  obtain ⟨tail, htail⟩ := hfront
  have hnot := List.head?_dropWhile_not (· == '_') cs
  rw [← htail] at hnot
  cases hnot

/-- A stripped name does not end with an underscore. -/
theorem getLast?_strip_ne (cs : List Char) : (strip cs).getLast? ≠ some '_' := by
  rw [strip, List.getLast?_reverse]
  intro hlast
  have hnot := List.head?_dropWhile_not (· == '_') (cs.dropWhile (· == '_')).reverse
  rw [hlast] at hnot
  cases hnot

/-- Stripping takes nothing off the front of a name that does not begin with an underscore; what is
left behind `c` begins like `cs`. -/
theorem strip_cons_of_ne {c : Char} (hc : c ≠ '_') (cs : List Char) :
    ∃ rest, strip (c :: cs) = c :: rest ∧ rest <+: cs := by
  have hdrop : strip (c :: cs) = (c :: cs).rdropWhile (· == '_') := by
    rw [strip, List.dropWhile_cons_of_neg (by simpa using hc)]
    rfl
  -- At least the first character is left.
  have hne : (c :: cs).rdropWhile (· == '_') ≠ [] := by
    rw [Ne, List.rdropWhile_eq_nil_iff]
    intro h
    exact hc (by simpa using h c List.mem_cons_self)
  obtain ⟨first, rest, heq⟩ := List.exists_cons_of_ne_nil hne
  have hfront := List.rdropWhile_prefix (· == '_') (l := c :: cs)
  rw [heq] at hfront
  obtain ⟨rfl, hrest⟩ := List.cons_prefix_cons.1 hfront
  exact ⟨rest, by rw [hdrop, heq], hrest⟩

/-- Squeezed and stripped, a name has only underscores that stand alone: the pairs go first, and
then those at the ends. -/
theorem separated_strip_squeeze (cs : List Char) : Separated (strip (squeeze cs)) where
  single h := not_infix_squeeze cs (h.trans (strip_isInfix _))
  head := head?_strip_ne _
  last := getLast?_strip_ne _

/-! ### Names that stay as they are -/

/-- Characters that are neither capitals nor separators are written as they are. -/
theorem mark_eq_self {before : Option Char} {cs : List Char}
    (h : ∀ c ∈ cs, isUpper c = false ∧ isSeparator c = false) : mark before cs = cs := by
  induction cs generalizing before with
  | nil => rfl
  | cons c rest ih =>
    obtain ⟨⟨hupper, hseparator⟩, hrest⟩ := List.forall_mem_cons.1 h
    rw [mark, markChar, hupper, hseparator, ih hrest]
    rfl

/-- Underscores that stand alone are left. -/
theorem strip_squeeze_eq_self {cs : List Char} (h : Separated cs) : strip (squeeze cs) = cs := by
  rw [squeeze_eq_self_iff.2 h.single, strip_eq_dropWhile h.last, dropWhile_eq_self h.head]

/-! ### Digits at the end -/

/-- A digit is neither a letter nor a separator nor an underscore. -/
theorem of_isAsciiDigit {c : Char} (h : isAsciiDigit c = true) :
    (isUpper c = false ∧ isSeparator c = false) ∧ isLower c = false ∧ c ≠ '_' :=
  forall_ascii (P := fun c => isAsciiDigit c = true →
    (isUpper c = false ∧ isSeparator c = false) ∧ isLower c = false ∧ c ≠ '_')
    (by decide) (by have := toNat_of_isAsciiDigit h; omega) h

/-- Digits behind a name are written as they are, and change nothing in front of them: a capital
that ends the name begins a word only for the sake of what stands before it. -/
theorem mark_append_digits {before : Option Char} {cs number : List Char}
    (h : ∀ c ∈ number, isAsciiDigit c = true) :
    mark before (cs ++ number) = mark before cs ++ number := by
  induction cs generalizing before with
  | nil => exact mark_eq_self fun c hc => (of_isAsciiDigit (h c hc)).1
  | cons c rest ih =>
    -- A digit is no small letter, so it makes no difference whether one follows or nothing does.
    have hbegins : beginsWord before (rest ++ number) = beginsWord before rest := by
      unfold beginsWord
      cases before with
      | none => rfl
      | some p =>
        cases rest with
        | cons d rest => rfl
        | nil =>
          cases number with
          | nil => rfl
          | cons d number =>
            have hd := (of_isAsciiDigit (h d List.mem_cons_self)).2.1
            simp [hd]
    rw [List.cons_append, mark, mark, ih, markChar, markChar, hbegins, List.append_assoc]

/-- A text without underscores that stands behind another one is not squeezed with it: a run ends
where that begins. -/
theorem squeeze_append {cs rest : List Char} (h : '_' ∉ rest) :
    squeeze (cs ++ rest) = squeeze cs ++ rest := by
  have hrest : squeeze rest = rest := squeeze_eq_self_iff.2 (Separated.of_not_mem h).single
  fun_induction squeeze cs with
  | case1 => exact hrest
  | case2 c =>
    cases rest with
    | nil => rfl
    | cons d rest =>
      -- The last character of the name may be an underscore, but the next one is not.
      have hd : d ≠ '_' := fun heq => h (heq ▸ List.mem_cons_self)
      show squeeze (c :: d :: rest) = c :: d :: rest
      rw [squeeze, if_neg (by simp [hd]), hrest]
  | case3 c d others hc ih =>
    show squeeze (c :: d :: (others ++ rest)) = _
    rw [squeeze, if_pos hc]
    exact ih
  | case4 c d others hc ih =>
    show squeeze (c :: d :: (others ++ rest)) = _
    rw [squeeze, if_neg hc]
    exact congrArg (List.cons c) ih

/-- Only the underscores in front are taken off a text that ends without them. They may be all that
there is in front of `rest`. -/
theorem strip_append {cs rest : List Char} (hne : rest ≠ []) (h : '_' ∉ rest) :
    strip (cs ++ rest) = cs.dropWhile (· == '_') ++ rest := by
  have hlast : (cs ++ rest).getLast? ≠ some '_' := by
    rw [List.getLast?_append_of_ne_nil cs hne]
    exact (Separated.of_not_mem h).last
  rw [strip_eq_dropWhile hlast, List.dropWhile_append]
  split
  · next hempty =>
    rw [dropWhile_eq_self (Separated.of_not_mem h).head, List.isEmpty_iff.1 hempty, List.nil_append]
  · rfl

end Snake

/-- A `number` behind a name is kept as it is, and only what is in front of it is put in snake case.
An underscore between them is kept too, as it does not stand at the end. -/
theorem snakeChars_append_digits {cs number : List Char} (hne : number ≠ [])
    (h : ∀ c ∈ number, isAsciiDigit c = true) :
    snakeChars (cs ++ number) =
      (Snake.squeeze (Snake.mark none cs)).dropWhile (· == '_') ++ number := by
  have hno : '_' ∉ number := fun hmem => (Snake.of_isAsciiDigit (h _ hmem)).2.2 rfl
  rw [snakeChars, Snake.mark_append_digits h, Snake.squeeze_append hno, Snake.strip_append hne hno]

/-- A name without capitals and separators, whose underscores stand alone, stays as it is. -/
theorem snakeChars_eq_self {cs : List Char}
    (h : ∀ c ∈ cs, isUpper c = false ∧ Snake.isSeparator c = false) (hsep : Snake.Separated cs) :
    snakeChars cs = cs := by
  rw [snakeChars, Snake.mark_eq_self h, Snake.strip_squeeze_eq_self hsep]

/-- A name in snake case does not end with an underscore. -/
theorem getLast?_snakeCase_ne (s : String) : (snakeCase s).toList.getLast? ≠ some '_' := by
  rw [snakeCase, String.toList_ofList]
  exact Snake.getLast?_strip_ne _

end ControllerTypes.Name
