import ControllerTypes.Settings
import Mathlib.Data.List.Infix

/-!
# `ControllerTypes.Proofs.Settings.Glob`: patterns as globs

A pattern for definitions that are no resources is read the way names of files are matched. `Glob`
is this reading: each star stands for a text, which may be empty, and every other character for
itself.

`Settings.fits` does not match at all. It looks for stars at both ends of a pattern, takes them off,
and compares what is left as a whole. So the number of stars at an end does not matter, and a star
anywhere else is a character like all others. `fits_iff` says this of every pattern. `Glob` comes to
the same where no star is left in the middle (`glob_iff`), and `ignores_iff_glob` puts the two
together for a list of patterns.
-/

set_option autoImplicit false

namespace ControllerTypes.Settings

/-- A name matches a pattern of stars and other characters. -/
inductive Glob : List Char → List Char → Prop
  | nil : Glob [] []
  | star {pattern rest : List Char} (part : List Char) (h : Glob pattern rest) :
    Glob ('*' :: pattern) (part ++ rest)
  | char {c : Char} {pattern rest : List Char} (hc : c ≠ '*') (h : Glob pattern rest) :
    Glob (c :: pattern) (c :: rest)

/-- So many stars. -/
def stars (n : Nat) : List Char := List.replicate n '*'

/-- The pattern has its stars in front and at the end only. -/
def OuterStars (pattern : List Char) : Prop :=
  ∃ before core behind, '*' ∉ core ∧ pattern = stars before ++ core ++ stars behind

/-- The name has the core in it, with nothing in front unless there are stars before, and nothing at
its end unless there are stars behind. -/
def Holds (before : Nat) (core : List Char) (behind : Nat) (name : List Char) : Prop :=
  ∃ front back, name = front ++ core ++ back ∧
    (before = 0 → front = []) ∧ (behind = 0 → back = [])

/-! ### The reading as a glob -/

section
variable {pattern core name : List Char} {n before behind : Nat}

/-- The empty pattern matches the empty name only. -/
theorem glob_nil_iff : Glob [] name ↔ name = [] := by
  constructor
  · rintro ⟨⟩
    rfl
  · rintro rfl
    exact .nil

/-- Stars in front of a `pattern` stand for any text, and no star for none. That there may be
several makes no difference. -/
theorem glob_stars_append_iff :
    Glob (stars n ++ pattern) name ↔
      ∃ front rest, name = front ++ rest ∧ (n = 0 → front = []) ∧ Glob pattern rest := by
  induction n generalizing name with
  | zero =>
    constructor
    · exact fun h => ⟨[], name, rfl, fun _ => rfl, h⟩
    · rintro ⟨front, rest, rfl, hfront, h⟩
      rwa [hfront rfl]
  | succ n ih =>
    rw [stars, List.replicate_succ, List.cons_append, ← stars]
    constructor
    · -- A star is read as a star; the rule for other characters excludes it.
      rintro (_ | ⟨part, h⟩ | ⟨hc, -⟩)
      · obtain ⟨front, rest, rfl, -, h⟩ := ih.1 h
        exact ⟨part ++ front, rest, (List.append_assoc ..).symm, nofun, h⟩
      · exact absurd rfl hc
    · rintro ⟨front, rest, rfl, -, h⟩
      -- The first star takes all of the text, and the others nothing.
      exact .star front (ih.2 ⟨[], rest, rfl, fun _ => rfl, h⟩)

/-- Characters other than stars stand for themselves, so a `core` without stars has to be in the
name as it is. -/
theorem glob_append_iff (hcore : '*' ∉ core) :
    Glob (core ++ pattern) name ↔ ∃ rest, name = core ++ rest ∧ Glob pattern rest := by
  induction core generalizing name with
  | nil => simp
  | cons c core ih =>
    rw [List.mem_cons, not_or] at hcore
    constructor
    · rintro (_ | ⟨_, h⟩ | ⟨-, h⟩)
      · exact absurd rfl hcore.1
      · obtain ⟨rest, rfl, hrest⟩ := (ih hcore.2).1 h
        exact ⟨rest, rfl, hrest⟩
    · rintro ⟨rest, rfl, h⟩
      exact .char (Ne.symm hcore.1) ((ih hcore.2).2 ⟨rest, rfl, h⟩)

/-- With stars at the ends only, a glob is the text between them with something around it. -/
theorem glob_iff (hcore : '*' ∉ core) :
    Glob (stars before ++ core ++ stars behind) name ↔ Holds before core behind name := by
  -- The stars at the end are stars in front of the empty pattern.
  have hend (rest : List Char) : Glob (stars behind) rest ↔ (behind = 0 → rest = []) := by
    rw [← List.append_nil (stars behind), glob_stars_append_iff]
    simp only [glob_nil_iff]
    constructor
    · rintro ⟨front, _, rfl, hfront, rfl⟩
      rwa [List.append_nil]
    · exact fun h => ⟨rest, [], (List.append_nil rest).symm, h, rfl⟩
  rw [List.append_assoc, glob_stars_append_iff]
  simp only [glob_append_iff hcore, hend, Holds]
  constructor
  · rintro ⟨front, _, rfl, hfront, back, rfl, hback⟩
    exact ⟨front, back, (List.append_assoc ..).symm, hfront, hback⟩
  · rintro ⟨front, back, rfl, hfront, hback⟩
    exact ⟨front, _, List.append_assoc .., hfront, back, rfl, hback⟩

end

/-! ### What the program compares -/

/-- The comparison that the program makes with a pattern in the middle of a name is the one of the
library. -/
theorem isInfix_iff {α : Type} [BEq α] [LawfulBEq α] {part xs : List α} :
    isInfix part xs = true ↔ part <:+: xs := by
  induction xs with
  | nil => simp [isInfix]
  | cons x rest ih =>
    rw [isInfix, Bool.or_eq_true, List.isPrefixOf_iff_prefix, ih, List.infix_cons_iff]

section
variable {core name : List Char} {before behind : Nat}

/-- With nothing between the stars every name will do, unless there is no star either. -/
theorem holds_nil_iff : Holds before [] behind name ↔ (before + behind = 0 → name = []) := by
  constructor
  · rintro ⟨front, back, rfl, hfront, hback⟩ hsum
    rw [hfront (by omega), hback (by omega)]
    rfl
  · intro h
    by_cases hbefore : before = 0
    · exact ⟨[], name, rfl, fun _ => rfl, fun hbehind => h (by omega)⟩
    · exact ⟨name, [], by simp, fun hzero => absurd hzero hbefore, fun _ => rfl⟩

/-- Without stars the name is the core. -/
theorem holds_zero_zero_iff : Holds 0 core 0 name ↔ core = name := by
  constructor
  · rintro ⟨front, back, rfl, hfront, hback⟩
    rw [hfront rfl, hback rfl, List.nil_append, List.append_nil]
  · rintro rfl
    exact ⟨[], [], (List.append_nil core).symm, fun _ => rfl, fun _ => rfl⟩

/-- With stars in front only, the name ends with the core. -/
theorem holds_succ_zero_iff : Holds (before + 1) core 0 name ↔ core <:+ name := by
  constructor
  · rintro ⟨front, back, rfl, -, hback⟩
    rw [hback rfl, List.append_nil]
    exact List.suffix_append _ _
  · rintro ⟨front, rfl⟩
    exact ⟨front, [], (List.append_nil _).symm, nofun, fun _ => rfl⟩

/-- With stars behind only, the name begins with the core. -/
theorem holds_zero_succ_iff : Holds 0 core (behind + 1) name ↔ core <+: name := by
  constructor
  · rintro ⟨front, back, rfl, hfront, -⟩
    rw [hfront rfl, List.nil_append]
    exact List.prefix_append _ _
  · rintro ⟨back, rfl⟩
    exact ⟨[], back, rfl, fun _ => rfl, nofun⟩

/-- With stars on both sides the core is somewhere in the name. -/
theorem holds_succ_succ_iff : Holds (before + 1) core (behind + 1) name ↔ core <:+: name := by
  constructor
  · rintro ⟨front, back, rfl, -, -⟩
    exact List.infix_append _ _ _
  · rintro ⟨front, back, rfl⟩
    exact ⟨front, back, rfl, nofun, nofun⟩

end

/-! ### Stars at the ends -/

/-- Stars are the same in either direction. -/
theorem reverse_stars (n : Nat) : (stars n).reverse = stars n := List.reverse_replicate ..

/-- Taking the stars off the front of a text stops at the first other character. -/
theorem dropWhile_stars_append (n : Nat) {rest : List Char} (h : rest.head? ≠ some '*') :
    (stars n ++ rest).dropWhile (· == '*') = rest := by
  rw [List.dropWhile_append_of_pos (by simp [stars])]
  cases rest with
  | nil => rfl
  | cons c rest =>
    refine List.dropWhile_cons_of_neg ?_
    rw [beq_iff_eq]
    rintro rfl
    exact h rfl

/-- The text begins with a star if any were put in front of it. -/
theorem head?_stars_append (n : Nat) {rest : List Char} (h : rest.head? ≠ some '*') :
    ((stars n ++ rest).head? == some '*') = decide (n ≠ 0) := by
  cases n with
  | zero => simpa [stars] using h
  | succ n => rfl

/-- The text is not empty and has no star at either end. -/
structure Bare (core : List Char) : Prop where
  ne_nil : core ≠ []
  head : core.head? ≠ some '*'
  last : core.getLast? ≠ some '*'

namespace Bare

variable {core name : List Char} {before behind : Nat}

/-- A core that is bare is so in either direction, so what is said of the stars in front can be said
of those at the end. -/
theorem reverse (h : Bare core) : Bare core.reverse where
  ne_nil := mt List.reverse_eq_nil_iff.1 h.ne_nil
  head := List.head?_reverse ▸ h.last
  last := List.getLast?_reverse ▸ h.head

/-- Stars behind a core do not change how it begins, as there is something of it. -/
theorem head?_append (h : Bare core) (n : Nat) : (core ++ stars n).head? ≠ some '*' := by
  rw [List.head?_append_of_ne_nil _ h.ne_nil]
  exact h.head

/-- The stars in front are found: the pattern begins with one exactly if there are any. -/
theorem begins (h : Bare core) :
    ((stars before ++ core ++ stars behind).head? == some '*') = decide (before ≠ 0) := by
  rw [List.append_assoc, head?_stars_append before (h.head?_append behind)]

/-- The stars in front are taken off, and no more than these. -/
theorem dropWhile (h : Bare core) :
    (stars before ++ core ++ stars behind).dropWhile (· == '*') = core ++ stars behind := by
  rw [List.append_assoc, dropWhile_stars_append before (h.head?_append behind)]

/-- Reversed, a pattern has the reversed core between the same stars. -/
theorem reverse_pattern : (stars before ++ core ++ stars behind).reverse =
    stars behind ++ core.reverse ++ stars before := by
  rw [List.reverse_append, List.reverse_append, reverse_stars, reverse_stars, List.append_assoc]

/-- The stars at the end are found. That the pattern is longer than one character is asked for so
that a single star is not taken for two; around a core it always is. -/
theorem ends (h : Bare core) :
    ((stars before ++ core ++ stars behind).getLast? == some '*' &&
      decide (1 < (stars before ++ core ++ stars behind).length)) = decide (behind ≠ 0) := by
  rw [← List.head?_reverse, reverse_pattern, h.reverse.begins]
  have hcore := List.length_pos_iff.2 h.ne_nil
  simp only [List.length_append, stars, List.length_replicate, ← Bool.decide_and]
  exact decide_eq_decide.2 (and_iff_left_of_imp fun hbehind => by omega)

/-- The stars at the end are taken off, and no more than these. -/
theorem dropWhile_reverse (h : Bare core) :
    ((stars before ++ core ++ stars behind).reverse.dropWhile (· == '*')).reverse =
      stars before ++ core := by
  rw [reverse_pattern, h.reverse.dropWhile, List.reverse_append, reverse_stars,
    List.reverse_reverse]

/-- A pattern with a bare core fits by the comparison that the stars at its ends call for. -/
theorem fits_iff (h : Bare core) :
    fits (stars before ++ core ++ stars behind) name = true ↔ Holds before core behind name := by
  have hboth : ((core ++ stars behind).reverse.dropWhile (· == '*')).reverse = core :=
    @dropWhile_reverse core 0 behind h
  rw [fits, h.begins, h.ends, h.dropWhile, h.dropWhile_reverse, hboth]
  -- Only whether there are stars on a side matters, so each side is none or some.
  match before, behind with
  | 0, 0 =>
    rw [holds_zero_zero_iff]
    simp [stars]
  | before + 1, 0 =>
    rw [holds_succ_zero_iff]
    simp [stars]
  | 0, behind + 1 =>
    rw [holds_zero_succ_iff]
    simp [stars]
  | before + 1, behind + 1 =>
    rw [holds_succ_succ_iff, ← isInfix_iff]
    rfl

end Bare

/-- A pattern of stars only fits every name, and the empty pattern the empty name. One star stands
in front, and the others of them at the end. -/
theorem fits_stars_iff {n : Nat} {name : List Char} :
    fits (stars n) name = true ↔ (n = 0 → name = []) := by
  -- One star is not read as two, so it is a case of its own.
  match n with
  | 0 => simp [fits, stars]
  | 1 => simp [fits, stars]
  | n + 2 =>
    have hlast : (stars (n + 2)).getLast? = some '*' := by
      rw [← List.head?_reverse, reverse_stars]
      rfl
    have hall : (stars (n + 2)).dropWhile (· == '*') = [] := by simp [stars]
    have hlength : decide (1 < (stars (n + 2)).length) = true := by simp [stars]
    rw [fits, hlast, hall, hlength]
    exact iff_of_true (isInfix_iff.2 List.nil_infix) nofun

/-- A pattern fits if what is left of it without the stars at its ends stands in the name, with
something around it where there were stars. -/
theorem fits_iff {core name : List Char} {before behind : Nat} (hhead : core.head? ≠ some '*')
    (hlast : core.getLast? ≠ some '*') :
    fits (stars before ++ core ++ stars behind) name = true ↔ Holds before core behind name := by
  by_cases hempty : core = []
  · subst hempty
    rw [List.append_nil, stars, stars, List.replicate_append_replicate, ← stars, fits_stars_iff,
      holds_nil_iff]
  · exact Bare.fits_iff ⟨hempty, hhead, hlast⟩

/-- A definition is ignored if and only if its name matches one of the patterns as a glob, provided
that these have no stars but at their ends. -/
theorem ignores_iff_glob (s : Settings) (definition : String)
    (h : ∀ pattern ∈ s.ignored, OuterStars pattern.toList) :
    s.ignores definition = true ↔
      ∃ pattern ∈ s.ignored, Glob pattern.toList definition.toList := by
  rw [ignores, List.any_eq_true]
  -- Both sides ask for one of the patterns, so they can be compared pattern by pattern.
  refine exists_congr fun pattern => and_congr_right fun hpattern => ?_
  obtain ⟨before, core, behind, hcore, heq⟩ := h pattern hpattern
  have hhead : core.head? ≠ some '*' := fun h => hcore (List.mem_of_mem_head? h)
  have hlast : core.getLast? ≠ some '*' := fun h => hcore (List.mem_of_mem_getLast? h)
  rw [heq, fits_iff hhead hlast, glob_iff hcore]

/-- Stars may be repeated, a pattern may be empty, and a star in a name is matched by one in a
pattern alone. -/
theorem internal_states_ignored :
    (∀ pattern ∈ ["Tmp**", "**Internal*", ""], OuterStars pattern.toList) ∧
      (∃ pattern ∈ ["Tmp**", "**Internal*", ""], Glob pattern.toList "DiskInternal*".toList) ∧
      ¬∃ pattern ∈ ["Tmp**", "**Internal*", ""], Glob pattern.toList "Tm*p".toList := by
  have houter : ∀ pattern ∈ ["Tmp**", "**Internal*", ""], OuterStars pattern.toList := by
    simp only [List.forall_mem_cons]
    exact ⟨⟨0, "Tmp".toList, 2, by decide, rfl⟩, ⟨2, "Internal".toList, 1, by decide, rfl⟩,
      ⟨0, [], 0, by decide, rfl⟩, List.forall_mem_nil _⟩
  let s : Settings := { ignored := ["Tmp**", "**Internal*", ""] }
  exact ⟨houter, (ignores_iff_glob s "DiskInternal*" houter).1 (by decide),
    mt (ignores_iff_glob s "Tm*p" houter).2 (by decide)⟩

/-- A star in the middle of a pattern is no glob. -/
example : fits "Tmp*State".toList "TmpDiskState".toList = false := by decide

end ControllerTypes.Settings
