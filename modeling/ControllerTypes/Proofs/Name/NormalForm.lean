import ControllerTypes.Name.Fresh
import ControllerTypes.Proofs.Name.Snake

/-!
# `ControllerTypes.Proofs.Name.NormalForm`: names in snake case

`InSnakeCase` says what a name in snake case looks like: no ASCII capital, no dash, space or dot, and
underscores only where each of them stands alone between two other characters. Every text comes out
of `snakeCase` like this (`inSnakeCase_snakeCase`).

Capitals of other scripts are not made small, so they go on beginning words, and a name with such a
capital may change a second time. Where all capitals are ASCII, the names in snake case are exactly
those that `snakeCase` leaves alone (`snakeCase_eq_self_iff`), and once is enough
(`snakeCase_snakeCase`).

A number may be put behind a name before or after the name is put in snake case
(`snakeCase_append_digits`). All that matters for this is how the name ends: an underscore at the end
is stripped off, but not if a number stands behind it.
-/

set_option autoImplicit false

namespace ControllerTypes.Name

open Text

/-- The name has no ASCII capital, dash, space or dot, and each underscore in it stands alone
between two other characters. -/
structure InSnakeCase (s : String) : Prop where
  plain : ∀ c ∈ s.toList, isAsciiUpper c = false ∧ c ≠ '-' ∧ c ≠ ' ' ∧ c ≠ '.'
  separated : Snake.Separated s.toList

/-- All capitals in the name are ASCII. -/
def AsciiCapitals (s : String) : Prop := ∀ c ∈ s.toList, isUpper c = true → isAsciiUpper c = true

instance (s : String) : Decidable (AsciiCapitals s) :=
  List.decidableBAll (fun c => isUpper c = true → isAsciiUpper c = true) s.toList

namespace Snake

variable {c : Char}

/-! ### What characters become -/

/-- What is not ASCII is neither an ASCII capital nor a separator, so no pass writes anything else
in its place. -/
theorem of_not_ascii (h : ¬c.toNat < 0x80) : isAsciiUpper c = false ∧ isSeparator c = false := by
  rw [isSeparator_eq_false_iff]
  refine ⟨?_, ?_, ?_, ?_⟩
  · cases hupper : isAsciiUpper c with
    | false => rfl
    | true => exact absurd (toNat_of_isAsciiUpper hupper).2 (by omega)
  all_goals
    rintro rfl
    exact h (by decide)

/-- What is not ASCII is written as it is, capitals of other scripts among it. -/
theorem written_of_not_ascii (h : ¬c.toNat < 0x80) : written c = c := by
  obtain ⟨hupper, hseparator⟩ := of_not_ascii h
  rw [written, hseparator, toAsciiLower_of_not_isAsciiUpper hupper]
  rfl

/-- No ASCII character becomes a capital or a separator, and only underscores and separators become
underscores. There are few enough of them to decide this. -/
theorem written_of_ascii (h : c.toNat < 0x80) :
    isUpper (written c) = false ∧ isSeparator (written c) = false ∧
      (written c = '_' → c = '_' ∨ isSeparator c = true) :=
  forall_ascii (P := fun c => isUpper (written c) = false ∧ isSeparator (written c) = false ∧
    (written c = '_' → c = '_' ∨ isSeparator c = true)) (by decide) h

/-- No character becomes an ASCII capital or a separator, whatever script it belongs to. -/
theorem plain_written (c : Char) :
    isAsciiUpper (written c) = false ∧ isSeparator (written c) = false := by
  by_cases h : c.toNat < 0x80
  · obtain ⟨hupper, hseparator, -⟩ := written_of_ascii h
    exact ⟨not_isAsciiUpper hupper, hseparator⟩
  · rw [written_of_not_ascii h]
    exact of_not_ascii h

/-- A character that becomes a capital was one before, and has not changed: it is one of another
script. -/
theorem isUpper_of_isUpper_written (h : isUpper (written c) = true) :
    written c = c ∧ isUpper c = true := by
  by_cases hascii : c.toNat < 0x80
  · exact absurd h (by simp [written_of_ascii hascii])
  · have hc := written_of_not_ascii hascii
    exact ⟨hc, hc ▸ h⟩

/-- Only underscores and separators become underscores. -/
theorem written_ne_underscore (hc : c ≠ '_') (hseparator : isSeparator c = false) :
    written c ≠ '_' := by
  by_cases h : c.toNat < 0x80
  · intro hwritten
    rcases (written_of_ascii h).2.2 hwritten with hc' | hseparator'
    · exact hc hc'
    · exact Bool.false_ne_true (hseparator ▸ hseparator')
  · rwa [written_of_not_ascii h]

/-- Letters and digits are neither underscores nor separators. -/
theorem of_isAsciiAlphanumeric (h : isAsciiAlphanumeric c = true) :
    c ≠ '_' ∧ isSeparator c = false :=
  forall_ascii (P := fun c => isAsciiAlphanumeric c = true → c ≠ '_' ∧ isSeparator c = false)
    (by decide) (toNat_of_isAsciiAlphanumeric h) h

end Snake

variable {s : String}

/-- A name in snake case consists of underscores and what its characters become. -/
theorem mem_snakeCase {d : Char} (h : d ∈ (snakeCase s).toList) :
    d = '_' ∨ ∃ c ∈ s.toList, d = Snake.written c := by
  rw [snakeCase, String.toList_ofList] at h
  exact Snake.mem_mark ((Snake.squeeze_sublist _).subset ((Snake.strip_isInfix _).subset h))

/-! ### The normal form -/

/-- Every name in snake case is `InSnakeCase`: plain characters by `plain_written`, underscores that
stand alone by `Snake.separated_strip_squeeze`. -/
theorem inSnakeCase_snakeCase (s : String) : InSnakeCase (snakeCase s) where
  plain d hd := by
    rcases mem_snakeCase hd with rfl | ⟨c, -, rfl⟩
    · decide
    · exact (Snake.plain_written c).imp_right Snake.isSeparator_eq_false_iff.1
  separated := by
    rw [snakeCase, String.toList_ofList]
    exact Snake.separated_strip_squeeze _

/-- If all capitals are ASCII (`h`), the names that stay as they are are those in snake case. -/
theorem snakeCase_eq_self_iff (h : AsciiCapitals s) : snakeCase s = s ↔ InSnakeCase s := by
  refine ⟨fun heq => heq ▸ inSnakeCase_snakeCase s, fun hs => ?_⟩
  -- A capital that is left would be ASCII, of which there are none in snake case.
  have hplain : ∀ c ∈ s.toList, isUpper c = false ∧ Snake.isSeparator c = false := by
    intro c hc
    obtain ⟨hupper, hseparator⟩ := hs.plain c hc
    exact ⟨by simpa [hupper] using h c hc, Snake.isSeparator_eq_false_iff.2 hseparator⟩
  rw [snakeCase, snakeChars_eq_self hplain hs.separated, String.ofList_toList]

/-- Snake case brings no capital into a name: those that are in it are in the name, and ASCII by
`h`. -/
theorem asciiCapitals_snakeCase (h : AsciiCapitals s) : AsciiCapitals (snakeCase s) := by
  intro d hd hupper
  rcases mem_snakeCase hd with rfl | ⟨c, hc, rfl⟩
  · exact absurd hupper (by decide)
  · obtain ⟨heq, hupper'⟩ := Snake.isUpper_of_isUpper_written hupper
    rw [heq]
    exact h c hc hupper'

/-- What is in snake case stays as it is the second time, if all capitals are ASCII. -/
theorem snakeCase_snakeCase (h : AsciiCapitals s) : snakeCase (snakeCase s) = snakeCase s :=
  (snakeCase_eq_self_iff (asciiCapitals_snakeCase h)).2 (inSnakeCase_snakeCase s)

/-- A capital of another script begins a word only once the letter in front of it is small. -/
example : snakeCase "AÉA" = "aÉa" ∧ snakeCase "aÉa" = "a_Éa" := by decide

/-! ### Numbers -/

/-- A `number` behind a name is passed on, if the name does not end with an underscore or with what
becomes one. `hlast` says so of its last character. -/
theorem snakeCase_append_digits {number : String}
    (hlast : ∀ c, s.toList.getLast? = some c → c ≠ '_' ∧ Snake.isSeparator c = false)
    (hnumber : ∀ c ∈ number.toList, isAsciiDigit c = true) :
    snakeCase (s ++ number) = snakeCase s ++ number := by
  -- Without a number an underscore at the end is stripped, so the general lemma does not apply to
  -- it.
  by_cases hempty : number.toList = []
  · rw [String.toList_eq_nil_iff] at hempty
    rw [hempty, String.append_empty, String.append_empty]
  · -- Nothing is stripped off the end, whether the number is there or not.
    have hend : (Snake.squeeze (Snake.mark none s.toList)).getLast? ≠ some '_' := by
      rw [Snake.getLast?_squeeze, Snake.getLast?_mark, Ne, Option.map_eq_some_iff]
      rintro ⟨c, hc, hwritten⟩
      obtain ⟨hne, hseparator⟩ := hlast c hc
      exact Snake.written_ne_underscore hne hseparator hwritten
    rw [← String.toList_inj, snakeCase, snakeCase, String.toList_ofList, String.toList_append,
      String.toList_append, String.toList_ofList, snakeChars_append_digits hempty hnumber,
      snakeChars, Snake.strip_eq_dropWhile hend]

/-- Every text is put in snake case. If all its capitals are ASCII, it stays as it is exactly if it
was in snake case before, and nothing changes the second time. If it has letters and digits only, a
number behind it stays where it is, with leading zeros or without. -/
theorem snakeCase_normal (s : String) :
    InSnakeCase (snakeCase s) ∧
    (AsciiCapitals s →
      (snakeCase s = s ↔ InSnakeCase s) ∧ snakeCase (snakeCase s) = snakeCase s) ∧
    ((∀ c ∈ s.toList, isAsciiAlphanumeric c = true) →
      (∀ number : String, (∀ c ∈ number.toList, isAsciiDigit c = true) →
        snakeCase (s ++ number) = snakeCase s ++ number) ∧
      ∀ n : Nat, snakeCase (numbered s n) = numbered (snakeCase s) n) := by
  refine ⟨inSnakeCase_snakeCase s,
    fun h => ⟨snakeCase_eq_self_iff h, snakeCase_snakeCase h⟩, fun halnum => ?_⟩
  -- With letters and digits only, the last character is no underscore and no separator.
  have hdigits (number : String) (hnumber : ∀ c ∈ number.toList, isAsciiDigit c = true) :
      snakeCase (s ++ number) = snakeCase s ++ number :=
    snakeCase_append_digits
      (fun c hc => Snake.of_isAsciiAlphanumeric (halnum c (List.mem_of_getLast? hc))) hnumber
  exact ⟨hdigits, fun n => hdigits n.repr fun _ => isAsciiDigit_of_mem_repr⟩

/-- A name with separators at its ends and in a row, and names with numbers behind them. -/
theorem server_and_instance_normal :
    (AsciiCapitals "-HTTPServer..v2 API_" ∧
      snakeCase "-HTTPServer..v2 API_" = "http_server_v2_api" ∧
      InSnakeCase (snakeCase "-HTTPServer..v2 API_") ∧
      snakeCase "http_server_v2_api" = "http_server_v2_api") ∧
    (∀ c ∈ "DBInstance".toList, isAsciiAlphanumeric c = true) ∧
    (∀ c ∈ "007".toList, isAsciiDigit c = true) ∧
    snakeCase ("DBInstance" ++ "007") = "db_instance" ++ "007" ∧
    snakeCase (numbered "DBInstance" 12) = numbered "db_instance" 12 := by
  have hcapitals : AsciiCapitals "-HTTPServer..v2 API_" := by decide
  have hserver : snakeCase "-HTTPServer..v2 API_" = "http_server_v2_api" := by decide
  have hletters : ∀ c ∈ "DBInstance".toList, isAsciiAlphanumeric c = true :=
    List.all_eq_true.1 (by decide)
  have hinstance : snakeCase "DBInstance" = "db_instance" := by decide
  have hdigits : ∀ c ∈ "007".toList, isAsciiDigit c = true := List.all_eq_true.1 (by decide)
  obtain ⟨hform, hsame, -⟩ := snakeCase_normal "-HTTPServer..v2 API_"
  obtain ⟨hnumber, hnumbered⟩ := (snakeCase_normal "DBInstance").2.2 hletters
  exact ⟨⟨hcapitals, hserver, hform, hserver ▸ (hsame hcapitals).2⟩, hletters, hdigits,
    hinstance ▸ hnumber "007" hdigits, hinstance ▸ hnumbered 12⟩

end ControllerTypes.Name
