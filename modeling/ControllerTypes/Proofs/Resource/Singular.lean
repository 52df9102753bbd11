import ControllerTypes.Proofs.Files.Path
import ControllerTypes.Proofs.Name.Snake
import ControllerTypes.Proofs.Resource.Concerned

/-!
# `ControllerTypes.Proofs.Resource.Singular`: nouns of paths and plurals of kinds

A kind is listed under its plural, and an operation without an id has its noun from the singular of
what stands in its path. So an operation on the items of a kind should be about that kind.
`noun_of_itemPath` says for which kinds it is, with the rules for plurals (`pluralReversed`) and for
singulars (`singular`) laid side by side over the reversed word.

No rule for singulars could undo all plurals, since a plural in `ies` may come from `y` or from `ie`:
`Cookie` and `Cooky` have the same one. The singular is taken to end in `y`, which is right for
policies and makes a `cooky` of the kind `Cookie` (`cookies_and_boxes_not_undone`). Of the words whose
plural takes an `es` (`TakesEs`) nothing is said here.
-/

set_option autoImplicit false

namespace ControllerTypes.Crud

open Name Text

/-- The kind is a capital ASCII letter with small ones behind it, one at least. -/
def Capitalized (kind : String) : Prop :=
  ∃ c word, kind.toList = c :: word ∧ isAsciiUpper c = true ∧ word ≠ [] ∧
    ∀ d ∈ word, isAsciiLower d = true

instance (kind : String) : Decidable (Capitalized kind) :=
  match h : kind.toList with
  | [] => isFalse fun ⟨_, _, heq, _⟩ => List.cons_ne_nil _ _ (heq.symm.trans h)
  | c :: word =>
    decidable_of_iff ((isAsciiUpper c && !word.isEmpty && word.all isAsciiLower) = true) <| by
      rw [Bool.and_eq_true, Bool.and_eq_true, List.all_eq_true, Bool.not_eq_true',
        List.isEmpty_eq_false_iff, and_assoc, Capitalized, h]
      constructor
      · exact fun hall => ⟨c, word, rfl, hall⟩
      · rintro ⟨_, _, heq, hall⟩
        cases heq
        exact hall

/-- The plural of the word is made with `es`. -/
def TakesEs (word : List Char) : Prop :=
  ['s'] <:+ word ∨ ['x'] <:+ word ∨ ['c', 'h'] <:+ word ∨ ['s', 'h'] <:+ word

instance (word : List Char) : Decidable (TakesEs word) :=
  inferInstanceAs (Decidable (_ ∨ _ ∨ _ ∨ _))

/-- The path of a single item of a kind. -/
def itemPath (kind : String) : String := "/" ++ plural kind ++ "/\x7bid\x7d"

/-! ### The singular of a plural -/

section
variable {r stem : List Char}

/-- A plural in `ies` is taken for that of a word in `y`, unless there is nothing in front of it. -/
theorem singular_reverse_ies (h : stem ≠ []) :
    singular ('s' :: 'e' :: 'i' :: stem).reverse = ('y' :: stem).reverse := by
  unfold singular
  rw [List.reverse_reverse]
  exact if_neg (by simpa using h)

/-- Of any other plural the last letter is taken away. `hie` keeps the plurals in `ies` out. -/
theorem singular_reverse_s (hne : r ≠ []) (hie : ∀ stem, stem ≠ [] → r ≠ 'e' :: 'i' :: stem) :
    singular ('s' :: r).reverse = r.reverse := by
  unfold singular
  rw [List.reverse_reverse]
  -- The three shapes of a reversed word that `singular` tells apart.
  split
  · next stem heq =>
    cases heq
    by_cases hstem : stem = []
    · subst hstem
      rfl
    · exact absurd rfl (hie stem hstem)
  · next heq =>
    cases heq
    exact if_neg (by simpa using hne)
  · next hnot => exact absurd rfl (hnot r)

/-- Where the plural is not made with `es`, and the word does not end in `ie`, the singular of the
plural is the word. -/
theorem singular_pluralReversed (hlength : 1 < r.length) (hes : ¬TakesEs r.reverse)
    (hie : ∀ stem, stem ≠ [] → r ≠ 'e' :: 'i' :: stem) :
    singular (pluralReversed r).reverse = r.reverse := by
  have hending (ending stem : List Char) : ending.reverse <:+ (ending ++ stem).reverse :=
    List.reverse_suffix.2 (List.prefix_append _ _)
  -- One case for each rule of the plural. A vowel in front of a `y` keeps it, a `y` alone becomes
  -- `ies`, four endings take an `es`, and the rest an `s`.
  fun_cases pluralReversed r with
  | case1 | case2 | case3 | case4 =>
    exact singular_reverse_s (List.cons_ne_nil _ _) hie
  | case5 stem =>
    refine singular_reverse_ies ?_
    rintro rfl
    exact absurd hlength (Nat.lt_irrefl 1)
  | case6 => exact absurd (.inl (hending ['s'] _)) hes
  | case7 => exact absurd (.inr (.inl (hending ['x'] _))) hes
  | case8 => exact absurd (.inr (.inr (.inl (hending ['h', 'c'] _)))) hes
  | case9 => exact absurd (.inr (.inr (.inr (hending ['h', 's'] _)))) hes
  | case10 => exact singular_reverse_s (List.length_pos_iff.1 (by omega)) hie

end

/-! ### Words of small letters -/

/-- A small letter is a letter. -/
theorem isAsciiAlphanumeric_of_isAsciiLower {c : Char} (h : isAsciiLower c = true) :
    isAsciiAlphanumeric c = true := by
  rw [isAsciiAlphanumeric, isAsciiLetter, h, Bool.or_true, Bool.true_or]

/-- A small letter is no capital, and none of the signs that have a meaning in a name or path. -/
theorem of_isAsciiLower {c : Char} (h : isAsciiLower c = true) :
    (isUpper c = false ∧ Snake.isSeparator c = false) ∧ c ≠ '_' ∧ c ≠ '/' ∧ c ≠ '\x7b' :=
  forall_ascii (P := fun c => isAsciiLower c = true →
    (isUpper c = false ∧ Snake.isSeparator c = false) ∧ c ≠ '_' ∧ c ≠ '/' ∧ c ≠ '\x7b')
    (by decide) (toNat_of_isAsciiAlphanumeric (isAsciiAlphanumeric_of_isAsciiLower h)) h

section
variable {word : List Char}

/-- A word of small letters has no underscore. -/
theorem not_mem_of_lower (h : ∀ c ∈ word, isAsciiLower c = true) : '_' ∉ word :=
  fun hmem => (of_isAsciiLower (h _ hmem)).2.1 rfl

/-- A word of small letters is in snake case. -/
theorem snakeChars_of_lower (h : ∀ c ∈ word, isAsciiLower c = true) : snakeChars word = word :=
  snakeChars_eq_self (fun c hc => (of_isAsciiLower (h c hc)).1) (.of_not_mem (not_mem_of_lower h))

/-- Nothing in a word of small letters is a capital to be made small. -/
theorem map_toAsciiLower_of_lower (h : ∀ c ∈ word, isAsciiLower c = true) :
    word.map toAsciiLower = word := by
  refine (List.map_congr_left fun c hc => ?_).trans (List.map_id word)
  have halnum := isAsciiAlphanumeric_of_isAsciiLower (h c hc)
  exact toAsciiLower_of_not_isAsciiUpper
    (Snake.isUpper_of_isAsciiAlphanumeric halnum ▸ (of_isAsciiLower (h c hc)).1.1)

end

/-- The noun in the path of an item is the `singular` of the `word` in front of the parameter. -/
theorem nounOfPath?_item {word : List Char} (hne : word ≠ [])
    (h : ∀ c ∈ word, isAsciiLower c = true) :
    nounOfPath? ("/" ++ String.ofList word ++ "/\x7bid\x7d") =
      some (String.ofList (singular word)) := by
  -- The path has three segments, of which the first is empty and the last is a parameter.
  have hsegments : segments ("/" ++ String.ofList word ++ "/\x7bid\x7d").toList =
      [[], word, "\x7bid\x7d".toList] := by
    have hslash : '/' ∉ word := fun hmem => (of_isAsciiLower (h _ hmem)).2.2.1 rfl
    have hpath : ("/" ++ String.ofList word ++ "/\x7bid\x7d").toList =
        [] ++ '/' :: (word ++ '/' :: "\x7bid\x7d".toList) := by
      simp
    have hparameter : segments "\x7bid\x7d".toList = ["\x7bid\x7d".toList] :=
      Files.segments_of_not_mem (by decide)
    rw [hpath, Files.segments_append_slash, Files.segments_append_slash,
      Files.segments_of_not_mem hslash, hparameter]
    rfl
  have hhead : word.head? ≠ some '\x7b' := fun hhead =>
    (of_isAsciiLower (h _ (List.mem_of_mem_head? hhead))).2.2.2 rfl
  have hfixed : ([[], word, "\x7bid\x7d".toList].filter fun s =>
      !s.isEmpty && s.head? != some '\x7b') = [word] := by
    simp [hne, hhead]
  rw [nounOfPath?, hsegments, hfixed]
  -- What is left of them is the word, and snake case has nothing to do on it.
  show some (String.ofList (singular (snakeChars word))) = _
  rw [snakeChars_of_lower h]

namespace Capitalized

variable {kind : String}

/-- In small letters, only the first one of a kind has changed. -/
theorem toList_asciiLower (h : Capitalized kind) :
    ∃ c word, kind.toList = c :: word ∧ (asciiLower kind).toList = toAsciiLower c :: word ∧
      isAsciiUpper c = true ∧ word ≠ [] ∧ ∀ d ∈ word, isAsciiLower d = true := by
  obtain ⟨c, word, heq, hc, hne, hword⟩ := h
  refine ⟨c, word, heq, ?_, hc, hne, hword⟩
  rw [asciiLower, String.toList_ofList, heq, List.map_cons, map_toAsciiLower_of_lower hword]

/-- A kind has two letters at least. -/
theorem one_lt_length (h : Capitalized kind) : 1 < (asciiLower kind).toList.length := by
  obtain ⟨c, word, -, hlist, -, hne, -⟩ := h.toList_asciiLower
  rw [hlist, List.length_cons]
  exact Nat.succ_lt_succ (List.length_pos_iff.2 hne)

/-- In small letters, a kind is a word of such. -/
theorem lower (h : Capitalized kind) : ∀ c ∈ (asciiLower kind).toList, isAsciiLower c = true := by
  obtain ⟨c, word, -, hlist, hc, -, hword⟩ := h.toList_asciiLower
  rw [hlist]
  exact List.forall_mem_cons.2 ⟨Snake.isAsciiLower_toAsciiLower hc, hword⟩

/-- In snake case, a kind is written in small letters. -/
theorem snakeCase_eq (h : Capitalized kind) : snakeCase kind = asciiLower kind := by
  have hseparated := Snake.Separated.of_not_mem (not_mem_of_lower h.lower)
  obtain ⟨c, word, heq, hlist, hc, -, hword⟩ := h.toList_asciiLower
  -- No underscore is put in front of the first letter, and none of the others is a capital.
  have hmark : Snake.mark none kind.toList = (asciiLower kind).toList := by
    have hrest : Snake.mark (some c) word = word :=
      Snake.mark_eq_self fun d hd => (of_isAsciiLower (hword d hd)).1
    rw [heq, Snake.mark_none_of_isAsciiUpper hc, hrest, hlist]
  rw [snakeCase, snakeChars, hmark, Snake.strip_squeeze_eq_self hseparated, String.ofList_toList]

/-- The noun in the path of an item is the singular of the plural of the kind. -/
theorem nounOfPath?_itemPath (h : Capitalized kind) :
    nounOfPath? (itemPath kind) = some (String.ofList
      (singular (pluralReversed (asciiLower kind).toList.reverse).reverse)) := by
  have hplural : plural kind =
      String.ofList (pluralReversed (asciiLower kind).toList.reverse).reverse := by
    rw [plural, asciiLower, String.toList_ofList]
  rw [itemPath, hplural]
  refine nounOfPath?_item (mt List.reverse_eq_nil_iff.1 pluralReversed_ne_nil) fun c hc => ?_
  -- The letters of a plural are those of the word and of the three endings.
  rcases mem_pluralReversed (List.mem_reverse.1 hc) with hc | hc
  · exact h.lower c (List.mem_reverse.1 hc)
  · have hending : ['s', 'e', 'i'].all isAsciiLower = true := by decide
    exact List.all_eq_true.1 hending c hc

end Capitalized

/-- Take a kind whose plural is not made with `es`. If it does not end in `ie`, an operation without
an id on the path of its items has the kind as its noun, in small letters, and so it concerns the
resource that is defined under the name of the kind. If it ends in `ie` behind other letters, its
plural is that of a word in `y`, and this word is the noun. -/
theorem noun_of_itemPath {kind : String} (h : Capitalized kind)
    (hes : ¬TakesEs (asciiLower kind).toList) :
    ((∀ stem, stem ≠ [] → (asciiLower kind).toList ≠ stem ++ ['i', 'e']) →
      nounOfPath? (itemPath kind) = some (asciiLower kind) ∧
      ∀ (operations : List ApiOperation) (op : ApiOperation), op.operationId = none →
        op.path = itemPath kind → op.noun? = some (snakeCase kind) ∧
          Extraction.concerns kind (Extraction.nouns operations kind) op = true) ∧
    ∀ stem, stem ≠ [] → (asciiLower kind).toList = stem ++ ['i', 'e'] →
      nounOfPath? (itemPath kind) = some (String.ofList (stem ++ ['y'])) := by
  refine ⟨fun hie => ?_, fun stem hstem heq => ?_⟩
  · -- First the noun, by the rules for plurals and singulars, then the operation that has it.
    have hnoun : nounOfPath? (itemPath kind) = some (asciiLower kind) := by
      rw [h.nounOfPath?_itemPath, singular_pluralReversed, List.reverse_reverse,
        String.ofList_toList]
      · rw [List.length_reverse]
        exact h.one_lt_length
      · rwa [List.reverse_reverse]
      · intro stem hstem heq
        refine hie stem.reverse (mt List.reverse_eq_nil_iff.1 hstem) ?_
        rw [← List.reverse_reverse (asciiLower kind).toList, heq]
        simp
    refine ⟨hnoun, fun operations op hid hpath => ?_⟩
    have hown : op.noun? = some (snakeCase kind) := by
      rw [ApiOperation.noun?, hid, hpath, h.snakeCase_eq]
      exact hnoun
    exact ⟨hown, Extraction.concerns_iff.2 (.ownNoun hown)⟩
  · -- A word in `ie` has the plural of one in `y`, and that is taken for its singular.
    have hplural : pluralReversed (asciiLower kind).toList.reverse =
        's' :: 'e' :: 'i' :: stem.reverse := by
      rw [heq, List.reverse_append]
      rfl
    rw [h.nounOfPath?_itemPath, hplural,
      singular_reverse_ies (mt List.reverse_eq_nil_iff.1 hstem), List.reverse_cons,
      List.reverse_reverse]

/-- A policy is found by the path of its items, and a cookie becomes a cooky. -/
theorem policy_and_cookie_nouns :
    Capitalized "Policy" ∧ ¬TakesEs (asciiLower "Policy").toList ∧
      nounOfPath? (itemPath "Policy") = some "policy" ∧
    Capitalized "Cookie" ∧ ¬TakesEs (asciiLower "Cookie").toList ∧
      nounOfPath? (itemPath "Cookie") = some "cooky" := by
  have hpolicy : Capitalized "Policy" := by decide
  have hcookie : Capitalized "Cookie" := by decide
  have hes : ¬TakesEs (asciiLower "Policy").toList := by decide
  have hes' : ¬TakesEs (asciiLower "Cookie").toList := by decide
  refine ⟨hpolicy, hes, ?_, hcookie, hes', ?_⟩
  · refine ((noun_of_itemPath hpolicy hes).1 fun stem _ heq => ?_).1
    -- A word in `ie` ends in `e`, and `policy` does not.
    have hlast : (asciiLower "Policy").toList.getLast? = some 'e' := by
      rw [heq, List.getLast?_append]
      rfl
    exact absurd hlast (by decide)
  · exact (noun_of_itemPath hcookie hes').2 "cook".toList (by decide) (by decide)

/-- The kinds `Cookie` and `Cooky` have one plural, so the noun of a path cannot be right for both,
and for `Cookie` it is not. Neither is it for `Box`. -/
theorem cookies_and_boxes_not_undone :
    Capitalized "Cookie" ∧ Capitalized "Cooky" ∧ plural "Cookie" = plural "Cooky" ∧
      nounOfPath? ("/" ++ plural "Cookie" ++ "/\x7bid\x7d") ≠ some (asciiLower "Cookie") ∧
    Capitalized "Box" ∧
      nounOfPath? ("/" ++ plural "Box" ++ "/\x7bid\x7d") ≠ some (asciiLower "Box") :=
  ⟨by decide, by decide, by decide, by decide, by decide, by decide⟩

end ControllerTypes.Crud
