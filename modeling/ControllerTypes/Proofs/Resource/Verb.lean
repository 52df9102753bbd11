import ControllerTypes.Proofs.Name.Snake
import ControllerTypes.Resource.Crud

/-!
# `ControllerTypes.Proofs.Resource.Verb`: the verb and the noun in the name of an operation

The verb of an operation is recognized in two ways: `Crud.ofVerb?` is asked about the whole first
word of the name, and `Crud.nounOf` tries one verb after the other on the front of it. Both know the
same words (`isSome_ofVerb?_iff`). No verb has an underscore in it, so what a verb and an underscore
are taken off of has that verb as its first word (`firstWord_append`), and no verb can take the noun
of another one. `verb_and_noun` puts this together.
-/

set_option autoImplicit false

namespace ControllerTypes.Crud

open Name

/-! ### Words and underscores -/

/-- The first word of a text goes on behind what has no underscore in it. -/
theorem takeWhile_append {word : List Char} (h : '_' ∉ word) (rest : List Char) :
    (word ++ rest).takeWhile (· != '_') = word ++ rest.takeWhile (· != '_') := by
  refine List.takeWhile_append_of_pos fun c hc => ?_
  rw [bne_iff_ne]
  rintro rfl
  exact h hc

/-- What stands in front of the first underscore is the first word; `h` says that there is none
before. -/
theorem firstWord_append {word : List Char} (h : '_' ∉ word) (noun : List Char) :
    firstWord (String.ofList (word ++ '_' :: noun)) = String.ofList word := by
  rw [firstWord, String.toList_ofList, takeWhile_append h, List.takeWhile_cons_of_neg (by decide),
    List.append_nil]

/-- A text begins with what has no underscore in it exactly if its first word does. -/
theorem prefix_firstWord_iff {word : List Char} (h : '_' ∉ word) {text : String} :
    word <+: (firstWord text).toList ↔ word <+: text.toList := by
  rw [firstWord, String.toList_ofList]
  refine ⟨fun hfront => hfront.trans (List.takeWhile_prefix _), ?_⟩
  rintro ⟨rest, hsplit⟩
  rw [← hsplit, takeWhile_append h]
  exact List.prefix_append _ _

/-- A text with an underscore is its first word, an underscore and the rest. -/
theorem exists_eq_firstWord_append {text : String} (h : '_' ∈ text.toList) :
    ∃ noun, text.toList = (firstWord text).toList ++ '_' :: noun := by
  rw [firstWord, String.toList_ofList]
  have hsplit := List.takeWhile_append_dropWhile (p := (· != '_')) (l := text.toList)
  -- What the first word leaves is empty or begins with the underscore that ended it.
  cases hrest : text.toList.dropWhile (· != '_') with
  | nil =>
    rw [List.dropWhile_eq_nil_iff] at hrest
    exact absurd (hrest _ h) (by decide)
  | cons c noun =>
    have hc := List.head?_dropWhile_not (· != '_') text.toList
    rw [hrest] at hc
    rw [hrest, show c = '_' by simpa using hc] at hsplit
    exact ⟨noun, hsplit.symm⟩

/-- What a text has behind a `word` and an underscore is the rest of it, and there is no other way
to find one. -/
theorem behindWord?_eq_some_iff {word text noun : List Char} :
    behindWord? word text = some noun ↔ text = word ++ '_' :: noun := by
  unfold behindWord?
  constructor
  · intro h
    split at h
    · next hfront =>
      obtain ⟨rest, rfl⟩ := hfront
      rw [List.drop_left] at h
      split at h
      · cases h
        rfl
      · cases h
    · cases h
  · rintro rfl
    rw [if_pos (List.prefix_append _ _), List.drop_left]
    rfl

/-! ### Verbs -/

/-- The words that say what an operation does are those that may stand in front of a noun. The
program has the two tables apart, and nothing but this lemma keeps them together. -/
theorem isSome_ofVerb?_iff {word : String} : (ofVerb? word).isSome = true ↔ word ∈ verbs := by
  unfold ofVerb?
  split
  all_goals simp_all [verbs]

/-- No verb has an underscore in it. -/
theorem underscore_not_mem_of_mem_verbs {verb : String} (h : verb ∈ verbs) :
    '_' ∉ verb.toList := by
  have hall : ∀ verb ∈ verbs, '_' ∉ verb.toList := by decide
  exact hall verb h

/-- Trying the `verbs` one after the other finds the noun behind the first word, if that is a verb.
So their order is of no importance. -/
theorem findSome?_verbs_eq_some_iff {text noun : List Char} :
    (verbs.findSome? fun verb => behindWord? verb.toList text) = some noun ↔
      ∃ verb ∈ verbs, text = verb.toList ++ '_' :: noun := by
  constructor
  · intro h
    obtain ⟨verb, hverb, hbehind⟩ := List.exists_of_findSome?_eq_some h
    exact ⟨verb, hverb, behindWord?_eq_some_iff.1 hbehind⟩
  · rintro ⟨verb, hverb, rfl⟩
    have hfound : (verbs.findSome? fun v =>
        behindWord? v.toList (verb.toList ++ '_' :: noun)).isSome = true :=
      List.findSome?_isSome_iff.2 ⟨verb, hverb, by rw [behindWord?_eq_some_iff.2 rfl]; rfl⟩
    obtain ⟨noun', hnoun'⟩ := Option.isSome_iff_exists.1 hfound
    -- Whichever verb was found is the first word as well, so it is the same one.
    obtain ⟨verb', hverb', hbehind⟩ := List.exists_of_findSome?_eq_some hnoun'
    have hsplit := behindWord?_eq_some_iff.1 hbehind
    have hwords := congrArg (fun text => firstWord (String.ofList text)) hsplit
    rw [firstWord_append (underscore_not_mem_of_mem_verbs hverb),
      firstWord_append (underscore_not_mem_of_mem_verbs hverb'), String.ofList_toList,
      String.ofList_toList] at hwords
    subst hwords
    rw [hnoun', List.cons.inj (List.append_cancel_left hsplit) |>.2]

/-! ### Nouns -/

variable {operation : String}

/-- A name that is a verb, an underscore and something else has that as its noun. -/
theorem nounOf_of_split {verb : String} {noun : List Char} (hverb : verb ∈ verbs)
    (h : (snakeCase operation).toList = verb.toList ++ '_' :: noun) :
    nounOf operation = String.ofList noun := by
  have hfound := findSome?_verbs_eq_some_iff.2 ⟨verb, hverb, h⟩
  simp only [nounOf, hfound, Option.map_some, Option.getD_some]

/-- Every other name is its own noun, in snake case. -/
theorem nounOf_of_not_split
    (h : ∀ verb ∈ verbs, ∀ noun, (snakeCase operation).toList ≠ verb.toList ++ '_' :: noun) :
    nounOf operation = snakeCase operation := by
  have hnone : (verbs.findSome? fun verb =>
      behindWord? verb.toList (snakeCase operation).toList) = none := by
    rw [Option.eq_none_iff_forall_ne_some]
    intro noun hfound
    obtain ⟨verb, hverb, hsplit⟩ := findSome?_verbs_eq_some_iff.1 hfound
    exact h verb hverb noun hsplit
  simp only [nounOf, hnone, Option.map_none, Option.getD_none]

/-- An operation is classified by its name exactly if the first word of that is a verb. If something
follows the verb, it is the noun, and there is something to it; otherwise the whole name is the
noun. -/
theorem verb_and_noun (operation : String) :
    ((classify? operation).isSome = true ↔ firstWord (snakeCase operation) ∈ verbs) ∧
    (firstWord (snakeCase operation) ∈ verbs → '_' ∈ (snakeCase operation).toList →
      nounOf operation ≠ "" ∧
        snakeCase operation = firstWord (snakeCase operation) ++ "_" ++ nounOf operation) ∧
    (¬(firstWord (snakeCase operation) ∈ verbs ∧ '_' ∈ (snakeCase operation).toList) →
      nounOf operation = snakeCase operation) := by
  refine ⟨isSome_ofVerb?_iff, fun hverb hmem => ?_, fun hneither => ?_⟩
  · -- An underscore in the name stands behind the first word.
    obtain ⟨noun, hsplit⟩ := exists_eq_firstWord_append hmem
    rw [nounOf_of_split hverb hsplit]
    refine ⟨fun hempty => ?_, ?_⟩
    · -- Without a noun the underscore would be the end of the name.
      rw [String.ofList_eq_empty_iff] at hempty
      refine getLast?_snakeCase_ne operation ?_
      rw [hsplit, hempty, List.getLast?_concat]
    · rw [← String.toList_inj, hsplit]
      simp
  · refine nounOf_of_not_split fun verb hverb noun hsplit => hneither ⟨?_, ?_⟩
    · -- A verb in front of an underscore is the first word.
      have hfirst := firstWord_append (underscore_not_mem_of_mem_verbs hverb) noun
      rw [← hsplit, String.ofList_toList, String.ofList_toList] at hfirst
      rwa [hfirst]
    · rw [hsplit]
      exact List.mem_append_right _ List.mem_cons_self

/-- A verb in front of another one is taken off alone, and what only begins like a verb is left. -/
theorem head_node_described :
    classify? "DescribeHeadNode" = some read ∧ nounOf "DescribeHeadNode" = "head_node" ∧
      snakeCase "DescribeHeadNode" = "describe" ++ "_" ++ nounOf "DescribeHeadNode" ∧
      classify? "getaway_car" = none ∧ nounOf "getaway_car" = "getaway_car" := by
  have hverb : firstWord (snakeCase "DescribeHeadNode") = "describe" := by decide
  have hother : firstWord (snakeCase "getaway_car") ∉ verbs := by decide
  have hsplit := (verb_and_noun "DescribeHeadNode").2.1 (by rw [hverb]; decide) (by decide)
  have hwhole := (verb_and_noun "getaway_car").2.2 fun h => hother h.1
  refine ⟨by decide, by decide, hverb ▸ hsplit.2, ?_, hwhole.trans (by decide)⟩
  rw [← Option.not_isSome_iff_eq_none, (verb_and_noun "getaway_car").1]
  exact hother

end ControllerTypes.Crud
