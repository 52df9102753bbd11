import ControllerTypes.Text.CharClass

/-!
# `ControllerTypes.Name.Plural`: the plural a kind is listed under

A resource is listed under the lower-case plural of its kind: `policies`, `gateways`, `addresses`,
`boxes`. The rules look at the last two letters only. They are written over the reversed word, where
the last letter stands first.

The function is `pluralize`.
-/

set_option autoImplicit false

namespace ControllerTypes.Name

open Text

/-- The plural of a lower-case word, both with their last letter first. -/
def pluralReversed : List Char → List Char
  | 'y' :: 'a' :: stem => 's' :: 'y' :: 'a' :: stem
  | 'y' :: 'e' :: stem => 's' :: 'y' :: 'e' :: stem
  | 'y' :: 'o' :: stem => 's' :: 'y' :: 'o' :: stem
  | 'y' :: 'u' :: stem => 's' :: 'y' :: 'u' :: stem
  | 'y' :: stem => 's' :: 'e' :: 'i' :: stem
  | 's' :: stem => 's' :: 'e' :: 's' :: stem
  | 'x' :: stem => 's' :: 'e' :: 'x' :: stem
  | 'h' :: 'c' :: stem => 's' :: 'e' :: 'h' :: 'c' :: stem
  | 'h' :: 's' :: stem => 's' :: 'e' :: 'h' :: 's' :: stem
  | stem => 's' :: stem

/-- Plural endings are made of small letters: a letter of the plural of `cs` is one of `cs`, or one
of those that the endings are made of. -/
theorem mem_pluralReversed {cs : List Char} {c : Char} (h : c ∈ pluralReversed cs) :
    c ∈ cs ∨ c ∈ ['s', 'e', 'i'] := by
  unfold pluralReversed at h
  split at h <;> grind

/-- The plural has at least one letter, even that of the empty word. -/
theorem pluralReversed_ne_nil {cs : List Char} : pluralReversed cs ≠ [] := by
  unfold pluralReversed
  split <;> exact List.cons_ne_nil _ _

/-- The lower-case plural of a kind. -/
def plural (kind : String) : String :=
  String.ofList (pluralReversed (kind.toList.map toAsciiLower).reverse).reverse

end ControllerTypes.Name
