/-!
# `ControllerTypes.Descent`: measures that go down in steps

Recursions over a document go down in one of several measures taken in order. A step may leave an
earlier measure as it is or make it smaller without anyone knowing which; `lex_of_le` is all it
takes then.
-/

set_option autoImplicit false

namespace ControllerTypes

/-- A first measure that is no larger leaves the decision to the second. -/
theorem lex_of_le {β : Type} {r : β → β → Prop} {a a' : Nat} {b b' : β} (ha : a ≤ a')
    (hb : r b b') : Prod.Lex (· < ·) r (a, b) (a', b') := by
  rcases Nat.lt_or_eq_of_le ha with h | rfl
  · exact Prod.Lex.left _ _ h
  · exact Prod.Lex.right _ hb

end ControllerTypes
