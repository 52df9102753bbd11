import ControllerTypes.Yaml.Value.OfGraph
import Mathlib

/-!
# `ControllerTypes.Proofs.Yaml.Keys`: the keys of the mappings in a YAML value

`KeysPairwise` says of any two keys of one mapping, wherever it stands in a value, that they are
related. Two such properties matter here. The keys of a document are `Distinct`, that is, no two are
equal, since a document with equal keys is refused (`distinct_of_parse?`). They need not be `Apart`,
that is, they may have the same text: the number 200 and the string of its digits are different
keys. Keys of one kind that are different have different texts (`apart_of_distinct`).
-/

set_option autoImplicit false

namespace ControllerTypes.Yaml

namespace Value

/-! ### Any two keys -/

mutual

/-- Any two keys of one mapping are related, wherever the mapping stands in the value. -/
def KeysPairwise (R : Value → Value → Prop) : Value → Prop
  | sequence items => KeysPairwiseItems R items
  | mapping entries => (entries.map Prod.fst).Pairwise R ∧ KeysPairwiseEntries R entries
  | tagged _ v => KeysPairwise R v
  | _ => True

/-- Any two keys of one mapping in the items are related. -/
def KeysPairwiseItems (R : Value → Value → Prop) : List Value → Prop
  | [] => True
  | v :: rest => KeysPairwise R v ∧ KeysPairwiseItems R rest

/-- Any two keys of one mapping in the values of the entries are related. -/
def KeysPairwiseEntries (R : Value → Value → Prop) : List (Value × Value) → Prop
  | [] => True
  | (_, v) :: rest => KeysPairwise R v ∧ KeysPairwiseEntries R rest

end

/-- In items, keys are related by `R` that are related in one of them: `KeysPairwiseItems` is
`KeysPairwise` of every item. -/
theorem keysPairwiseItems_iff {R : Value → Value → Prop} {items : List Value} :
    KeysPairwiseItems R items ↔ ∀ v ∈ items, KeysPairwise R v := by
  induction items with
  | nil => simp [KeysPairwiseItems]
  | cons v rest ih => rw [KeysPairwiseItems, ih, List.forall_mem_cons]

/-- In entries, keys are related by `R` that are related in one of their values. What two keys of
the entries themselves have to do with each other is no matter of `KeysPairwiseEntries`. -/
theorem keysPairwiseEntries_iff {R : Value → Value → Prop} {entries : List (Value × Value)} :
    KeysPairwiseEntries R entries ↔ ∀ e ∈ entries, KeysPairwise R e.2 := by
  induction entries with
  | nil => simp [KeysPairwiseEntries]
  | cons e rest ih => rw [KeysPairwiseEntries, ih, List.forall_mem_cons]

mutual

/-- Keys that are related by `R` and by `S` are related by `T`, which `h` has follow from both. -/
theorem KeysPairwise.imp {R S T : Value → Value → Prop} (h : ∀ k l, R k l → S k l → T k l) :
    ∀ {v : Value}, KeysPairwise R v → KeysPairwise S v → KeysPairwise T v
  | .null, _, _ | .bool _, _, _ | .integer _, _, _ | .real _, _, _ | .string _, _, _ => trivial
  | .sequence _, hR, hS => KeysPairwiseItems.imp h hR hS
  | .mapping _, hR, hS => ⟨hR.1.imp₂ h hS.1, KeysPairwiseEntries.imp h hR.2 hS.2⟩
  | .tagged _ v, hR, hS => KeysPairwise.imp (v := v) h hR hS

/-- The same for the items of a sequence, each on its own. -/
theorem KeysPairwiseItems.imp {R S T : Value → Value → Prop} (h : ∀ k l, R k l → S k l → T k l) :
    ∀ {items : List Value}, KeysPairwiseItems R items → KeysPairwiseItems S items →
      KeysPairwiseItems T items
  | [], _, _ => trivial
  | _ :: _, hR, hS => ⟨KeysPairwise.imp h hR.1 hS.1, KeysPairwiseItems.imp h hR.2 hS.2⟩

/-- The same for the values of the entries of a mapping. The keys of the entries are the matter of
`KeysPairwise.imp`. -/
theorem KeysPairwiseEntries.imp {R S T : Value → Value → Prop}
    (h : ∀ k l, R k l → S k l → T k l) :
    ∀ {entries : List (Value × Value)}, KeysPairwiseEntries R entries →
      KeysPairwiseEntries S entries → KeysPairwiseEntries T entries
  | [], _, _ => trivial
  | _ :: _, hR, hS => ⟨KeysPairwise.imp h hR.1 hS.1, KeysPairwiseEntries.imp h hR.2 hS.2⟩

end

/-- No two keys of one mapping have the same text. -/
def Apart : Value → Prop := KeysPairwise fun k l => k.keyText? ≠ l.keyText?

/-- No two keys of one mapping are equal. -/
def Distinct : Value → Prop := KeysPairwise fun k l => k.same l = false

/-! ### Keys of one kind -/

/-- The keys are two strings, two integers or two truth values. -/
inductive OfOneKind : Value → Value → Prop
  | strings (s t : String) : OfOneKind (.string s) (.string t)
  | integers (i j : Int) : OfOneKind (.integer i) (.integer j)
  | bools (a b : Bool) : OfOneKind (.bool a) (.bool b)

/-- Different keys of one kind have different texts: `keyText?` is one to one on strings, on
integers and on truth values. -/
theorem OfOneKind.text_ne {k l : Value} (h : OfOneKind k l) (hne : k.same l = false) :
    k.keyText? ≠ l.keyText? := by
  -- Each kind has a way of its own to be written, and none of them writes two keys alike.
  cases h with
  | strings s t =>
    intro htext
    exact beq_eq_false_iff_ne.1 hne (Option.some.inj htext)
  | integers i j =>
    intro htext
    exact beq_eq_false_iff_ne.1 hne (Int.repr_inj.1 (Option.some.inj htext))
  | bools a b => cases a <;> cases b <;> simp_all [same, keyText?]

/-- Distinct keys are apart if any two of them are of one kind. `hkind` is what a document breaks
that writes a number and the string of its digits. -/
theorem apart_of_distinct {v : Value} (h : v.Distinct) (hkind : v.KeysPairwise OfOneKind) :
    v.Apart :=
  KeysPairwise.imp (fun _ _ hkind hne => OfOneKind.text_ne hkind hne) hkind h

end Value

/-! ### The keys of a document -/

/-- Whatever the step gives has the property. -/
def Compose.Gives {α : Type} (x : Compose α) (P : α → Prop) : Prop :=
  ∀ n a m, x n = some (a, m) → P a

namespace Compose.Gives

variable {α β : Type} {x : Compose α} {f : α → Compose β} {P : α → Prop} {Q : β → Prop}

/-- A step that answers `a` gives whatever is true of `a`. -/
theorem pure {a : α} (h : P a) : Gives (Pure.pure a : Compose α) P := by
  rintro n _ m ⟨⟩
  exact h

/-- A step that fails gives anything at all, since it answers nothing. -/
theorem fail : Gives (Compose.fail : Compose α) P := by
  rintro n _ m ⟨⟩

/-- Two steps give `Q` if the first gives `P` and the second gives `Q` behind every answer with `P`.
The number of nodes that are counted on the way does not matter. -/
theorem bind (hx : Gives x P) (hf : ∀ a, P a → Gives (f a) Q) : Gives (x >>= f) Q := by
  intro n b m h
  obtain ⟨⟨a, k⟩, ha, hb⟩ := Option.bind_eq_some_iff.1 h
  exact hf a (hx n a k ha) k b m hb

end Compose.Gives

/-- A plain scalar is no mapping, so it has no keys that could be equal. -/
theorem Scalar.distinct_of_plain? {text : String} {v : Value} (h : Scalar.plain? text = some v) :
    v.Distinct := by
  -- Every branch that answers something answers a scalar, of which `Distinct` is true by
  -- definition.
  unfold Scalar.plain? at h
  split at h
  · cases h
    trivial
  · split at h
    · cases h
      trivial
    · cases h
      trivial
    · cases h
    · split at h
      · cases h
        trivial
      · cases hreal : Scalar.real? text <;> rw [hreal] at h <;> cases h <;> trivial

/-- A scalar with a tag has no keys either, whatever its type makes of its text. -/
theorem Scalar.distinct_of_value? {tag : Option String} {plain : Bool} {text : String} {v : Value}
    (h : Scalar.value? tag plain text = some v) : v.Distinct := by
  unfold Scalar.value? at h
  split at h
  · split at h
    · exact Scalar.distinct_of_plain? h
    · cases h
      trivial
  · unfold Scalar.ofType? at h
    split at h <;> simp only [Option.getD_some, Option.getD_none] at h
    · split at h <;> cases h
      trivial
    · obtain ⟨b, _, rfl⟩ := Option.map_eq_some_iff.1 h
      trivial
    · split at h <;> cases h
      trivial
    · obtain ⟨x, _, rfl⟩ := Option.map_eq_some_iff.1 h
      trivial
    · cases h
      trivial

namespace Graph

open Value Compose

variable {g : Graph} {depth : Nat}

/-- A tag adds no keys, so a value with `properties` is as distinct as the one without. -/
theorem distinct_withTag {properties : Properties} {v : Value} (h : v.Distinct) :
    Gives (withTag properties v) Distinct := by
  unfold withTag
  split
  · exact .pure h
  · exact .fail
  · exact .pure h

/-- A node that is a scalar gives a value without keys, or fails. -/
theorem distinct_scalar (properties : Properties) (plain : Bool) (text : String) :
    Gives (match Scalar.value? (typeTag? properties) plain text with
      | some v => withTag properties v
      | none => Compose.fail) Distinct := by
  split
  · next hvalue => exact distinct_withTag (Scalar.distinct_of_value? hvalue)
  · exact .fail

/-- Items are distinct if every node that is composed at this depth is, which is the induction
hypothesis `hcompose` of `distinct_compose`. -/
theorem distinct_composeItems (hcompose : ∀ node, Gives (compose g depth node) Distinct)
    (nodes : List Node) :
    Gives (composeItems g depth nodes) fun items => ∀ v ∈ items, v.Distinct := by
  -- Items are composed one after the other, so the induction is on the nodes that are left.
  induction nodes with
  | nil =>
    rw [composeItems]
    exact .pure (List.forall_mem_nil _)
  | cons node rest ih =>
    rw [composeItems]
    refine (hcompose node).bind fun v hv => ih.bind fun items hitems => ?_
    exact .pure (List.forall_mem_cons.2 ⟨hv, hitems⟩)

/-- The entries `before`, last first, come with those that are still to be composed: if their keys
are distinct so far (`hkeys`), and so are the keys inside their values (`hvalues`), the whole
mapping is distinct. -/
theorem distinct_composeEntries (hcompose : ∀ node, Gives (compose g depth node) Distinct)
    (nodes : List (Node × Node)) {before : List (Value × Value)}
    (hkeys : (before.map Prod.fst).Pairwise fun k l => l.same k = false)
    (hvalues : ∀ e ∈ before, e.2.Distinct) :
    Gives (composeEntries g depth before nodes) fun entries =>
      (Value.mapping entries).Distinct := by
  -- `hkeys` and `hvalues` are the invariant: they are kept by every entry that is let in.
  induction nodes generalizing before with
  | nil =>
    rw [composeEntries]
    refine .pure ⟨?_, keysPairwiseEntries_iff.2 fun e he => hvalues e (List.mem_reverse.1 he)⟩
    rw [List.map_reverse, List.pairwise_reverse]
    exact hkeys
  | cons node rest ih =>
    rw [composeEntries]
    refine (hcompose node.1).bind fun name _ => ?_
    split
    · exact .fail
    · next hnew =>
      -- A key is let in only if it is none of those before it.
      refine (hcompose node.2).bind fun v hv => ih ?_ (List.forall_mem_cons.2 ⟨hv, hvalues⟩)
      refine List.pairwise_cons.2 ⟨?_, hkeys⟩
      rw [List.forall_mem_map]
      intro e he
      rw [← Bool.not_eq_true]
      exact fun hsame => hnew (List.any_eq_true.2 ⟨e, he, hsame⟩)

/-- No two keys of a mapping that is composed from a node of `g` are equal, however deep the node
goes. -/
theorem distinct_compose (g : Graph) (depth : Nat) (node : Node) :
    Gives (compose g depth node) Distinct := by
  -- The depth is what a node may still contain others by; at depth zero only scalars are composed.
  induction depth generalizing node with
  | zero =>
    rw [compose]
    -- Of the node that an alias is replaced by nothing has to be known.
    refine Gives.bind (P := fun _ => True) (fun _ _ _ _ => trivial) fun node _ => ?_
    cases node with
    | scalar properties plain text => exact distinct_scalar properties plain text
    | aliasOf | sequence | mapping => exact .fail
  | succ depth ih =>
    rw [compose]
    refine Gives.bind (P := fun _ => True) (fun _ _ _ _ => trivial) fun node _ => ?_
    cases node with
    | aliasOf => exact .fail
    | scalar properties plain text => exact distinct_scalar properties plain text
    | sequence properties items =>
      refine (distinct_composeItems ih items).bind fun items hitems => distinct_withTag ?_
      exact keysPairwiseItems_iff.2 hitems
    | mapping properties entries =>
      exact (distinct_composeEntries ih entries .nil (List.forall_mem_nil _)).bind fun _ hentries =>
        distinct_withTag hentries

end Graph

/-- No two keys of one mapping in a document that was parsed are equal, since a document with two
equal keys is refused. -/
theorem Value.distinct_of_parse? {text : String} {v : Value} (h : parse? text = some v) :
    v.Distinct := by
  obtain ⟨g, _, hvalue⟩ := Option.bind_eq_some_iff.1 h
  obtain ⟨⟨_, n⟩, hcompose, rfl⟩ := Option.map_eq_some_iff.1 hvalue
  exact Graph.distinct_compose g _ _ _ _ _ hcompose

end ControllerTypes.Yaml
