import ControllerTypes.Named
import ControllerTypes.Proofs.Yaml.Keys

/-!
# `ControllerTypes.Proofs.Yaml.Lossless`: what is left of a YAML value in JSON

`Becomes` relates a value to what it is in JSON: a sequence becomes an array of what its items
become, and a mapping becomes an object of what its entries become, each under the text of its key.
How an object is made of these members is left open. With `id` they are its members as they are, so
that nothing is lost. With `Named.ofList` a name that comes again replaces the value it had, and
this is what happens (`becomes_of_toJson?`).

The two are the same exactly if no two keys of one mapping have the same text (`lossless_iff`).
-/

set_option autoImplicit false

namespace ControllerTypes.Yaml.Value

open Decimal

/-! ### Values and what they become -/

section
variable (put : List (String × Json) → List (String × Json))

mutual

/-- The value is this in JSON, where `put` makes an object of the members that come from the entries
of a mapping. -/
inductive Becomes : Value → Json → Prop
  | null : Becomes .null .null
  | bool (b : Bool) : Becomes (.bool b) (.bool b)
  | integer (i : Int) : Becomes (.integer i) (.number (.integer i))
  | real (x : Binary64) : Becomes (.real (.finite x)) (.number (.double x))
  | string (s : String) : Becomes (.string s) (.string s)
  | sequence {items : List Value} {js : List Json} (each : BecomeItems items js) :
      Becomes (.sequence items) (.array js)
  | mapping {entries : List (Value × Value)} {members : List (String × Json)}
      (each : BecomeMembers entries members) : Becomes (.mapping entries) (.object (put members))
  | tagged (tag : String) {v : Value} {j : Json} (value : Becomes v j) : Becomes (.tagged tag v) j

/-- There is an item for each item, in order. -/
inductive BecomeItems : List Value → List Json → Prop
  | nil : BecomeItems [] []
  | cons {v : Value} {j : Json} {items : List Value} {js : List Json} (first : Becomes v j)
      (rest : BecomeItems items js) : BecomeItems (v :: items) (j :: js)

/-- There is a member for each entry, in order, under the text of its key. -/
inductive BecomeMembers : List (Value × Value) → List (String × Json) → Prop
  | nil : BecomeMembers [] []
  | cons {key v : Value} {name : String} {j : Json} {entries : List (Value × Value)}
      {members : List (String × Json)} (text : key.keyText? = some name) (value : Becomes v j)
      (rest : BecomeMembers entries members) :
      BecomeMembers ((key, v) :: entries) ((name, j) :: members)

end

/-- The names of the members are the texts of the keys, in the same order. -/
theorem BecomeMembers.names {entries : List (Value × Value)} {members : List (String × Json)}
    (h : BecomeMembers put entries members) :
    entries.map (fun e => e.1.keyText?) = (Named.names members).map some := by
  -- A key without a text has no member, so every entry has one and the lists go together.
  induction entries generalizing members with
  | nil =>
    cases h
    rfl
  | cons e rest ih =>
    cases h with
    | cons text _ hrest => exact congrArg₂ List.cons text (ih hrest)

end

/-! ### What happens -/

mutual

/-- A value becomes what `toJson?` turns it into, where a name that comes again replaces its value:
`put` is `Named.ofList`, as it is in the loader's `yaml_value_to_json`. -/
theorem becomes_of_toJson? :
    ∀ {v : Value} {j : Json}, v.toJson? = some j → Becomes Named.ofList v j
  | .null, _, rfl => .null
  | .bool b, _, rfl => .bool b
  | .integer i, _, rfl => .integer i
  | .real (.finite x), _, rfl => .real x
  | .string s, _, rfl => .string s
  | .sequence items, _, h => by
    -- A container is turned into something only if everything inside of it is.
    obtain ⟨js, hitems, rfl⟩ := Option.map_eq_some_iff.1 h
    exact .sequence (becomeItems_of_toItems? hitems)
  | .mapping entries, _, h => by
    obtain ⟨all, hall, rfl⟩ := Option.map_eq_some_iff.1 h
    obtain ⟨members, hmembers, rfl⟩ := becomeMembers_of_toMembers? hall
    exact .mapping hmembers
  | .tagged tag v, _, h => .tagged tag (becomes_of_toJson? (v := v) h)

/-- The items of a sequence become what `toItems?` turns them into. -/
theorem becomeItems_of_toItems? :
    ∀ {items : List Value} {js : List Json}, toItems? items = some js →
      BecomeItems Named.ofList items js
  | [], _, rfl => .nil
  | v :: items, _, h => by
    obtain ⟨j, hj, h⟩ := Option.bind_eq_some_iff.1 h
    obtain ⟨js, hjs, h⟩ := Option.bind_eq_some_iff.1 h
    cases h
    exact .cons (becomes_of_toJson? hj) (becomeItems_of_toItems? hjs)

/-- The entries of a mapping become `members`, and what `toMembers?` answers are these put into the
object `before` one after the other. -/
theorem becomeMembers_of_toMembers? :
    ∀ {entries : List (Value × Value)} {before all : List (String × Json)},
      toMembers? before entries = some all →
      ∃ members, BecomeMembers Named.ofList entries members ∧
        all = members.foldl (fun all x => Named.insert all x.1 x.2) before
  | [], _, _, rfl => ⟨[], .nil, rfl⟩
  | (key, v) :: entries, _, _, h => by
    obtain ⟨name, hname, h⟩ := Option.bind_eq_some_iff.1 h
    obtain ⟨j, hj, h⟩ := Option.bind_eq_some_iff.1 h
    -- The members are collected before they are put together, so that `put` can be another one.
    obtain ⟨members, hmembers, rfl⟩ := becomeMembers_of_toMembers? h
    exact ⟨(name, j) :: members, .cons hname (becomes_of_toJson? hj) hmembers, rfl⟩

end

/-! ### When nothing is lost -/

section
variable {put : List (String × Json) → List (String × Json)} {entries : List (Value × Value)}
  {members : List (String × Json)}

/-- A mapping becomes an object, which is made of the members by `put`. -/
theorem becomes_mapping_iff {j : Json} : Becomes put (.mapping entries) j ↔
    ∃ members, BecomeMembers put entries members ∧ j = .object (put members) := by
  constructor
  · rintro ⟨⟩
    exact ⟨_, by assumption, rfl⟩
  · rintro ⟨_, each, rfl⟩
    exact .mapping each

/-- The members that the entries of a mapping become have distinct names exactly if the keys of the
entries have distinct texts. This holds for any `put`, since that does not touch the members before
they are put together. -/
theorem BecomeMembers.nodup_iff (h : BecomeMembers put entries members) :
    (Named.names members).Nodup ↔
      (entries.map Prod.fst).Pairwise fun k l => k.keyText? ≠ l.keyText? := by
  have hsome : Function.Injective (some : String → Option String) := fun _ _ => Option.some.inj
  rw [← List.nodup_map_iff hsome, ← h.names, List.Nodup, List.pairwise_map, List.pairwise_map]

/-- The members are the members of the object, in that `id` would do in place of `Named.ofList`,
exactly if the texts of the keys are distinct and nothing is lost inside the values. -/
theorem BecomeMembers.mapping_iff (h : BecomeMembers Named.ofList entries members) :
    Becomes id (.mapping entries) (.object (Named.ofList members)) ↔
      ((entries.map Prod.fst).Pairwise fun k l => k.keyText? ≠ l.keyText?) ∧
        BecomeMembers id entries members := by
  constructor
  · intro hid
    obtain ⟨members', each, heq⟩ := becomes_mapping_iff.1 hid
    obtain rfl : Named.ofList members = members' := Json.object.inj heq
    -- The members of an object have distinct names, so the entries had distinct texts all along.
    have htexts := each.nodup_iff.1 (Named.nodup_names_ofList members)
    rw [Named.ofList_of_nodup (h.nodup_iff.2 htexts)] at each
    exact ⟨htexts, each⟩
  · rintro ⟨htexts, each⟩
    rw [Named.ofList_of_nodup (h.nodup_iff.2 htexts)]
    exact .mapping each

end

mutual

/-- Nothing is lost of a value exactly if its keys are `Apart`. The left side says that the object
of every mapping has all its members, in order. -/
theorem Becomes.id_iff :
    ∀ {v : Value} {j : Json}, Becomes Named.ofList v j → (Becomes id v j ↔ v.Apart)
  | _, _, .null => iff_of_true .null trivial
  | _, _, .bool b => iff_of_true (.bool b) trivial
  | _, _, .integer i => iff_of_true (.integer i) trivial
  | _, _, .real x => iff_of_true (.real x) trivial
  | _, _, .string s => iff_of_true (.string s) trivial
  | _, _, .sequence each => by
    -- An array loses nothing by itself, so it is only the items that matter.
    refine Iff.trans ⟨?_, .sequence⟩ each.id_iff
    rintro ⟨⟩
    assumption
  -- Only here something can get lost: it takes both halves of `KeysPairwise` on a mapping.
  | _, _, .mapping each => each.mapping_iff.trans (and_congr_right fun _ => each.id_iff)
  | _, _, .tagged tag value => by
    -- The tag is left out whatever `put` is.
    refine Iff.trans ⟨?_, .tagged tag⟩ value.id_iff
    rintro ⟨⟩
    assumption

/-- Nothing is lost of items exactly if nothing is lost of any of them. -/
theorem BecomeItems.id_iff :
    ∀ {items : List Value} {js : List Json}, BecomeItems Named.ofList items js →
      (BecomeItems id items js ↔ KeysPairwiseItems (fun k l => k.keyText? ≠ l.keyText?) items)
  | _, _, .nil => iff_of_true .nil trivial
  | _, _, .cons first rest => by
    refine Iff.trans ⟨?_, fun h => .cons h.1 h.2⟩ (and_congr first.id_iff rest.id_iff)
    rintro (_ | ⟨hfirst, hrest⟩)
    exact ⟨hfirst, hrest⟩

/-- Nothing is lost of entries exactly if nothing is lost of any of their values. -/
theorem BecomeMembers.id_iff :
    ∀ {entries : List (Value × Value)} {members : List (String × Json)},
      BecomeMembers Named.ofList entries members →
      (BecomeMembers id entries members ↔
        KeysPairwiseEntries (fun k l => k.keyText? ≠ l.keyText?) entries)
  | _, _, .nil => iff_of_true .nil trivial
  | _, _, .cons text value rest => by
    refine Iff.trans ⟨?_, fun h => .cons text h.1 h.2⟩ (and_congr value.id_iff rest.id_iff)
    rintro (_ | ⟨_, hvalue, hrest⟩)
    exact ⟨hvalue, hrest⟩

end

/-- A value that is turned into JSON becomes the JSON in which a name that comes again replaces the
value it had. Nothing is lost exactly if no two keys of one mapping have the same text; if any two
of them are of one kind, it is enough that they are different. -/
theorem lossless_iff {v : Value} {j : Json} (h : v.toJson? = some j) :
    Becomes Named.ofList v j ∧ (Becomes id v j ↔ v.Apart) ∧
      (v.Distinct → v.KeysPairwise OfOneKind → Becomes id v j) := by
  have hbecomes := becomes_of_toJson? h
  exact ⟨hbecomes, hbecomes.id_iff, fun hdistinct hkinds =>
    hbecomes.id_iff.2 (apart_of_distinct hdistinct hkinds)⟩

/-- The responses of an operation by their status, one of them with a tag. -/
def responses : Value :=
  .mapping
    [(.integer 404, .mapping [(.string "description", .string "missing"), (.string "x", .null)]),
     (.integer 200, .tagged "draft" (.sequence [.integer 2, .integer 1]))]

/-- Nothing is lost of the responses, and they stay in their order. -/
theorem responses_lossless :
    responses.toJson? = some (.object
      [("404", .object [("description", .string "missing"), ("x", .null)]),
       ("200", .array [.number (.integer 2), .number (.integer 1)])]) ∧
    Becomes id responses (.object
      [("404", .object [("description", .string "missing"), ("x", .null)]),
       ("200", .array [.number (.integer 2), .number (.integer 1)])]) := by
  have hjson : responses.toJson? = some (.object
      [("404", .object [("description", .string "missing"), ("x", .null)]),
       ("200", .array [.number (.integer 2), .number (.integer 1)])]) := by cbv
  refine ⟨hjson, (lossless_iff hjson).2.2 ?_ ?_⟩
  · simp [Distinct, responses, KeysPairwise, KeysPairwiseEntries, KeysPairwiseItems, same]
  · -- All keys of a mapping are integers, or all of them strings.
    simp only [responses, KeysPairwise, KeysPairwiseEntries, KeysPairwiseItems]
    simp [OfOneKind.integers, OfOneKind.strings]

/-- The responses of an operation by their status, which is a number once and a string once. -/
def mixed : Value :=
  .mapping [(.integer 200, .string "first"), (.string "200", .string "second")]

/-- The number and the string are different keys, and the first response is lost. -/
theorem mixed_loses :
    mixed.toJson? = some (.object [("200", .string "second")]) ∧
    ¬∀ (v : Value) (j : Json), v.Distinct → v.toJson? = some j → Becomes id v j := by
  have hjson : mixed.toJson? = some (.object [("200", .string "second")]) := by cbv
  refine ⟨hjson, fun h => ?_⟩
  have hdistinct : mixed.Distinct := by
    simp [Distinct, mixed, KeysPairwise, KeysPairwiseEntries, same]
  -- Two entries cannot be one member.
  obtain ⟨members, each, heq⟩ := becomes_mapping_iff.1 (h mixed _ hdistinct hjson)
  obtain rfl : [("200", Json.string "second")] = members := Json.object.inj heq
  exact absurd (congrArg List.length each.names) (by decide)

end ControllerTypes.Yaml.Value
