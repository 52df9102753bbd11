import ControllerTypes.Descent
import ControllerTypes.Named
import ControllerTypes.Yaml.Node.Basic
import ControllerTypes.Yaml.Token

/-!
# `ControllerTypes.Yaml.Node.OfTokens`: the document that tokens tell

The tokens say where every collection begins and ends, so one token ahead decides how to go on. What
is left out, a value behind a colon or an item behind a dash, is the empty scalar.

Each reader answers with the tokens it left over and a proof that they are fewer (`Read.shorter`),
which is what ends the recursion.
-/

set_option autoImplicit false

namespace ControllerTypes.Yaml

/-- The numbers of the anchors so far, under their names. -/
abbrev Anchors := List (String × Nat)

/-- What the abbreviations of tags stand for. -/
abbrev Abbreviations := List (String × String)

/-- What was read from the front of some tokens, leaving fewer than `bound`. -/
structure Read (bound : Nat) (α : Type) where
  value : α
  /-- The anchors after it. -/
  anchors : Anchors
  /-- The tokens after it. -/
  rest : List Token
  shorter : rest.length < bound

namespace Read

/-- The same with another value, left over from more tokens. -/
def map {α β : Type} {fewer bound : Nat} (r : Read fewer α) (f : α → β) (h : fewer ≤ bound) :
    Read bound β :=
  ⟨f r.value, r.anchors, r.rest, Nat.lt_of_lt_of_le r.shorter h⟩

end Read

namespace Node

/-- The whole tag of a tag that is written with an abbreviation. -/
def expandTag? (abbreviations : Abbreviations) (name : TagName) : Option String :=
  if name.handle == "" then some name.suffix
  else (Named.get? abbreviations name.handle).map (· ++ name.suffix)

/-- An anchor and a tag at the front of the tokens, in either order, and what follows. -/
def splitProperties : List Token → (Option String × Option TagName) × List Token
  | .anchor name :: .tag tag :: rest => ((some name, some tag), rest)
  | .tag tag :: .anchor name :: rest => ((some name, some tag), rest)
  | .anchor name :: rest => ((some name, none), rest)
  | .tag tag :: rest => ((none, some tag), rest)
  | tokens => ((none, none), tokens)

/-- What follows an anchor and a tag is not longer than what they stand in front of. -/
theorem length_splitProperties_le (tokens : List Token) :
    (splitProperties tokens).2.length ≤ tokens.length := by
  unfold splitProperties
  split <;> simp only [List.length_cons] <;> omega

/-- Where there is an anchor or a tag, what follows is shorter. -/
theorem length_splitProperties_lt {tokens : List Token}
    (h : (splitProperties tokens).1 ≠ (none, none)) :
    (splitProperties tokens).2.length < tokens.length := by
  revert h
  unfold splitProperties
  split
  case h_5 => exact fun h => absurd rfl h
  all_goals
    intro _
    simp only [List.length_cons]
    omega

/-- The properties with the anchor's number and the whole tag, and the anchors after them. A name
that is given again gets a new number, which is how many names there are. -/
def resolveProperties (abbreviations : Abbreviations) (anchors : Anchors) :
    Option String × Option TagName → Option (Properties × Anchors)
  | (name, tag) => do
    let tag ← tag.mapM (expandTag? abbreviations)
    match name with
    | none => pure (⟨none, tag⟩, anchors)
    | some name => pure (⟨some anchors.length, tag⟩, Named.insert anchors name anchors.length)

/-- A scalar; the tag `!` alone says nothing about one. -/
def ofScalar (properties : Properties) (plain : Bool) (text : String) : Node :=
  if properties.tag == some "!" then .scalar { properties with tag := none } plain text
  else .scalar properties plain text

/-- A node can begin with the token. Only in a block can it be a block collection, and only as the
key or the value in a block mapping a sequence without indentation. -/
def opens (inBlock inMapping : Bool) : Token → Bool
  | .scalar _ _ | .flowSequenceStart | .flowMappingStart => true
  | .blockSequenceStart | .blockMappingStart => inBlock
  | .blockEntry => inMapping
  | _ => false

/-- One of the tokens comes next. -/
def comesNext (ends : List Token) (tokens : List Token) : Bool := tokens.head?.any ends.contains

variable (abbreviations : Abbreviations)

mutual

/-- A node. -/
def read (inBlock inMapping : Bool) (anchors : Anchors) (tokens : List Token) :
    Option (Read tokens.length Node) :=
  match tokens with
  | .aliasOf name :: rest =>
    -- An alias has neither an anchor nor a tag of its own.
    (Named.get? anchors name).map fun anchor =>
      ⟨.aliasOf anchor, anchors, rest, Nat.lt_succ_self _⟩
  | tokens => do
    let (properties, anchors) ←
      resolveProperties abbreviations anchors (splitProperties tokens).1
    if (splitProperties tokens).2.head?.any (opens inBlock inMapping) then
      let node ← content properties anchors (splitProperties tokens).2
      some (node.map id (length_splitProperties_le tokens))
    -- Properties with nothing behind them are those of an empty scalar.
    else if h : (splitProperties tokens).1 ≠ (none, none) then
      some ⟨.scalar properties true "", anchors, _, length_splitProperties_lt h⟩
    else none
termination_by (tokens.length, 1)
decreasing_by
  exact lex_of_le (length_splitProperties_le tokens) Nat.zero_lt_one

/-- A node behind its properties. -/
def content (properties : Properties) (anchors : Anchors) (tokens : List Token) :
    Option (Read tokens.length Node) :=
  match tokens with
  | .scalar plain text :: rest =>
    some ⟨ofScalar properties plain text, anchors, rest, Nat.lt_succ_self _⟩
  | .flowSequenceStart :: rest =>
    (flowItems true anchors rest).map (·.map (.sequence properties) (Nat.le_succ _))
  | .flowMappingStart :: rest =>
    (flowEntries true anchors rest).map (·.map (.mapping properties) (Nat.le_succ _))
  | .blockSequenceStart :: rest =>
    (blockItems anchors rest).map (·.map (.sequence properties) (Nat.le_succ _))
  | .blockMappingStart :: rest =>
    (blockEntries anchors rest).map (·.map (.mapping properties) (Nat.le_succ _))
  -- A sequence without indentation has no start; its first dash is all there is.
  | .blockEntry :: rest =>
    (plainItems anchors rest).map (·.map (.sequence properties) (Nat.le_refl _))
  | _ => none
termination_by (tokens.length, 0)

/-- A node, or the empty scalar if one of the tokens comes next. -/
def readUnless (ends : List Token) (inBlock inMapping : Bool) (anchors : Anchors)
    (tokens : List Token) : Option (Read (tokens.length + 1) Node) :=
  if comesNext ends tokens then some ⟨empty, anchors, tokens, Nat.lt_succ_self _⟩
  else (read inBlock inMapping anchors tokens).map (·.map id (Nat.le_succ _))
termination_by (tokens.length, 2)

/-- The items of an indented sequence. -/
def blockItems (anchors : Anchors) (tokens : List Token) :
    Option (Read tokens.length (List Node)) :=
  match tokens with
  | .blockEnd :: rest => some ⟨[], anchors, rest, Nat.lt_succ_self _⟩
  | .blockEntry :: rest => do
    let item ← readUnless [.blockEntry, .blockEnd] true false anchors rest
    have hitem := item.shorter
    let others ← blockItems item.anchors item.rest
    some (others.map (item.value :: ·) (Nat.le_of_lt hitem))
  | _ => none
termination_by (tokens.length, 3)

/-- The items of a sequence without indentation, behind the dash of the first one. -/
def plainItems (anchors : Anchors) (tokens : List Token) :
    Option (Read (tokens.length + 1) (List Node)) := do
  let item ← readUnless [.blockEntry, .key, .value, .blockEnd] true false anchors tokens
  match _h : item.rest with
  | .blockEntry :: rest =>
    let others ← plainItems item.anchors rest
    some (others.map (item.value :: ·) (by
      have := item.shorter
      simp only [_h, List.length_cons] at this
      omega))
  | _ => some (item.map (fun v => [v]) (Nat.le_refl _))
termination_by (tokens.length, 3)
decreasing_by
  · exact Prod.Lex.right _ (by omega)
  · have := item.shorter
    simp only [_h, List.length_cons] at this
    exact Prod.Lex.left _ _ (by omega)

/-- The value of an entry, if a colon comes next, and else the empty scalar. -/
def valueUnless (ends : List Token) (inBlock : Bool) (anchors : Anchors) (tokens : List Token) :
    Option (Read (tokens.length + 1) Node) :=
  match tokens with
  | .value :: rest =>
    (readUnless ends inBlock inBlock anchors rest).map (·.map id (by simp))
  | tokens => some ⟨empty, anchors, tokens, Nat.lt_succ_self _⟩
termination_by (tokens.length, 3)

/-- The entries of a block mapping. -/
def blockEntries (anchors : Anchors) (tokens : List Token) :
    Option (Read tokens.length (List (Node × Node))) :=
  match tokens with
  | .blockEnd :: rest => some ⟨[], anchors, rest, Nat.lt_succ_self _⟩
  | .key :: rest => do
    let key ← readUnless [.key, .value, .blockEnd] true true anchors rest
    have hkey := key.shorter
    let value ← valueUnless [.key, .value, .blockEnd] true key.anchors key.rest
    have hvalue := value.shorter
    let others ← blockEntries value.anchors value.rest
    some (others.map ((key.value, value.value) :: ·) (by
      simp only [List.length_cons]
      omega))
  | _ => none
termination_by (tokens.length, 3)

/-- The items of a sequence in brackets; the first one has no comma in front. -/
def flowItems (first : Bool) (anchors : Anchors) (tokens : List Token) :
    Option (Read tokens.length (List Node)) :=
  match first, tokens with
  | _, .flowSequenceEnd :: rest => some ⟨[], anchors, rest, Nat.lt_succ_self _⟩
  | true, tokens => nextItem anchors tokens
  | false, .flowEntry :: .flowSequenceEnd :: rest =>
    some ⟨[], anchors, rest, Nat.lt_succ_of_lt (Nat.lt_succ_self _)⟩
  | false, .flowEntry :: rest => (nextItem anchors rest).map (·.map id (Nat.le_succ _))
  | false, _ => none
termination_by (tokens.length, 5)

/-- The items of a sequence in brackets from one that is there. -/
def nextItem (anchors : Anchors) (tokens : List Token) :
    Option (Read tokens.length (List Node)) :=
  match tokens with
  | .key :: rest => do
    -- A key inside of brackets makes a mapping of its own, with one entry.
    let pair ← pairItem anchors rest
    have hpair := pair.shorter
    let others ← flowItems false pair.anchors pair.rest
    some (others.map (pair.value :: ·) (Nat.le_of_lt hpair))
  | tokens => do
    let item ← read false false anchors tokens
    have hitem := item.shorter
    let others ← flowItems false item.anchors item.rest
    some (others.map (item.value :: ·) (by omega))
termination_by (tokens.length, 4)

/-- An item that is a mapping with one entry, behind the mark of its key. -/
def pairItem (anchors : Anchors) (tokens : List Token) :
    Option (Read (tokens.length + 1) Node) :=
  match tokens with
  | [] => none
  | next :: rest =>
    if next ∈ [Token.value, .flowEntry, .flowSequenceEnd] then do
      -- A missing key takes the token behind it along.
      let value ← valueUnless [.flowEntry, .flowSequenceEnd] false anchors rest
      some (value.map (fun v => .mapping {} [(empty, v)]) (Nat.le_succ _))
    else do
      let key ← read false false anchors (next :: rest)
      have hkey := key.shorter
      let value ← valueUnless [.flowEntry, .flowSequenceEnd] false key.anchors key.rest
      some (value.map (fun v => .mapping {} [(key.value, v)]) (by omega))
termination_by (tokens.length, 4)

/-- The entries of a mapping in brackets; the first one has no comma in front. -/
def flowEntries (first : Bool) (anchors : Anchors) (tokens : List Token) :
    Option (Read tokens.length (List (Node × Node))) :=
  match first, tokens with
  | _, .flowMappingEnd :: rest => some ⟨[], anchors, rest, Nat.lt_succ_self _⟩
  | true, tokens => nextEntry anchors tokens
  | false, .flowEntry :: .flowMappingEnd :: rest =>
    some ⟨[], anchors, rest, Nat.lt_succ_of_lt (Nat.lt_succ_self _)⟩
  | false, .flowEntry :: rest => (nextEntry anchors rest).map (·.map id (Nat.le_succ _))
  | false, _ => none
termination_by (tokens.length, 5)

/-- The entries of a mapping in brackets from one that is there. -/
def nextEntry (anchors : Anchors) (tokens : List Token) :
    Option (Read tokens.length (List (Node × Node))) :=
  match tokens with
  | .key :: rest => do
    let key ← readUnless [.value, .flowEntry, .flowMappingEnd] false false anchors rest
    have hkey := key.shorter
    let value ← valueUnless [.flowEntry, .flowMappingEnd] false key.anchors key.rest
    have hvalue := value.shorter
    let others ← flowEntries false value.anchors value.rest
    some (others.map ((key.value, value.value) :: ·) (by
      simp only [List.length_cons]
      omega))
  | tokens => do
    -- A node without a colon is a key whose value was left out.
    let key ← read false false anchors tokens
    have hkey := key.shorter
    let others ← flowEntries false key.anchors key.rest
    some (others.map ((key.value, empty) :: ·) (by omega))
termination_by (tokens.length, 4)

end

end Node

end ControllerTypes.Yaml
