/-!
# `ControllerTypes.Yaml.Token`: the tokens of a YAML text

Indentation and punctuation say the same thing in two ways: where a collection begins and ends. In
the tokens both have become explicit. A block collection begins with a token of its own and ends
with `Token.blockEnd`, and every key of a mapping is announced by `Token.key`, whether or not the
text had a mark for it.
-/

set_option autoImplicit false

namespace ControllerTypes.Yaml

/-- A tag as it is written. -/
structure TagName where
  /-- The abbreviation in front, such as `!!`; empty if the tag is written in full. -/
  handle : String
  /-- What follows the abbreviation. -/
  suffix : String
  deriving DecidableEq, Repr

/-- An instruction in front of a document. -/
inductive Directive where
  /-- The version of the format. -/
  | version (major minor : Nat)
  /-- The tags an abbreviation stands for begin with this text. -/
  | abbreviation (handle expansion : String)
  deriving DecidableEq, Repr

/-- A token. -/
inductive Token where
  | directive (d : Directive)
  | documentStart
  | documentEnd
  | blockSequenceStart
  | blockMappingStart
  /-- The end of a block collection. -/
  | blockEnd
  | flowSequenceStart
  | flowSequenceEnd
  | flowMappingStart
  | flowMappingEnd
  /-- A comma. -/
  | flowEntry
  /-- A dash in front of an item. -/
  | blockEntry
  /-- A key follows. -/
  | key
  /-- A value follows. -/
  | value
  | anchor (name : String)
  | aliasOf (name : String)
  | tag (name : TagName)
  /-- A scalar; a plain one is written without quotation marks, as part of a line. -/
  | scalar (plain : Bool) (text : String)
  deriving DecidableEq, Repr

end ControllerTypes.Yaml
