import ControllerTypes.Yaml.Node.OfTokens
import ControllerTypes.Yaml.Token.Scan

/-!
# `ControllerTypes.Yaml.Node.Graph`: one document from a whole text

A text holds one document here. Directives may stand in front of it if a mark separates them from
it; they say which version of the format is meant and what the abbreviations of tags stand for. A
text without any document counts as one with an empty scalar.
-/

set_option autoImplicit false

namespace ControllerTypes.Yaml

/-- What the abbreviations stand for unless a directive says otherwise. -/
def commonAbbreviations : Abbreviations := [("!", "!"), ("!!", "tag:yaml.org,2002:")]

/-- The version can be read. -/
def isKnownVersion (major minor : Nat) : Bool := major == 1 && (minor == 1 || minor == 2)

/-- The abbreviations that directives declare, in front of the common ones. There may be one version
and one declaration for each abbreviation. -/
def abbreviationsOf? (versioned : Bool) (declared : Abbreviations) :
    List Directive → Option Abbreviations
  | [] => some (declared ++ commonAbbreviations)
  | .version major minor :: rest =>
    if versioned || !isKnownVersion major minor then none
    else abbreviationsOf? true declared rest
  | .abbreviation handle expansion :: rest =>
    if Named.contains declared handle then none
    else abbreviationsOf? versioned (declared ++ [(handle, expansion)]) rest

/-- The directives at the front of the tokens, and what follows. -/
def splitDirectives : List Token → List Directive × List Token
  | .directive d :: rest =>
    let (others, rest) := splitDirectives rest
    (d :: others, rest)
  | tokens => ([], tokens)

namespace Graph

/-- The token cannot begin the content of a document. -/
def isBoundary : Token → Bool
  | .directive _ | .documentStart | .documentEnd => true
  | _ => false

/-- The document behind its mark. -/
def ofContent? (abbreviations : Abbreviations) (tokens : List Token) : Option Graph := do
  let (root, rest) ←
    if tokens.head?.all isBoundary then some (Node.empty, tokens)
    else (Node.read abbreviations true false [] tokens).map fun r => (r.value, r.rest)
  -- Nothing but marks that end a document may follow.
  if rest.all (· == .documentEnd) then some ⟨root⟩ else none

/-- The document that tokens tell. -/
def ofTokens? (tokens : List Token) : Option Graph :=
  match splitDirectives tokens with
  -- A text that says nothing at all is an empty document.
  | ([], []) => some ⟨Node.empty⟩
  | (directives, .documentStart :: rest) => do
    ofContent? (← abbreviationsOf? false [] directives) rest
  -- Nothing can end before anything began.
  | ([], .documentEnd :: _) => none
  | ([], tokens) => ofContent? commonAbbreviations tokens
  -- Directives have to be separated from the document by its mark.
  | _ => none

/-- The document in a text. -/
def parse? (text : List Char) : Option Graph := (Token.scan? text).bind ofTokens?

end Graph

end ControllerTypes.Yaml
