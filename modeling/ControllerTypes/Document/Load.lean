import ControllerTypes.Description.OfDocument
import ControllerTypes.Document.Decode
import ControllerTypes.Document.Format
import ControllerTypes.Error
import ControllerTypes.Json.Reader
import ControllerTypes.Text.Utf8
import ControllerTypes.Yaml.Value.OfGraph

/-!
# `ControllerTypes.Document.Load`: from the octets of an input to a description

An input is JSON or YAML. If nothing tells which, one that begins with a bracket is JSON and
everything else is tried as YAML first. YAML is turned into the text of a JSON document, which is
read like any other, and what is no YAML after all gets a second chance as JSON.

`load` is `load_document`, `jsonText?` is `normalize_to_json`, `yamlAsJson?` is `yaml_to_json`, and
`looksLikeJson` is the question that `first_significant_byte` answers.
-/

set_option autoImplicit false

namespace ControllerTypes.Document

open Text

/-- The octet is a space, a tab, a line feed, a form feed or a carriage return. -/
def isBlankOctet (b : UInt8) : Bool := [0x20, 0x09, 0x0A, 0x0C, 0x0D].contains b

/-- The first octet that is no blank opens a JSON array or object. -/
def looksLikeJson (bytes : ByteArray) : Bool :=
  match bytes.toList.find? fun b => !isBlankOctet b with
  | some b => b == 0x7B || b == 0x5B
  | none => false

/-- The input is tried as YAML. -/
def mayBeYaml (format : Format) (bytes : ByteArray) : Bool :=
  match format with
  | .json => false
  | .yaml => true
  | .unknown => !looksLikeJson bytes

/-- The JSON text of a YAML input. -/
def yamlAsJson? (bytes : ByteArray) : Option String := do
  let v ← Yaml.Value.parse? (← Utf8.decode? bytes)
  pure (← v.toJson?).render

/-- The JSON text of an input. -/
def jsonText? (format : Format) (bytes : ByteArray) : Option String :=
  match mayBeYaml format bytes with
  -- What is no YAML gets a second chance as JSON.
  | true => (yamlAsJson? bytes).or (Utf8.decode? bytes)
  | false => Utf8.decode? bytes

/-- The document of an input. -/
def read (format : Format) (bytes : ByteArray) : Except Error Document :=
  if bytes.size < 2 then .error (.noDocument (Utf8.decodeLossy bytes))
  else
    match (jsonText? format bytes).bind Json.parse? with
    | none => .error (.malformed .notJson)
    | some (.object members) => (decode members).mapError fun f => .malformed (.fault f)
    | some _ => .error (.malformed .rootNotMap)

/-- The description in an input. -/
def load (format : Format) (bytes : ByteArray) (settings : Settings) :
    Except Error ApiDescription :=
  (read format bytes).map fun doc => doc.describe settings

end ControllerTypes.Document
