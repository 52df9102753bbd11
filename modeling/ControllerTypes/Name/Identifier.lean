import ControllerTypes.Text.CharClass

/-!
# `ControllerTypes.Name.Identifier`: names as exported Go identifiers

A generated type or field is visible outside its package only if its name begins with a capital, and
the names of a description may hold any character at all. `pascalCase` keeps the ASCII letters and
digits and begins every word with a capital, where a word ends at each character it drops. Capitals
inside a word stay, so acronyms survive: `io.k8s.api.Pod` becomes `IoK8sApiPod` and `HTTPServer`
stays as it is.

What begins with a digit, or has nothing left, is no identifier yet: `goIdentifier` puts a lead word
in front of it.

The functions are `to_pascal_case` and `to_go_identifier`.
-/

set_option autoImplicit false

namespace ControllerTypes.Name

open Text

/-- The letters and digits of the name with a capital at every start of a word. -/
def pascalFrom (atStart : Bool) : List Char → List Char
  | [] => []
  | c :: rest =>
    if isAsciiAlphanumeric c then
      (if atStart then toAsciiUpper c else c) :: pascalFrom false rest
    else pascalFrom true rest

/-- The name in Pascal case. -/
def pascalCase (s : String) : String := String.ofList (pascalFrom true s.toList)

/-- The name as an exported identifier; `lead` stands in front of one that begins with no letter. -/
def goIdentifier (s lead : String) : String :=
  let name := pascalCase s
  if name.toList.head?.any isAsciiLetter then name else lead ++ name

end ControllerTypes.Name
