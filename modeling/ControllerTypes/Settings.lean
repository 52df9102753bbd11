import ControllerTypes.Text.CharClass

/-!
# `ControllerTypes.Settings`: what the user may decide

A run is steered by a few settings, all of which have defaults: the version of the generated API,
the suffix of its group, the extension that holds the short name of the service, and the definitions
that are never made resources.

A definition is ignored when one of the patterns fits its name. A pattern may begin and end with
stars, and what lies between them has to be part of the name, at its end if only the beginning has
stars and at its beginning if only the end has. Without a star the pattern is the name.

`Settings` is `GeneratorConfig`; `versionOr` is `api_version_or`, `apiGroup` is `api_group`, `fits`
is `matches_pattern`, and `ignores` is `ignores_resource`.
-/

set_option autoImplicit false

namespace ControllerTypes

/-- The settings of a run. -/
structure Settings where
  /-- The version of the generated API. -/
  apiVersion : Option String := none
  /-- What follows the name of the service in the API group. -/
  groupSuffix : String := "services.k8s.aws"
  /-- The extension of `info` that holds the name of the service. -/
  aliasExtension : String := "x-aws-api-alias"
  /-- Patterns for definitions that are no resources. -/
  ignored : List String := []
  deriving DecidableEq, Repr

/-- One list is a contiguous part of the other. -/
def isInfix {α : Type} [BEq α] (part : List α) : List α → Bool
  | [] => part.isEmpty
  | x :: rest => part.isPrefixOf (x :: rest) || isInfix part rest

namespace Settings

/-- The version used when nobody names one. -/
def defaultVersion : String := "v1alpha1"

/-- The version of the API: the one asked for, else the one set, else the default. -/
def versionOr (s : Settings) (asked : Option String) : String :=
  (asked.or s.apiVersion).getD defaultVersion

/-- The text without quotation marks. -/
def unquote (text : String) : String := String.ofList (text.toList.filter (· != '"'))

/-- The API group of a service, whose name is `unknown` if it has none. -/
def apiGroup (s : Settings) (service : Option String) : String :=
  unquote (service.getD "unknown") ++ "." ++ s.groupSuffix

/-- A pattern fits a name. -/
def fits (pattern name : List Char) : Bool :=
  let front := pattern.dropWhile (· == '*')
  let back := (pattern.reverse.dropWhile (· == '*')).reverse
  -- A single star stands at the beginning; it takes two to stand at both ends.
  match pattern.head? == some '*', pattern.getLast? == some '*' && 1 < pattern.length with
  | true, true => isInfix (front.reverse.dropWhile (· == '*')).reverse name
  | true, false => front.isSuffixOf name
  | false, true => back.isPrefixOf name
  | false, false => pattern == name

/-- The definition is no resource, whatever operations carry it. -/
def ignores (s : Settings) (definition : String) : Bool :=
  s.ignored.any fun pattern => fits pattern.toList definition.toList

end Settings

end ControllerTypes
