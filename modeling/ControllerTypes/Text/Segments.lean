/-!
# `ControllerTypes.Text.Segments`: the segments of a path

Paths of operations and paths of files are both cut at their slashes. There is one segment more than
there are slashes, so a path that begins or ends with one has an empty segment there.
-/

set_option autoImplicit false

namespace ControllerTypes.Text

/-- What stands between the slashes of a path, from front to back. -/
def segments : List Char → List (List Char)
  | [] => [[]]
  | c :: rest =>
    match segments rest with
    | [] => [[c]]
    | segment :: others =>
      if c == '/' then [] :: segment :: others else (c :: segment) :: others

end ControllerTypes.Text
