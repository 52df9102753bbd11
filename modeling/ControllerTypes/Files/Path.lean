import ControllerTypes.Text.Segments

/-!
# `ControllerTypes.Files.Path`: paths of files as texts

A path is a text whose slashes separate names. Empty segments and single dots name nothing, so they
are passed over, except that a dot at the very front stands for the current directory.
-/

set_option autoImplicit false

namespace ControllerTypes.Files

open Text

/-- The path begins at the root. -/
def isAbsolute (path : List Char) : Bool := path.head? == some '/'

/-- The path of a name inside a directory. -/
def join (directory name : String) : String :=
  if isAbsolute name.toList || directory == "" then name
  else if directory.toList.getLast? == some '/' then directory ++ name
  else directory ++ "/" ++ name

/-- The segments that name something. -/
def names (path : List Char) : List (List Char) :=
  (segments path).filter fun segment => segment != [] && segment != ['.']

/-- The names of a path and the dot at its front. -/
def components (path : List Char) : List (List Char) :=
  if (segments path).head? == some ['.'] then ['.'] :: names path else names path

/-- The directories above a path of these components, nearest first. They end with the root, or with
the empty path. -/
def above (absolute : Bool) (components : List (List Char)) : List String :=
  let text (front : List (List Char)) : String :=
    (if absolute then "/" else "") ++ "/".intercalate (front.map String.ofList)
  (List.range components.length).reverse.map fun n => text (components.take n)

/-- The path and the directories above it, nearest first. -/
def withParents (path : String) : List String :=
  path :: above (isAbsolute path.toList) (components path.toList)

/-- The last name of a path, unless that leads upwards. -/
def fileName? (path : List Char) : Option (List Char) :=
  (names path).getLast?.filter (· != ['.', '.'])

/-- What follows the last dot of a file name. A dot at the very front hides a file and begins no
ending. -/
def ending? (name : List Char) : Option (List Char) :=
  let front := (name.reverse.dropWhile (· != '.')).drop 1
  if front.isEmpty then none else some (name.reverse.takeWhile (· != '.')).reverse

end ControllerTypes.Files
