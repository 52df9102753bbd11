/-!
# `ControllerTypes.Files.Failure`: what can go wrong with a file

The reasons for which an operation on files fails, as far as anything hangs on them, with the text
and the number by which the operating system knows them.
-/

set_option autoImplicit false

namespace ControllerTypes.Files

/-- Why an operation on a path failed. -/
inductive Failure where
  /-- The path, or a part of it, is not there. -/
  | missing
  /-- The path is there already. -/
  | exists
  /-- Something on the way is no directory. -/
  | notDirectory
  /-- The path is a directory. -/
  | isDirectory
  /-- A part of the path has too many octets. -/
  | nameTooLong
  | other (text : String)
  deriving DecidableEq, Repr

/-- The failure in words. -/
def Failure.message : Failure → String
  | missing => "No such file or directory (os error 2)"
  | «exists» => "File exists (os error 17)"
  | notDirectory => "Not a directory (os error 20)"
  | isDirectory => "Is a directory (os error 21)"
  | nameTooLong => "File name too long (os error 36)"
  | other text => text

end ControllerTypes.Files
