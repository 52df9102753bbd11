import ControllerTypes.CommandLine.Run

/-!
# `ControllerTypes.Main`: the program on a real disk

The surroundings of a process, put behind `CommandLine.Surroundings`. Nothing is decided here but
which failure an error of the operating system is.
-/

set_option autoImplicit false

namespace ControllerTypes.OnDisk

open CommandLine Files

/-- The number and the text of an error that operations on files raise. -/
def numberOf? : IO.Error → Option (UInt32 × String)
  | .noFileOrDirectory _ number text => some (number, text)
  | .alreadyExists _ number text => some (number, text)
  | .inappropriateType _ number text => some (number, text)
  | .invalidArgument _ number text => some (number, text)
  | .permissionDenied _ number text => some (number, text)
  | .resourceExhausted _ number text => some (number, text)
  | _ => none

/-- An error of the operating system as a failure. -/
def failureOf (e : IO.Error) : Failure :=
  match numberOf? e with
  | some (2, _) => .missing
  | some (17, _) => .exists
  | some (20, _) => .notDirectory
  | some (21, _) => .isDirectory
  | some (36, _) => .nameTooLong
  | some (number, text) => .other (text ++ " (os error " ++ toString number ++ ")")
  | none => .other (toString e)

/-- An operation that may raise errors, as a step that may fail. -/
def guarded {α : Type} (act : IO α) : ExceptT Failure IO α :=
  ExceptT.mk (tryCatch (.ok <$> act) fun e => pure (.error (failureOf e)))

/-- Whether the path is a directory. Making one under the name of a dot never succeeds, and the way
it fails tells: the dot is there already in a directory, and nowhere else. -/
def isDirectory (path : String) : ExceptT Failure IO Bool :=
  if path == "" then throw .missing
  else
    tryCatch (do
      guarded (IO.FS.createDir (path ++ "/."))
      return true)
      fun failure => do
        match failure with
        | .exists => return true
        | .notDirectory =>
          discard <| guarded (IO.FS.Handle.mk path .read)
          return false
        | _ => throw failure

/-- A file whose name nothing else has is made in the directory and removed again. Nobody is told if
it cannot be removed. -/
def probe (path : String) : ExceptT Failure IO Unit := do
  let octets ← guarded (IO.getRandomBytes 6)
  let letters := octets.toList.map fun octet => Char.ofNat ('a'.toNat + octet.toNat % 26)
  let file := join path (Disk.probeName ++ String.ofList letters)
  guarded (discard <| IO.FS.Handle.mk file .writeNew)
  discard <| (guarded (IO.FS.removeFile file)).run

/-- The files of the operating system. -/
def disk : Disk IO where
  read path := guarded (IO.FS.readBinFile path)
  write path contents := guarded (IO.FS.writeBinFile path contents)
  makeDirectory path := guarded (IO.FS.createDir path)
  isDirectory := isDirectory
  probe := probe

/-- The surroundings of the process. -/
def surroundings : Surroundings IO where
  disk := disk
  input := do (← IO.getStdin).readBinToEnd
  print text := do (← IO.getStdout).putStr text
  report text := do (← IO.getStderr).putStr text

end ControllerTypes.OnDisk

/-- The program. -/
def main (arguments : List String) : IO UInt32 :=
  ControllerTypes.OnDisk.surroundings.run arguments
