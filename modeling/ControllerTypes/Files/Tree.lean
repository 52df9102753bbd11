import ControllerTypes.Files.Disk

/-!
# `ControllerTypes.Files.Tree`: files and directories as a value

A `Tree` is a file system without links: a list of places, each of which is a file or a directory,
where a place is the list of names on the way to it from the root. Paths are relative to the place
`Tree.home`. They are followed name by name, and whatever is entered has to be a directory, so
`file/..` leads nowhere.

`Tree.disk` is the tree as a `Disk`, so that a run can be computed, and what is left behind can be
spoken of. A tree to begin with is made by `Tree.plant`, and `Tree.listing` shows the one at the end.
-/

set_option autoImplicit false

namespace ControllerTypes.Files

open Text

/-- A place in a tree: the names on the way from the root. -/
abbrev Place := List String

/-- What is at a place. -/
inductive Entry where
  | file (contents : ByteArray)
  | directory

/-- Files are equal if their octets are. -/
instance : DecidableEq Entry
  | .file a, .file b =>
    match ByteArray.instDecidableEq a b with
    | isTrue h => isTrue (congrArg Entry.file h)
    | isFalse h => isFalse fun heq => h (Entry.file.inj heq)
  | .file _, .directory | .directory, .file _ => isFalse Entry.noConfusion
  | .directory, .directory => isTrue rfl

/-- Files and directories. The root is a directory that is not listed. -/
structure Tree where
  entries : List (Place × Entry) := []
  /-- Where relative paths begin. -/
  home : Place := []

namespace Tree

/-- What is at a place. -/
def get? (t : Tree) (place : Place) : Option Entry :=
  if place = [] then some .directory
  else (t.entries.find? fun e => e.1 == place).map Prod.snd

/-- The tree with something put at a place. -/
def put (t : Tree) (place : Place) (entry : Entry) : Tree :=
  if (t.get? place).isSome then
    { t with entries := t.entries.map fun e => if e.1 == place then (place, entry) else e }
  else { t with entries := t.entries ++ [(place, entry)] }

/-- The most octets a name may have. -/
def longestName : Nat := 255

/-- The most octets a path may have. -/
def longestPath : Nat := 4095

/-- The way on from a place that is there. -/
def follow (t : Tree) (place : Place) : List String → Except Failure Place
  | [] => .ok place
  | name :: rest =>
    if t.get? place ≠ some .directory then .error .notDirectory
    else if name == "" || name == "." then t.follow place rest
    else if name == ".." then t.follow place.dropLast rest
    else if longestName < name.utf8ByteSize then .error .nameTooLong
    else if (t.get? (place ++ [name])).isSome then t.follow (place ++ [name]) rest
    else .error .missing

/-- The names in a path that can be followed. -/
def split (path : String) : Except Failure (List String) :=
  if path.toList.contains '\x00' then
    .error (.other "file name contained an unexpected NUL byte")
  else if path == "" then .error .missing
  else if longestPath < path.utf8ByteSize then .error .nameTooLong
  else .ok ((segments path.toList).map String.ofList)

/-- Where a path begins. -/
def start (t : Tree) (path : String) : Place := if isAbsolute path.toList then [] else t.home

/-- The place of a path. -/
def locate (t : Tree) (path : String) : Except Failure Place := do
  t.follow (t.start path) (← split path)

/-- The directory a path leads into, and the last name in it. Slashes at the end are told apart from
the name; a path that ends with dots has none. -/
def locateNew (t : Tree) (path : String) : Except Failure (Place × Option String × Bool) := do
  let names ← split path
  let core := (names.reverse.dropWhile (· == "")).reverse
  let place ← t.follow (t.start path) core.dropLast
  if t.get? place ≠ some .directory then throw .notDirectory
  match core.getLast? with
  | none | some "." | some ".." => return (place, none, true)
  | some name =>
    if longestName < name.utf8ByteSize then throw .nameTooLong
    return (place ++ [name], some name, core.length < names.length)

/-- The contents of a file. -/
def read (t : Tree) (path : String) : Except Failure ByteArray := do
  match t.get? (← t.locate path) with
  | some (.file contents) => return contents
  | _ => throw .isDirectory

/-- The tree with new contents in a file. -/
def write (t : Tree) (path : String) (contents : ByteArray) : Except Failure Tree := do
  let (place, name, slash) ← t.locateNew path
  match name, t.get? place with
  | none, _ | _, some .directory => throw .isDirectory
  | _, some (.file _) => if slash then throw .notDirectory else return t.put place (.file contents)
  | _, none => if slash then throw .isDirectory else return t.put place (.file contents)

/-- The tree with one more directory. -/
def makeDirectory (t : Tree) (path : String) : Except Failure Tree := do
  let (place, name, _) ← t.locateNew path
  if name.isNone || (t.get? place).isSome then throw .exists
  return t.put place .directory

/-- Whether a path is a directory. -/
def isDirectory (t : Tree) (path : String) : Except Failure Bool := do
  return t.get? (← t.locate path) == some .directory

/-- The tree as a place with files. -/
def disk : Disk (StateM Tree) where
  read path := do ofExcept ((← get).read path)
  write path contents := do set (← ofExcept ((← get).write path contents))
  makeDirectory path := do set (← ofExcept ((← get).makeDirectory path))
  isDirectory path := do ofExcept ((← get).isDirectory path)
  -- The file that is made and removed leaves the tree as it was.
  probe path := do
    discard <| ofExcept ((← get).write (join path (Disk.probeName ++ "XXXXXX")) ByteArray.empty)
where
  /-- The outcome of an operation on a tree. -/
  ofExcept {α : Type} (outcome : Except Failure α) : ExceptT Failure (StateM Tree) α :=
    ExceptT.mk (pure outcome)

/-! ### Whole trees -/

/-- The tree with something put at a place, and directories on the way to it, as far as nothing is
there. Trees to begin a run with are made of this. -/
def plant (t : Tree) (place : Place) (entry : Entry) : Tree :=
  let way := (List.range place.length).tail.map place.take
  (way.foldl (fun t p => if (t.get? p).isSome then t else t.put p .directory) t).put place entry

/-- The directory at the place has nothing in it. -/
def isEmptyAt (t : Tree) (place : Place) : Bool :=
  t.entries.all fun e => !(place.isPrefixOf e.1 && place.length < e.1.length)

/-- All files below the home, under their paths from there, in order, and with them the directories
that are empty. -/
def listing (t : Tree) : List (String × Option ByteArray) :=
  let below := t.entries.filter fun e => t.home.isPrefixOf e.1 && t.home.length < e.1.length
  let lines := below.filterMap fun (place, entry) =>
    let path := "/".intercalate (place.drop t.home.length)
    match entry with
    | .file contents => some (path, some contents)
    | .directory => if t.isEmptyAt place then some (path ++ "/", none) else none
  lines.mergeSort fun a b => a.1 ≤ b.1

end Tree

end ControllerTypes.Files
