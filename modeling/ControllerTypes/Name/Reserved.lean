import ControllerTypes.Name.Snake

/-!
# `ControllerTypes.Name.Reserved`: names a generated type must not take

A type may not be called like a keyword or a predeclared identifier of Go in any mixture of cases,
nor like a type that the generated files import under its own name. A kind of resource must in
addition leave alone the files that every run writes, because it gets a file of its own:
`kindFile` is that file.

`isReserved` and `isReservedKind` are `is_reserved` and `is_reserved_kind`, and `kindFile` is
`kind_file_name`.
-/

set_option autoImplicit false

namespace ControllerTypes.Name

open Text

/-- The keywords and predeclared identifiers of Go. -/
def goWords : List String :=
  ["break", "case", "chan", "const", "continue", "default", "defer", "else", "fallthrough", "for",
   "func", "go", "goto", "if", "import", "interface", "map", "package", "range", "return",
   "select", "struct", "switch", "type", "var",
   "any", "bool", "byte", "comparable", "complex64", "complex128", "error", "float32", "float64",
   "int", "int8", "int16", "int32", "int64", "rune", "string", "uint", "uint8", "uint16",
   "uint32", "uint64", "uintptr",
   "true", "false", "iota", "nil", "append", "cap", "clear", "close", "complex", "copy", "delete",
   "imag", "len", "make", "max", "min", "new", "panic", "print", "println", "real", "recover"]

/-- The types that generated files use from elsewhere. -/
def importedTypes : List String := ["ObjectMeta", "TypeMeta", "ListMeta", "Time"]

/-- The name is a word of Go in some mixture of cases, or an imported type. -/
def isReserved (name : String) : Bool :=
  goWords.contains (asciiLower name) || importedTypes.contains name

/-- The files every run writes. -/
def sharedFiles : List String := ["doc.go", "groupversion_info.go", "types.go"]

/-- The file of a kind: `DBInstance` is written to `db_instance.go`. -/
def kindFile (kind : String) : String := snakeCase kind ++ ".go"

/-- The kind is reserved, or its file is one that every run writes. -/
def isReservedKind (kind : String) : Bool :=
  isReserved kind || sharedFiles.contains (kindFile kind)

/-- The file of a kind has the digits of the kind. -/
theorem digitCount_kindFile (kind : String) : digitCount (kindFile kind) = digitCount kind := by
  have hgo : digits ".go".toList = 0 := by
    have : ".go".toList = ['.', 'g', 'o'] := String.toList_ofList (l := ['.', 'g', 'o'])
    rw [this]
    decide
  rw [kindFile, digitCount, String.toList_append, digits_append, hgo, Nat.add_zero]
  exact digitCount_snakeCase kind

/-- Making letters small keeps the digits. -/
theorem digitCount_asciiLower (s : String) : digitCount (asciiLower s) = digitCount s := by
  rw [digitCount, asciiLower, String.toList_ofList, digitCount]
  induction s.toList with
  | nil => rfl
  | cons c rest ih =>
    rw [List.map_cons, digits_cons, ih, digits_cons c]
    congr 1
    by_cases h : isAsciiUpper c = true
    · rw [Snake.digits_toAsciiLower (by
        have := toNat_of_isAsciiUpper h
        simpa [isUpper, show c.toNat < 0x80 by omega] using h)]
      exact (Snake.digits_of_lt (by have := toNat_of_isAsciiUpper h; omega)).symm
    · rw [toAsciiLower_of_not_isAsciiUpper (by simpa using h)]

end ControllerTypes.Name
