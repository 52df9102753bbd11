import ControllerTypes.Proofs.Name.Exported
import ControllerTypes.Source.TypeExpr

/-!
# `ControllerTypes.Proofs.Source.TypeExpr`: what the Go type of a field tells about it

A Go type is written from the outside in: a sign for each pointer, slice and map, and a name at the
end. No name begins with one of these signs, so the text can be taken apart again
(`TypeExpr.read_text`).

Pointers are all that the flags of a field decide, so the type of the field is what remains when
they are dropped: a slice is a list, a map is a map, and a name is one of those that Go has for
scalars and timestamps, or that of a generated type. These cannot be mistaken for each other,
because generated types are exported. So the text alone tells the type of a field
(`FieldType.ofText_goType`), whether it is required or not.

`goType_unambiguous` puts this together with where the pointers are.
-/

set_option autoImplicit false

namespace ControllerTypes

open Name Text

/-! ### Reading a type -/

namespace TypeExpr

/-- The name at the end of a type. -/
def name : TypeExpr → String
  | named name => name
  | pointer inner | slice inner | map inner => inner.name

/-- The type that a text begins to write: a pointer, a slice or a map if it begins with the sign of
one, and a name otherwise. -/
def read : List Char → TypeExpr
  | '*' :: rest => pointer (read rest)
  | '[' :: ']' :: rest => slice (read rest)
  | 'm' :: 'a' :: 'p' :: '[' :: 's' :: 't' :: 'r' :: 'i' :: 'n' :: 'g' :: ']' :: rest =>
    map (read rest)
  | word => named (String.ofList word)

/-- The name has none of the signs of pointers, slices and maps. -/
def Unsigned (name : String) : Prop := '*' ∉ name.toList ∧ '[' ∉ name.toList

instance (name : String) : Decidable (Unsigned name) :=
  inferInstanceAs (Decidable ('*' ∉ name.toList ∧ '[' ∉ name.toList))

/-- A name without signs is read as a name, since no other rule of `read` begins with one of its
characters. -/
theorem read_of_unsigned {name : String} (h : Unsigned name) : read name.toList = named name := by
  obtain ⟨hpointer, hbracket⟩ := h
  unfold read
  -- The sign of a map ends in a bracket behind letters, so it is the brackets that a name must not
  -- have.
  split
  · next heq => simp [heq] at hpointer
  · next heq => simp [heq] at hbracket
  · next heq => simp [heq] at hbracket
  · rw [String.ofList_toList]

/-- A type can be read off its text. `h` is about the name at its end, which is all that is not a
sign. -/
theorem read_text {e : TypeExpr} (h : Unsigned e.name) : read e.text.toList = e := by
  -- Every sign in front is taken off by the rule of `read` for it.
  induction e with
  | named name => exact read_of_unsigned h
  | pointer inner ih =>
    rw [text, String.toList_append]
    exact congrArg pointer (ih h)
  | slice inner ih =>
    rw [text, String.toList_append]
    exact congrArg slice (ih h)
  | map inner ih =>
    rw [text, String.toList_append]
    exact congrArg map (ih h)

/-- Only a pointer is written with the sign of a pointer in front, as long as no name begins with
that. -/
theorem head?_text {e : TypeExpr} (h : Unsigned e.name) :
    e.text.toList.head? = some '*' ↔ ∃ inner, e = pointer inner := by
  cases e with
  | named name =>
    refine iff_of_false (fun hhead => h.1 (List.mem_of_head? hhead)) ?_
    rintro ⟨inner, hpointer⟩
    cases hpointer
  | pointer inner =>
    rw [text, String.toList_append]
    exact iff_of_true rfl ⟨inner, rfl⟩
  | slice inner | map inner =>
    rw [text, String.toList_append]
    refine iff_of_false (fun hhead => absurd (Option.some.inj hhead) (by decide)) ?_
    rintro ⟨inner, hpointer⟩
    cases hpointer

end TypeExpr

/-- None of the signs is a letter or a digit, so an exported name is `Unsigned`. -/
theorem Name.Exported.unsigned {name : String} (h : Exported name) : TypeExpr.Unsigned name :=
  ⟨fun hmem => absurd (h.alphanumeric _ hmem) (by decide),
    fun hmem => absurd (h.alphanumeric _ hmem) (by decide)⟩

/-! ### Types of fields -/

namespace FieldType

/-- The names of generated types are exported. -/
def Proper (type : FieldType) : Prop := ∀ name, type.referenced? = some name → Exported name

/-- The names that Go has for scalars and for timestamps. -/
def builtin : List (String × FieldType) :=
  [("string", string), ("int64", integer), ("float64", number), ("bool", boolean),
    ("metav1.Time", dateTime)]

/-- The type of the fields with this Go type, whether they are pointers or not. -/
def ofExpr : TypeExpr → FieldType
  | .named name => (builtin.lookup name).getD (reference name)
  | .pointer inner => ofExpr inner
  | .slice inner => list (ofExpr inner)
  | .map inner => map (ofExpr inner)

/-- The type of the fields whose Go type is this text. -/
def ofText (text : String) : FieldType := ofExpr (TypeExpr.read text.toList)

/-- Go's own names are not exported, so the name of a generated type is not among them. This is what
keeps a reference apart from a scalar. -/
theorem lookup_builtin {name : String} (h : Exported name) : builtin.lookup name = none := by
  have hbuiltin : ∀ x ∈ builtin, ¬Exported x.1 := by decide
  rw [List.lookup_eq_none_iff]
  intro x hx
  rw [bne_iff_ne]
  rintro rfl
  exact hbuiltin x hx h

variable {type : FieldType}

/-- What a list or a map holds tells its type. An element that is a scalar is held by value and
every other one by pointer, so the sign is of no use and `ofExpr` passes it over. -/
theorem ofExpr_elementExpr (h : type.Proper) : ofExpr type.elementExpr = type := by
  induction type with
  | string | integer | number | boolean | dateTime => decide
  | list element ih => exact congrArg list (ih h)
  | map element ih => exact congrArg map (ih h)
  | reference name => rw [elementExpr, ofExpr, ofExpr, lookup_builtin (h name rfl), Option.getD_none]

/-- What a field holds tells its type as well, whether it is held by pointer or not. -/
theorem ofExpr_valueExpr (h : type.Proper) : ofExpr type.valueExpr = type := by
  cases type with
  | reference name => rw [valueExpr, ofExpr, lookup_builtin (h name rfl), Option.getD_none]
  | dateTime => decide
  -- All others are written as they are in a list.
  | _ => exact ofExpr_elementExpr h

/-- The name in the type of what a list or a map holds has no signs, as generated types have
exported names. -/
theorem unsigned_elementExpr (h : type.Proper) : TypeExpr.Unsigned type.elementExpr.name := by
  induction type with
  | string | integer | number | boolean | dateTime => decide
  | list element ih | map element ih => exact ih h
  | reference name => exact (h name rfl).unsigned

/-- The name in the type of what a field holds has no signs, for the same reason. -/
theorem unsigned_valueExpr (h : type.Proper) : TypeExpr.Unsigned type.valueExpr.name := by
  cases type with
  | reference name => exact (h name rfl).unsigned
  | dateTime => decide
  | _ => exact unsigned_elementExpr h

end FieldType

/-! ### Fields -/

namespace FieldDefinition

variable {f g : FieldDefinition}

/-- A field is held by pointer if it is a timestamp, or if it may be missing (`required`) or closes
a cycle (`indirect`) and is neither a list nor a map. -/
theorem exists_pointer_iff :
    (∃ inner, f.typeExpr = .pointer inner) ↔
      (∀ element, f.type ≠ .list element ∧ f.type ≠ .map element) ∧
        (f.type = .dateTime ∨ f.required = false ∨ f.indirect = true) := by
  obtain ⟨name, jsonName, type, required, indirect⟩ := f
  have hflags : (!required || indirect) = true ↔ required = false ∨ indirect = true := by simp
  -- A list, a map and a timestamp do not ask for the two flags, all others do.
  cases type with
  | list | map | dateTime => simp [typeExpr, FieldType.elementExpr]
  | string | integer | number | boolean | reference =>
    cases hflag : !required || indirect <;> rw [hflag] at hflags <;>
      simp [typeExpr, hflag, FieldType.valueExpr, FieldType.elementExpr, ← hflags]

/-- The name in the Go type of a field has no signs, in each of the three forms that type can take.
-/
theorem unsigned_typeExpr (h : f.type.Proper) : TypeExpr.Unsigned f.typeExpr.name := by
  rcases f.typeExpr_cases with heq | heq | heq <;> rw [heq]
  · exact FieldType.unsigned_elementExpr h
  · exact FieldType.unsigned_valueExpr h
  · exact FieldType.unsigned_valueExpr h

/-- The Go type of a field tells its type: it is read off the text, and the pointers are passed
over. -/
theorem ofText_goType (h : f.type.Proper) : FieldType.ofText f.goType = f.type := by
  rw [FieldType.ofText, goType, TypeExpr.read_text (unsigned_typeExpr h)]
  rcases f.typeExpr_cases with heq | heq | heq <;> rw [heq]
  · exact FieldType.ofExpr_elementExpr h
  · exact FieldType.ofExpr_valueExpr h
  · exact FieldType.ofExpr_valueExpr h

/-- A Go type begins with a pointer exactly if the field is neither a list nor a map and is a
timestamp, may be missing or closes a cycle. The type of the field can be read off its Go type, so
no field of another type has the same one. -/
theorem goType_unambiguous (h : f.type.Proper) :
    (f.goType.toList.head? = some '*' ↔
      (∀ element, f.type ≠ .list element ∧ f.type ≠ .map element) ∧
        (f.type = .dateTime ∨ f.required = false ∨ f.indirect = true)) ∧
    FieldType.ofText f.goType = f.type ∧
    ∀ g : FieldDefinition, g.type.Proper → g.goType = f.goType → g.type = f.type := by
  refine ⟨?_, ofText_goType h, fun g hg heq => ?_⟩
  · rw [goType, TypeExpr.head?_text (unsigned_typeExpr h), exists_pointer_iff]
  · -- Both types are read off the same text.
    rw [← ofText_goType hg, heq, ofText_goType h]

/-- The times at which each host was restarted. -/
def restarts : FieldDefinition where
  name := "Restarts"
  jsonName := "restarts"
  type := .map (.list .dateTime)
  required := false
  indirect := false

/-- A slot in a schedule, which knows the schedule. -/
def slot : FieldDefinition where
  name := "Slot"
  jsonName := "slot"
  type := .reference "Time"
  required := true
  indirect := true

/-- Timestamps in lists in a map are read back from a Go type that is no pointer itself. A generated
type `Time` is no timestamp, and is held by pointer where it closes a cycle. -/
theorem restarts_unambiguous :
    restarts.goType = "map[string][]*metav1.Time" ∧
    restarts.goType.toList.head? ≠ some '*' ∧
    FieldType.ofText "map[string][]*metav1.Time" = .map (.list .dateTime) ∧
    slot.goType = "*Time" ∧ slot.goType.toList.head? = some '*' ∧
    FieldType.ofText "*Time" = .reference "Time" := by
  have hrestarts : restarts.type.Proper := by
    rintro name ⟨⟩
  have hslot : slot.type.Proper := by
    rintro name ⟨⟩
    decide
  obtain ⟨hstart, htype, _⟩ := goType_unambiguous hrestarts
  obtain ⟨hstart', htype', _⟩ := goType_unambiguous hslot
  refine ⟨rfl, fun hhead => ?_, htype, rfl, hstart'.2 ?_, htype'⟩
  · exact ((hstart.1 hhead).1 (.list .dateTime)).2 rfl
  · exact ⟨by simp [slot], .inr (.inr rfl)⟩

end FieldDefinition

end ControllerTypes
