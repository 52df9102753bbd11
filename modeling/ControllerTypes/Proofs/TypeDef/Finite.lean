import ControllerTypes.Proofs.TypeDef.Exported
import ControllerTypes.Proofs.TypeDef.Order
import ControllerTypes.Source.TypeExpr

/-!
# `ControllerTypes.Proofs.TypeDef.Finite`: no struct contains itself by value

Go has to know how large a struct is, so it refuses a struct that holds itself, be it through any
number of other structs. A field holds a type by value if its Go type is just the name of that type,
without a pointer, a slice or a map in front (`Holds`).

Two parts of the program have to work together here. The walk marks a field that closes a cycle, and
the spelling of types makes a pointer of a marked field. What is left is a field that is not marked
(`direct_of_goType`), and the type it holds stands in front of its owner. So every step to a type
that is held by value leads towards the front (`idxOf_lt_of_holds`), and no number of such
steps leads back.
-/

set_option autoImplicit false

namespace ControllerTypes

open Name Text

/-! ### Fields that hold a type by value -/

/-- A Go type that is exported is nothing but a name. -/
theorem TypeExpr.eq_named_of_exported {e : TypeExpr} (h : Exported e.text) :
    e = .named e.text := by
  obtain ⟨c, rest, htext, hc, _⟩ := h
  cases e with
  | named name => rfl
  | pointer target | slice element | map element =>
    -- The first character is that of the sign in front, which is no capital.
    rw [text, String.toList_append] at htext
    have hhead := congrArg List.head? htext
    rw [List.head?_append] at hhead
    cases Option.some.inj hhead
    exact absurd hc (by decide)

/-- The words that Go has for scalars are not exported. -/
theorem not_exported_scalar :
    ¬ Exported "string" ∧ ¬ Exported "int64" ∧ ¬ Exported "float64" ∧ ¬ Exported "bool" := by
  decide

/-- A field whose Go type is exported is a reference to the type of that name, and is not marked as
one that closes a cycle. -/
theorem FieldDefinition.direct_of_goType {f : FieldDefinition} (h : Exported f.goType) :
    f.type.referenced? = some f.goType ∧ f.indirect = false := by
  obtain ⟨hstring, hint64, hfloat64, hbool⟩ := not_exported_scalar
  have hnamed : f.typeExpr = .named f.goType := TypeExpr.eq_named_of_exported h
  obtain ⟨name, jsonName, type, required, indirect⟩ := f
  cases hflag : !required || indirect with
  | true =>
    -- A pointer has a sign in front, and so has whatever is never held by pointer.
    cases type <;> simp only [typeExpr, hflag, if_true, FieldType.elementExpr] at hnamed <;>
      cases hnamed
  | false =>
    have hdirect : indirect = false := (Bool.or_eq_false_iff.1 hflag).2
    cases type with
    | list element | map element | dateTime => cases hnamed
    | reference target =>
      simp only [goType, typeExpr, hflag]
      exact ⟨rfl, hdirect⟩
    | string => simp only [goType, typeExpr, hflag] at h; exact absurd h hstring
    | integer => simp only [goType, typeExpr, hflag] at h; exact absurd h hint64
    | number => simp only [goType, typeExpr, hflag] at h; exact absurd h hfloat64
    | boolean => simp only [goType, typeExpr, hflag] at h; exact absurd h hbool

namespace TypeDef

open Relation

/-- A value of the type `u` is part of every value of the type `t`: the Go type of one of its fields
is the name of `u`. -/
def Holds (types : List TypeDef) (t u : TypeDef) : Prop :=
  t ∈ types ∧ u ∈ types ∧ ∃ f ∈ t.fields, f.goType = u.name

section
variable {catalog : Catalog} {settings : Settings} {api : ApiDescription}
  {resources : List Resource} {types : List TypeDef}

/-- A type that is held by value stands in front of its owner. -/
theorem idxOf_lt_of_holds (h : Compiles settings api catalog resources types) {t u : TypeDef}
    (hholds : Holds types t u) : types.idxOf u < types.idxOf t := by
  obtain ⟨hnodup, hordered⟩ := ordered_of_compiles h
  obtain ⟨ht, hu, f, hf, hname⟩ := hholds
  obtain ⟨href, hdirect⟩ :=
    FieldDefinition.direct_of_goType (hname ▸ exported_of_compiles h u hu)
  obtain ⟨before, after, hsplit⟩ := List.append_of_mem ht
  obtain ⟨v, hv, hvname⟩ := (hordered before t after hsplit f hf _ href).1 hdirect
  have hvmem : v ∈ types := by rw [hsplit]; exact List.mem_append_left _ hv
  obtain rfl : v = u := List.inj_on_of_nodup_map hnodup hvmem hu (hvname.trans hname)
  have htnew : t ∉ before := by
    have hdistinct := hnodup.of_map
    rw [hsplit, List.nodup_append] at hdistinct
    exact fun hmem => hdistinct.2.2 t hmem t List.mem_cons_self rfl
  rw [hsplit, List.idxOf_append_of_mem hv, List.idxOf_append_of_notMem htnew,
    List.idxOf_cons_self, Nat.add_zero]
  exact List.idxOf_lt_length_of_mem hv

/-- Each step to a type that is held by value leads towards the front. -/
theorem idxOf_lt_of_transGen (h : Compiles settings api catalog resources types) {t u : TypeDef}
    (hpath : TransGen (Holds types) t u) : types.idxOf u < types.idxOf t := by
  induction hpath with
  | single hholds => exact idxOf_lt_of_holds h hholds
  | tail _ hholds ih => exact (idxOf_lt_of_holds h hholds).trans ih

/-- No type holds itself by value, neither directly nor through other types. -/
theorem not_holds_itself (h : Compiles settings api catalog resources types) (t : TypeDef) :
    ¬ TransGen (Holds types) t t :=
  fun hcycle => absurd (idxOf_lt_of_transGen h hcycle) (Nat.lt_irrefl _)

end

/-! ### Types that need each other

Every person has a home and every home has an owner, so neither could be made without the other if
both were held by value. -/

namespace Household

def person : Document.SchemaObject where
  required := ["home"]
  properties := [("home", { ref := "#/definitions/Home" })]

def address : Document.SchemaObject where
  required := ["city"]
  properties := [("city", { type := some (.single "string") })]

def home : Document.SchemaObject where
  required := ["owner", "address"]
  properties := [("owner", { ref := "#/definitions/Person" }), ("address", address)]

def api : ApiDescription where
  info := ⟨"Household", "1", none, []⟩
  definitions := .ofList [("Person", person), ("Home", home)]
  operations := []

def catalog : Catalog := .ofList
  [("Person", .object [⟨"home", .reference "Home", true⟩]),
   ("Home", .object [⟨"owner", .reference "Person", true⟩,
     ⟨"address", .object [⟨"city", .primitive .string, true⟩], true⟩])]

def personType : TypeDef :=
  ⟨"Person", "Person", .struct [⟨"Home", "home", .reference "Home", true, false⟩]⟩

def homeType : TypeDef :=
  ⟨"Home", "Home", .struct [⟨"Owner", "owner", .reference "Person", true, true⟩,
    ⟨"Address", "address", .reference "HomeAddress", true, false⟩]⟩

def addressType : TypeDef :=
  ⟨"HomeAddress", "Home.address", .struct [⟨"City", "city", .string, true, false⟩]⟩

/-- The types in the order in which they are written. -/
def types : List TypeDef := [addressType, homeType, personType]

/-- Households compile. -/
theorem compiles : Compiles {} api catalog [] types where
  resolved := by cbv
  extracted := by cbv
  written := by cbv

end Household

/-- A person holds its home, and with it an address, by value. The home holds its owner by pointer,
and so the person does not hold itself. -/
theorem person_not_holds_itself :
    Compiles {} Household.api Household.catalog [] Household.types ∧
    TransGen (Holds Household.types) Household.personType Household.addressType ∧
    ¬ TransGen (Holds Household.types) Household.personType Household.personType := by
  have hperson : Household.personType ∈ Household.types := by decide
  have hhome : Household.homeType ∈ Household.types := by decide
  have haddress : Household.addressType ∈ Household.types := by decide
  have hfirst : Holds Household.types Household.personType Household.homeType :=
    ⟨hperson, hhome, _, List.mem_singleton.2 rfl, by decide⟩
  have hsecond : Holds Household.types Household.homeType Household.addressType :=
    ⟨hhome, haddress, _, List.mem_cons_of_mem _ (List.mem_singleton.2 rfl), by decide⟩
  exact ⟨Household.compiles, .tail (.single hfirst) hsecond,
    not_holds_itself Household.compiles Household.personType⟩

end TypeDef

end ControllerTypes
