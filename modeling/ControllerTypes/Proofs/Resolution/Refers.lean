import ControllerTypes.Proofs.Resolution.Resolves
import Mathlib.Logic.Relation

/-!
# `ControllerTypes.Proofs.Resolution.Refers`: which definitions a definition refers to

A schema mentions the definitions that its conversion asks for. That is what it says in the parts
that count for its form; whatever stands beside them is never looked at. `Refers` is the graph this
makes of a description.

The resolver only ever goes along this graph. While a query is made inside of some definitions, each
of them leads to what the query may ask for (`Ahead`), and every rule hands this on to the queries
it makes (`Ahead.enter`, `Ahead.mono`).
-/

set_option autoImplicit false

namespace ControllerTypes.Resolution

open Document

/-- The conversion of the schema asks for the definition. -/
inductive Mentions : SchemaObject → String → Prop where
  | reference {raw : SchemaObject} {ref name : String} (hform : raw.form = .reference ref)
      (hname : definitionName? ref = some name) : Mentions raw name
  | decorated {raw only : SchemaObject} {name : String} (hform : raw.form = .decorated only)
      (honly : Mentions only name) : Mentions raw name
  | member {raw member : SchemaObject} {members : List SchemaObject} {name : String}
      (hform : raw.form = .all members ∨ raw.form = .variants members) (hmember : member ∈ members)
      (hmentions : Mentions member name) : Mentions raw name
  | own {raw : SchemaObject} {members : List SchemaObject} {property : String × SchemaObject}
      {name : String} (hform : raw.form = .all members ∨ raw.form = .variants members)
      (hproperty : property ∈ raw.properties) (hmentions : Mentions property.2 name) :
      Mentions raw name
  | property {raw : SchemaObject} {properties : List (String × SchemaObject)}
      {property : String × SchemaObject} {name : String} (hform : raw.form = .object properties)
      (hproperty : property ∈ properties) (hmentions : Mentions property.2 name) :
      Mentions raw name
  | items {raw items : SchemaObject} {name : String} (hform : raw.form = .array items)
      (hmentions : Mentions items name) : Mentions raw name
  | values {raw values : SchemaObject} {name : String} (hform : raw.form = .map values)
      (hmentions : Mentions values name) : Mentions raw name

/-- What a schema `Mentions` stands in the parts of its `form`. -/
theorem Mentions.of_form {raw : SchemaObject} {name : String} (h : Mentions raw name) :
    match raw.form with
    | .reference ref => definitionName? ref = some name
    | .decorated inner | .array inner | .map inner => Mentions inner name
    | .all raws | .variants raws =>
      (∃ member ∈ raws, Mentions member name) ∨ ∃ x ∈ raw.properties, Mentions x.2 name
    | .object properties => ∃ x ∈ properties, Mentions x.2 name
    | .enumeration _ | .freeMap | .scalar => False := by
  cases h with
  | reference hform hname => rw [hform]; exact hname
  | decorated hform honly => rw [hform]; exact honly
  -- A composition is of one of two forms, and the rules are the same for both.
  | member hform hmember hmentions =>
    rcases hform with h | h <;> rw [h] <;> exact .inl ⟨_, hmember, hmentions⟩
  | own hform hproperty hmentions =>
    rcases hform with h | h <;> rw [h] <;> exact .inr ⟨_, hproperty, hmentions⟩
  | property hform hproperty hmentions => rw [hform]; exact ⟨_, hproperty, hmentions⟩
  | items hform hmentions => rw [hform]; exact hmentions
  | values hform hmentions => rw [hform]; exact hmentions

/-- One definition refers to another. -/
def Refers (defs : Definitions) (d n : String) : Prop :=
  ∃ raw, defs.get? d = some raw ∧ Mentions raw n

/-- The query may ask for the definition. -/
def Query.Asks : Query → String → Prop
  | .name asked _, n => n = asked
  | .schema raw _, n => Mentions raw n
  | .members raws _, n => ∃ raw ∈ raws, Mentions raw n
  | .properties _ asked _, n => ∃ x ∈ asked, Mentions x.2 n

section
variable {raw : SchemaObject} {raws : List SchemaObject} {asked : List (String × SchemaObject)}
  {required : List String} {answer : Schema} {parts : List Part} {fields : List (Field Schema)}
  {n : String}

/-- A composition mentions what the query for its members asks for. -/
theorem Mentions.of_members (hform : raw.form = .all raws ∨ raw.form = .variants raws)
    (h : (Query.members raws parts).Asks n) : Mentions raw n := by
  obtain ⟨member, hmember, hn⟩ := h
  exact .member hform hmember hn

/-- A composition mentions what the query for its own properties asks for. -/
theorem Mentions.of_own (hform : raw.form = .all raws ∨ raw.form = .variants raws)
    (h : (Query.properties required raw.properties fields).Asks n) : Mentions raw n := by
  obtain ⟨property, hproperty, hn⟩ := h
  exact .own hform hproperty hn

/-- An object mentions what the query for its properties asks for. -/
theorem Mentions.of_properties (hform : raw.form = .object asked)
    (h : (Query.properties required asked fields).Asks n) : Mentions raw n := by
  obtain ⟨property, hproperty, hn⟩ := h
  exact .property hform hproperty hn

/-- What the first member asks for is asked for. -/
theorem Query.asks_member (h : (Query.schema raw answer).Asks n) :
    (Query.members (raw :: raws) parts).Asks n :=
  ⟨raw, List.mem_cons_self, h⟩

/-- What the other members ask for is asked for. -/
theorem Query.asks_members {others : List Part} (h : (Query.members raws others).Asks n) :
    (Query.members (raw :: raws) parts).Asks n := by
  obtain ⟨member, hmember, hn⟩ := h
  exact ⟨member, List.mem_cons_of_mem _ hmember, hn⟩

/-- What the first property asks for is asked for. -/
theorem Query.asks_property {name : String} (h : (Query.schema raw answer).Asks n) :
    (Query.properties required ((name, raw) :: asked) fields).Asks n :=
  ⟨(name, raw), List.mem_cons_self, h⟩

/-- What the other properties ask for is asked for. -/
theorem Query.asks_properties {property : String × SchemaObject} {others : List (Field Schema)}
    (h : (Query.properties required asked others).Asks n) :
    (Query.properties required (property :: asked) fields).Asks n := by
  obtain ⟨other, hother, hn⟩ := h
  exact ⟨other, List.mem_cons_of_mem _ hother, hn⟩

end

/-- Each of the definitions the query is made inside of leads to all that it may ask for. -/
def Ahead (defs : Definitions) (active : List String) (q : Query) : Prop :=
  ∀ d ∈ active, ∀ n, q.Asks n → Relation.TransGen (Refers defs) d n

namespace Ahead

variable {defs : Definitions} {active : List String} {q q' : Query}

/-- Outside of all definitions there is nothing to show for `Ahead`. -/
theorem outside (q : Query) : Ahead defs [] q := fun _ h => absurd h List.not_mem_nil

/-- A query that asks for less leaves what is `Ahead` as it is. -/
theorem mono (h : Ahead defs active q) (hsub : ∀ n, q'.Asks n → q.Asks n) :
    Ahead defs active q' :=
  fun d hd n hn => h d hd n (hsub n hn)

/-- What a definition asks for lies ahead of it, and ahead of all that lead to it. -/
theorem enter {name : String} {raw : SchemaObject} {answer : Schema}
    (h : Ahead defs active (.name name answer)) (hraw : defs.get? name = some raw)
    (answer' : Schema) : Ahead defs (name :: active) (.schema raw answer') := by
  intro d hd n hn
  -- One step along `Refers` goes from the definition that is entered to what its schema mentions.
  have hstep : Refers defs name n := ⟨raw, hraw, hn⟩
  rcases List.mem_cons.1 hd with rfl | hd
  · exact .single hstep
  · exact (h d hd name rfl).tail hstep

end Ahead

end ControllerTypes.Resolution
