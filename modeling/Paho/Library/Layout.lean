import Mathlib.Data.List.Basic

/-!
# Layouts of values

A layout says which lists of symbols stand for a value. A delimited layout shows where its value
ends, whatever comes behind it. The rules put the layouts of the parts of a value together.
-/

namespace Paho

universe u v

/-- Which lists of symbols stand for which values. -/
abbrev Layout (Symbol : Type u) (Value : Type v) :=
  List Symbol → Value → Prop

namespace Layout

variable {Symbol : Type u} {Value Other : Type v}

/-- No symbols. -/
def ret (value : Value) : Layout Symbol Value :=
  fun symbols other => symbols = [] ∧ other = value

/-- No symbols, and only under a condition. -/
def check (condition : Prop) (value : Value) : Layout Symbol Value :=
  fun symbols other => condition ∧ symbols = [] ∧ other = value

/-- The symbols of a value, and behind them those of what it says. -/
def andThen (layout : Layout Symbol Value) (next : Value → Layout Symbol Other) :
    Layout Symbol Other :=
  fun symbols other => ∃ front rest value,
    symbols = front ++ rest ∧ layout front value ∧ next value rest other

/-- A part that may be absent. -/
def optional (present : Bool) (layout : Layout Symbol Value) : Layout Symbol (Option Value) :=
  if present then andThen layout fun value => ret (some value) else ret none

/-- The symbols of any number of values. -/
inductive Many (layout : Layout Symbol Value) : Layout Symbol (List Value)
  | nil : Many layout [] []
  | cons {item rest : List Symbol} {value : Value} {values : List Value} (first : layout item value)
      (others : Many layout rest values) : Many layout (item ++ rest) (value :: values)

/-- Where a value ends, and which one it is, is seen from its symbols. -/
structure Delimited (layout : Layout Symbol Value) : Prop where
  unique : ∀ {item item' rest rest' value value'}, layout item value → layout item' value' →
    item ++ rest = item' ++ rest' → item = item' ∧ value = value'

/-- The same symbols do not stand for two values. -/
structure Unambiguous (layout : Layout Symbol Value) : Prop where
  unique : ∀ {symbols value value'}, layout symbols value → layout symbols value' → value = value'

/-- The symbols stand for this value and no other. -/
def ReadsBack (layout : Layout Symbol Value) (symbols : List Symbol) (value : Value) : Prop :=
  ∀ other, layout symbols other ↔ other = value

variable {layout : Layout Symbol Value} {next : Value → Layout Symbol Other}
  {symbols front rest : List Symbol} {value : Value} {other : Other}

theorem ReadsBack.stands (readsBack : ReadsBack layout symbols value) : layout symbols value :=
  (readsBack value).mpr rfl

theorem Unambiguous.readsBack_iff (unambiguous : Unambiguous layout) :
    ReadsBack layout symbols value ↔ layout symbols value := by
  constructor
  · exact ReadsBack.stands
  · intro isValue other
    constructor
    · exact fun isOther => unambiguous.unique isOther isValue
    · rintro rfl
      exact isValue

theorem andThen_intro (first : layout front value) (second : next value rest other) :
    andThen layout next (front ++ rest) other :=
  ⟨front, rest, value, rfl, first, second⟩

/-- The rule for a part that ends a value. -/
theorem andThen_ret (first : layout symbols value) (second : next value [] other) :
    andThen layout next symbols other :=
  ⟨symbols, [], value, (List.append_nil symbols).symm, first, second⟩

theorem optional_absent : optional false layout [] none :=
  ⟨rfl, rfl⟩

theorem optional_present (isValue : layout symbols value) :
    optional true layout symbols (some value) :=
  andThen_ret isValue ⟨rfl, rfl⟩

theorem optional_of_option {Source : Type v} {source : Option Source} {write : Source → List Symbol}
    {read : Source → Value}
    (each : ∀ value, source = some value → layout (write value) (read value)) :
    optional source.isSome layout (source.elim [] write) (source.map read) := by
  cases source with
  | none => exact optional_absent
  | some value => exact optional_present (each value rfl)

/-- What a part that was found stands for. -/
theorem optional_eq_some {present : Bool} (found : optional present layout symbols (some value)) :
    layout symbols value := by
  cases present with
  | false => exact nomatch found.2
  | true =>
      rcases found with ⟨front, rest, value', rfl, isValue, rfl, same⟩
      rw [List.append_nil, Option.some.inj same]
      exact isValue

theorem Delimited.unambiguous (delimited : Delimited layout) : Unambiguous layout := by
  constructor
  intro symbols value value' first second
  exact (delimited.unique first second (rfl : symbols ++ [] = symbols ++ [])).2

theorem Delimited.ret : Delimited (ret value : Layout Symbol Value) := by
  constructor
  rintro item item' rest rest' value value' ⟨rfl, rfl⟩ ⟨rfl, rfl⟩ _
  exact ⟨rfl, rfl⟩

theorem Delimited.check {condition : Prop} :
    Delimited (check condition value : Layout Symbol Value) := by
  constructor
  rintro item item' rest rest' value value' ⟨_, rfl, rfl⟩ ⟨_, rfl, rfl⟩ _
  exact ⟨rfl, rfl⟩

theorem Delimited.andThen (first : Delimited layout) (second : ∀ value, Delimited (next value)) :
    Delimited (andThen layout next) := by
  constructor
  rintro _ _ rest rest' other other' ⟨front, back, value, rfl, isFront, isBack⟩
    ⟨front', back', value', rfl, isFront', isBack'⟩ same
  simp only [List.append_assoc] at same
  rcases first.unique isFront isFront' same with ⟨rfl, rfl⟩
  rcases (second value).unique isBack isBack' (List.append_cancel_left same) with ⟨rfl, rfl⟩
  exact ⟨rfl, rfl⟩

/-- The rule for a last part, behind which nothing needs to be found. -/
theorem Unambiguous.andThen (first : Delimited layout)
    (second : ∀ value, Unambiguous (next value)) :
    Unambiguous (andThen layout next) := by
  constructor
  rintro _ other other' ⟨front, back, value, rfl, isFront, isBack⟩
    ⟨front', back', value', same, isFront', isBack'⟩
  rcases first.unique isFront isFront' same with ⟨rfl, rfl⟩
  exact (second value).unique isBack (List.append_cancel_left same ▸ isBack')

theorem Delimited.optional (delimited : Delimited layout) (present : Bool) :
    Delimited (optional present layout) := by
  cases present with
  | false => exact Delimited.ret
  | true => exact Delimited.andThen delimited fun _ => Delimited.ret

theorem Many.of_nil {values : List Value} (nonempty : ∀ value, ¬layout [] value)
    (many : Many layout [] values) : values = [] := by
  generalize isEmpty : ([] : List Symbol) = symbols at many
  cases many with
  | nil => rfl
  | cons first _ =>
      rcases List.append_eq_nil_iff.mp isEmpty.symm with ⟨rfl, -⟩
      exact absurd first (nonempty _)

/-- The rule for values up to the end, none of which is without symbols. -/
theorem Unambiguous.many (delimited : Delimited layout) (nonempty : ∀ value, ¬layout [] value) :
    Unambiguous (Many layout) := by
  constructor
  intro symbols values values' first second
  induction first generalizing values' with
  | nil => exact (second.of_nil nonempty).symm
  | @cons item rest value values isValue others ih =>
      generalize same : item ++ rest = symbols at second
      cases second with
      | nil =>
          rcases List.append_eq_nil_iff.mp same with ⟨rfl, -⟩
          exact absurd isValue (nonempty _)
      | cons isValue' others' =>
          rcases delimited.unique isValue isValue' same with ⟨rfl, rfl⟩
          rw [ih (List.append_cancel_left same ▸ others')]

theorem Many.of_map {Source : Type v} {write : Source → List Symbol} {read : Source → Value}
    {sources : List Source} (each : ∀ source ∈ sources, layout (write source) (read source)) :
    Many layout (sources.flatMap write) (sources.map read) := by
  induction sources with
  | nil => exact .nil
  | cons source sources ih =>
      rw [List.flatMap_cons, List.map_cons]
      rcases List.forall_mem_cons.mp each with ⟨first, others⟩
      exact .cons first (ih others)

/-- Every value has symbols of its own. -/
theorem Many.forall {values : List Value} (many : Many layout symbols values) :
    ∀ value ∈ values, ∃ item, layout item value := by
  induction many with
  | nil => simp
  | cons first _ ih => exact List.forall_mem_cons.mpr ⟨⟨_, first⟩, ih⟩

end Layout

end Paho
