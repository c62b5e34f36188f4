import Mathlib.Data.List.Basic

/-!
# Reading what was written

A decoder takes a value off the front of a list of symbols, or fails. `Reads` says that it takes
exactly what was written for a value and leaves what follows; the rules put the readings of the
parts of a value together.
-/

namespace Paho

universe u v

/-- Take a value off the front of a list of symbols. -/
abbrev Decoder (Symbol : Type u) (Value : Type v) :=
  List Symbol → Option (Value × List Symbol)

namespace Decoder

variable {Symbol : Type u} {Value Other : Type v}

/-- Read nothing. -/
def ret (value : Value) : Decoder Symbol Value :=
  fun symbols => some (value, symbols)

/-- Read a value, and then what it says. -/
def andThen (decoder : Decoder Symbol Value) (next : Value → Decoder Symbol Other) :
    Decoder Symbol Other :=
  fun symbols => (decoder symbols).bind fun (value, rest) => next value rest

/-- Read a number of symbols. -/
def symbols (n : Nat) : Decoder Symbol (List Symbol) :=
  fun symbols => if n ≤ symbols.length then some (symbols.take n, symbols.drop n) else none

/-- Read a number of values. -/
def repeated (decoder : Decoder Symbol Value) : Nat → Decoder Symbol (List Value)
  | 0 => ret []
  | n + 1 => andThen decoder fun value => andThen (repeated decoder n) fun values =>
      ret (value :: values)

/-- The decoder takes `written` off as `value` when `rest` follows. -/
def Reads (decoder : Decoder Symbol Value) (written : List Symbol) (value : Value)
    (rest : List Symbol) : Prop :=
  decoder (written ++ rest) = some (value, rest)

variable {decoder : Decoder Symbol Value} {next : Value → Decoder Symbol Other}
  {written more rest : List Symbol} {value : Value} {other : Other}

theorem andThen_of_none {input : List Symbol} (fails : decoder input = none) :
    andThen decoder next input = none := by
  simp [Decoder.andThen, fails]

theorem andThen_of_some {input : List Symbol} (first : decoder input = some (value, rest)) :
    andThen decoder next input = next value rest := by
  simp [Decoder.andThen, first]

/-- What a decoder in two parts has read. -/
theorem andThen_eq_some {input : List Symbol} :
    andThen decoder next input = some (other, rest) ↔
      ∃ value middle, decoder input = some (value, middle) ∧
        next value middle = some (other, rest) := by
  simp [Decoder.andThen, Option.bind_eq_some_iff]

/-- The decoder takes so many symbols off, when they are there, whatever they are. -/
structure Fixed (decoder : Decoder Symbol Value) (n : Nat) : Prop where
  fails : ∀ input, decoder input = none ↔ input.length < n
  rest : ∀ input value rest, decoder input = some (value, rest) → rest = input.drop n

theorem Fixed.symbols (n : Nat) : (symbols n : Decoder Symbol (List Symbol)).Fixed n := by
  constructor
  · intro input
    simp [Decoder.symbols]
  · intro input value rest read
    simp only [Decoder.symbols, Option.ite_none_right_eq_some, Option.some.injEq, Prod.mk.injEq]
      at read
    exact read.2.2.symm

/-- The rule for a first part that takes a number of symbols. -/
theorem Fixed.andThen_eq_none_iff {n : Nat} (fixed : decoder.Fixed n)
    {input : List Symbol} {P : Prop} (each : ∀ value, next value (input.drop n) = none ↔ P) :
    Decoder.andThen decoder next input = none ↔ input.length < n ∨ P := by
  rw [← fixed.fails input]
  cases read : decoder input with
  | none => simp [andThen_of_none read]
  | some pair =>
      rcases pair with ⟨value, rest⟩
      rw [andThen_of_some read, fixed.rest input value rest read, each value]
      simp

theorem Fixed.andThen_eq_some {n : Nat} (fixed : decoder.Fixed n) {input : List Symbol}
    (read : Decoder.andThen decoder next input = some (other, rest)) :
    ∃ value, next value (input.drop n) = some (other, rest) := by
  rcases Decoder.andThen_eq_some.mp read with ⟨value, middle, first, second⟩
  rw [fixed.rest input value middle first] at second
  exact ⟨value, second⟩

theorem Reads.ret : (ret value : Decoder Symbol Value).Reads [] value rest :=
  rfl

theorem Reads.andThen (first : decoder.Reads written value (more ++ rest))
    (second : (next value).Reads more other rest) :
    (andThen decoder next).Reads (written ++ more) other rest := by
  unfold Reads at first second ⊢
  rw [List.append_assoc, Decoder.andThen, first]
  exact second

/-- The rule for a part that ends what is read. -/
theorem Reads.andThen_ret (first : decoder.Reads written value rest)
    (second : (next value).Reads [] other rest) :
    (Decoder.andThen decoder next).Reads written other rest := by
  have both := @Reads.andThen _ _ _ decoder next written [] rest value other first second
  rwa [List.append_nil] at both

theorem Reads.symbols {n : Nat} (length : written.length = n) :
    (symbols n).Reads written written rest := by
  subst length
  simp [Reads, Decoder.symbols]

/-- Values are read one after the other, where each is read in front of what `follows` allows. -/
theorem Reads.repeated {write : Value → List Symbol} {follows : List Symbol → Prop}
    {values : List Value}
    (each : ∀ value ∈ values, ∀ rest, follows rest → decoder.Reads (write value) value rest)
    (keeps : ∀ value ∈ values, ∀ rest, follows rest → follows (write value ++ rest))
    (ends : follows rest) :
    (repeated decoder values.length).Reads (values.flatMap write) values rest := by
  have keepsAll : ∀ others : List Value, others <:+ values →
      follows (others.flatMap write ++ rest) ∧
        (Decoder.repeated decoder others.length).Reads (others.flatMap write) others rest := by
    intro others
    induction others with
    | nil => exact fun _ => ⟨ends, rfl⟩
    | cons value others ih =>
        intro suffix
        have mem : value ∈ values := suffix.mem List.mem_cons_self
        rcases ih ((List.suffix_cons value others).trans suffix) with ⟨front, reads⟩
        rw [List.flatMap_cons]
        refine ⟨?_, ?_⟩
        · rw [List.append_assoc]
          exact keeps value mem _ front
        · apply Reads.andThen (each value mem _ front)
          exact Reads.andThen_ret reads Reads.ret
  exact (keepsAll values (List.suffix_refl values)).2

end Decoder

end Paho
