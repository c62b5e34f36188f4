import Paho.Library.Decoder

/-!
# Readers of a bounded buffer

A reader moves a pointer through the symbols up to the end of a buffer. It takes a value, or finds
an error, or it reads what is not there, at the end or beyond it. The pointer may be moved past the
end without a read.
-/

namespace Paho

universe u v w

/-- What a reader returns, and how far it has moved the pointer. -/
inductive BoundedReading (Value : Type v) where
  | taken (value : Value) (n : Nat)
  | failed (n : Nat)
  | overrun
  deriving DecidableEq, Repr

namespace BoundedReading

variable {Value : Type v} {Other : Type w}

/-- The pointer was moved before. -/
def advance (moved : Nat) : BoundedReading Value → BoundedReading Value
  | taken value n => taken value (moved + n)
  | failed n => failed (moved + n)
  | overrun => overrun

def map (f : Value → Other) : BoundedReading Value → BoundedReading Other
  | taken value n => taken (f value) n
  | failed n => failed n
  | overrun => overrun

@[simp]
theorem advance_taken (m n : Nat) (value : Value) : (taken value n).advance m =
    taken value (m + n) :=
  rfl

@[simp]
theorem advance_failed (m n : Nat) : (failed n : BoundedReading Value).advance m = failed (m + n) :=
  rfl

@[simp]
theorem advance_overrun (m : Nat) : (overrun : BoundedReading Value).advance m = overrun :=
  rfl

@[simp]
theorem map_taken (f : Value → Other) (value : Value) (n : Nat) :
    (taken value n).map f = taken (f value) n :=
  rfl

@[simp]
theorem map_failed (f : Value → Other) (n : Nat) : (failed n).map f = failed n :=
  rfl

@[simp]
theorem map_overrun (f : Value → Other) : overrun.map f = overrun :=
  rfl

theorem advance_eq_taken {m n : Nat} {value : Value} {reading : BoundedReading Value} :
    reading.advance m = taken value n ↔ ∃ k, reading = taken value k ∧ n = m + k := by
  cases reading with
  | taken other k =>
      simp only [advance_taken, taken.injEq]
      constructor
      · rintro ⟨rfl, rfl⟩
        exact ⟨k, ⟨rfl, rfl⟩, rfl⟩
      · rintro ⟨_, ⟨rfl, rfl⟩, rfl⟩
        exact ⟨rfl, rfl⟩
  | failed k => simp
  | overrun => simp

theorem advance_eq_overrun {m : Nat} {reading : BoundedReading Value} :
    reading.advance m = overrun ↔ reading = overrun := by
  cases reading <;> simp

theorem map_eq_taken {f : Value → Other} {n : Nat} {value : Other}
    {reading : BoundedReading Value} :
    reading.map f = taken value n ↔ ∃ before, reading = taken before n ∧ f before = value := by
  cases reading with
  | taken before k =>
      simp only [map_taken, taken.injEq]
      constructor
      · rintro ⟨rfl, rfl⟩
        exact ⟨before, ⟨rfl, rfl⟩, rfl⟩
      · rintro ⟨_, ⟨rfl, rfl⟩, rfl⟩
        exact ⟨rfl, rfl⟩
  | failed k => simp
  | overrun => simp

theorem map_eq_overrun {f : Value → Other} {reading : BoundedReading Value} :
    reading.map f = overrun ↔ reading = overrun := by
  cases reading <;> simp

end BoundedReading

/-- Read from the pointer to the end of the buffer. -/
abbrev BoundedReader (Symbol : Type u) (Value : Type v) :=
  List Symbol → BoundedReading Value

namespace BoundedReader

variable {Symbol : Type u} {Value : Type v} {Other : Type w}

/-- Read nothing. -/
def ret (value : Value) : BoundedReader Symbol Value :=
  fun _ => .taken value 0

/-- Read a value, and then what it says. -/
def andThen (reader : BoundedReader Symbol Value) (next : Value → BoundedReader Symbol Other) :
    BoundedReader Symbol Other := fun input =>
  match reader input with
  | .taken value n => (next value (input.drop n)).advance n
  | .failed n => .failed n
  | .overrun => .overrun

/-- Read what a decoder takes, if it takes something. -/
def checked (decoder : Decoder Symbol Value) : BoundedReader Symbol Value := fun input =>
  match decoder input with
  | some (value, rest) => .taken value (input.length - rest.length)
  | none => .failed 0

/-- Read a number of values. -/
def repeated (reader : BoundedReader Symbol Value) : Nat → BoundedReader Symbol (List Value)
  | 0 => ret []
  | n + 1 => andThen reader fun value => andThen (repeated reader n) fun values =>
      ret (value :: values)

/-- A value is taken, and these symbols are left. -/
def Leaves (reader : BoundedReader Symbol Value) (input left : List Symbol) : Prop :=
  ∃ value n, reader input = .taken value n ∧ left = input.drop n

/-- At any place in a buffer the reader takes only good values. -/
def Gives (reader : BoundedReader Symbol Value) (buffer : List Symbol)
    (good : Value → Prop) : Prop :=
  ∀ input value n, input <:+ buffer → reader input = .taken value n → good value

/-- So many steps lead from the symbols to those that are left. -/
inductive Steps (step : List Symbol → List Symbol → Prop) : Nat → List Symbol →
    List Symbol → Prop where
  | none {left : List Symbol} : Steps step 0 left left
  | next {count : Nat} {input middle left : List Symbol} (first : step input middle)
      (others : Steps step count middle left) : Steps step (count + 1) input left

/-- The reader takes these symbols as the value, whatever follows them. -/
def Takes (reader : BoundedReader Symbol Value) (item : List Symbol) (value : Value) : Prop :=
  ∀ rest, reader (item ++ rest) = .taken value item.length

variable {reader : BoundedReader Symbol Value} {next : Value → BoundedReader Symbol Other}
  {input : List Symbol} {value : Value} {n : Nat}

theorem andThen_of_taken (taken : reader input = .taken value n) :
    andThen reader next input = (next value (input.drop n)).advance n := by
  simp [andThen, taken]

theorem andThen_of_failed (failed : reader input = .failed n) :
    andThen reader next input = .failed n := by
  simp [andThen, failed]

theorem andThen_of_overrun (overrun : reader input = .overrun) :
    andThen reader next input = .overrun := by
  simp [andThen, overrun]

theorem andThen_eq_overrun : andThen reader next input = .overrun ↔
    reader input = .overrun ∨
      ∃ value n, reader input = .taken value n ∧ next value (input.drop n) = .overrun := by
  cases result : reader input with
  | taken value n =>
      rw [andThen_of_taken result, BoundedReading.advance_eq_overrun]
      simp
  | failed n => simp [andThen_of_failed result]
  | overrun => simp [andThen_of_overrun result]

theorem leaves_andThen {left : List Symbol} : (andThen reader next).Leaves input left ↔
    ∃ value n, reader input = .taken value n ∧ (next value).Leaves (input.drop n) left := by
  cases result : reader input with
  | taken value n =>
      have both : (andThen reader next).Leaves input left ↔
          (next value).Leaves (input.drop n) left := by
        unfold Leaves
        rw [andThen_of_taken result]
        constructor
        · rintro ⟨other, moved, taken, rfl⟩
          rcases BoundedReading.advance_eq_taken.mp taken with ⟨k, second, rfl⟩
          exact ⟨other, k, second, by rw [List.drop_drop]⟩
        · rintro ⟨other, k, second, rfl⟩
          exact ⟨other, n + k, by rw [second]; rfl, by rw [List.drop_drop]⟩
      rw [both]
      simp
  | failed n => simp [Leaves, andThen_of_failed result]
  | overrun => simp [Leaves, andThen_of_overrun result]

/-- The rule for a last part that neither overruns nor moves the pointer. -/
theorem leaves_andThen_ret {left : List Symbol} (f : Value → Other) :
    (andThen reader fun value => ret (f value)).Leaves input left ↔ reader.Leaves input left := by
  rw [leaves_andThen]
  apply exists₂_congr
  intro value n
  simp [Leaves, BoundedReader.ret]

theorem andThen_ret_eq_overrun (f : Value → Other) :
    andThen reader (fun value => ret (f value)) input = .overrun ↔ reader input = .overrun := by
  simp [andThen_eq_overrun, BoundedReader.ret]

theorem checked_ne_overrun (decoder : Decoder Symbol Value) (input : List Symbol) :
    checked decoder input ≠ .overrun := by
  unfold checked
  split <;> simp

theorem checked_eq_taken {decoder : Decoder Symbol Value} (fixed : decoder.Fixed n) {k : Nat} :
    checked decoder input = .taken value k ↔
      decoder input = some (value, input.drop n) ∧ k = n := by
  unfold checked
  cases read : decoder input with
  | none => simp
  | some pair =>
      rcases pair with ⟨other, rest⟩
      have long : ¬input.length < n := by
        rw [← fixed.fails input, read]
        simp
      have isDrop := fixed.rest input other rest read
      subst isDrop
      simp only [BoundedReading.taken.injEq, Option.some.injEq, Prod.mk.injEq, and_true,
        List.length_drop]
      apply and_congr_right
      intro _
      omega

theorem leaves_checked {decoder : Decoder Symbol Value} (fixed : decoder.Fixed n)
    {left : List Symbol} :
    (checked decoder).Leaves input left ↔ n ≤ input.length ∧ left = input.drop n := by
  constructor
  · rintro ⟨value, k, taken, rfl⟩
    rcases (checked_eq_taken fixed).mp taken with ⟨read, rfl⟩
    refine ⟨?_, rfl⟩
    apply Nat.le_of_not_lt
    rw [← fixed.fails input, read]
    simp
  · rintro ⟨long, rfl⟩
    cases read : decoder input with
    | none => exact absurd ((fixed.fails input).mp read) (by omega)
    | some pair =>
        rcases pair with ⟨value, rest⟩
        have isDrop := fixed.rest input value rest read
        subst isDrop
        exact ⟨value, n, (checked_eq_taken fixed).mpr ⟨read, rfl⟩, rfl⟩

section Gives

variable {buffer : List Symbol} {good : Value → Prop} {fine : Other → Prop}

theorem Gives.ret (isGood : good value) :
    (ret value : BoundedReader Symbol Value).Gives buffer good := by
  intro input other n _ taken
  cases taken
  exact isGood

theorem Gives.failed : Gives (fun _ => .failed n : BoundedReader Symbol Value) buffer good := by
  intro input value m _ taken
  cases taken

theorem Gives.andThen (first : reader.Gives buffer good)
    (second : ∀ value, good value → (next value).Gives buffer fine) :
    (andThen reader next).Gives buffer fine := by
  intro input other n suffix taken
  cases result : reader input with
  | taken value m =>
      rw [andThen_of_taken result] at taken
      rcases BoundedReading.advance_eq_taken.mp taken with ⟨k, rest, -⟩
      exact second value (first input value m suffix result)
        _ _ _ ((List.drop_suffix _ _).trans suffix)
        rest
  | failed m =>
      rw [andThen_of_failed result] at taken
      cases taken
  | overrun =>
      rw [andThen_of_overrun result] at taken
      cases taken

theorem Gives.mono (gives : reader.Gives buffer good) {weaker : Value → Prop}
    (implies : ∀ value, good value → weaker value) : reader.Gives buffer weaker :=
  fun input value n suffix taken => implies value (gives input value n suffix taken)

/-- The rule for values of which nothing is asked. -/
theorem Gives.any : reader.Gives buffer fun _ => True :=
  fun _ _ _ _ _ => trivial

theorem Gives.repeated (gives : reader.Gives buffer good) (count : Nat) :
    (repeated reader count).Gives buffer fun values => ∀ value ∈ values, good value := by
  induction count with
  | zero => exact Gives.ret (by simp)
  | succ count ih =>
      refine Gives.andThen gives fun value isGood => ?_
      refine Gives.andThen ih fun values areGood => ?_
      exact Gives.ret (List.forall_mem_cons.mpr ⟨isGood, areGood⟩)

end Gives

section Repeated

variable {step : List Symbol → List Symbol → Prop} {bad : List Symbol → Prop}

/-- What a number of values leaves, from what one leaves. -/
theorem leaves_repeated (leaves : ∀ input left, reader.Leaves input left ↔ step input left)
    (count : Nat) (input left : List Symbol) :
    (repeated reader count).Leaves input left ↔ Steps step count input left := by
  induction count generalizing input with
  | zero =>
      constructor
      · rintro ⟨value, n, taken, rfl⟩
        cases taken
        exact .none
      · intro steps
        cases steps
        exact ⟨[], 0, rfl, rfl⟩
  | succ count ih =>
      rw [repeated, leaves_andThen]
      simp only [leaves_andThen_ret]
      constructor
      · rintro ⟨value, n, taken, others⟩
        exact .next ((leaves _ _).mp ⟨value, n, taken, rfl⟩) ((ih _).mp others)
      · intro steps
        cases steps with
        | next first others =>
            rcases (leaves _ _).mpr first with ⟨value, n, taken, rfl⟩
            exact ⟨value, n, taken, (ih _).mpr others⟩

/-- A number of values overruns where one does behind fewer of them. -/
theorem repeated_eq_overrun (leaves : ∀ input left, reader.Leaves input left ↔ step input left)
    (overruns : ∀ input, reader input = .overrun ↔ bad input) (count : Nat) (input : List Symbol) :
    repeated reader count input = .overrun ↔
      ∃ fewer < count, ∃ left, Steps step fewer input left ∧ bad left := by
  induction count generalizing input with
  | zero => simp [repeated, BoundedReader.ret]
  | succ count ih =>
      rw [repeated, andThen_eq_overrun]
      simp only [andThen_ret_eq_overrun, ih]
      constructor
      · rintro (overrun | ⟨value, n, taken, fewer, less, left, steps, isBad⟩)
        · exact ⟨0, Nat.succ_pos count, input, .none, (overruns input).mp overrun⟩
        · exact ⟨fewer + 1, Nat.succ_lt_succ less, left,
            .next ((leaves _ _).mp ⟨value, n, taken, rfl⟩) steps, isBad⟩
      · rintro ⟨fewer, less, left, steps, isBad⟩
        cases steps with
        | none => exact .inl ((overruns input).mpr isBad)
        | next first others =>
            rcases (leaves _ _).mpr first with ⟨value, n, taken, rfl⟩
            exact .inr ⟨value, n, taken, _, Nat.lt_of_succ_lt_succ less, left, others, isBad⟩

end Repeated

theorem Takes.ret (value : Value) : (ret value : BoundedReader Symbol Value).Takes [] value :=
  fun _ => rfl

theorem Takes.andThen {item more : List Symbol} {other : Other} (first : reader.Takes item value)
    (second : (next value).Takes more other) :
    (andThen reader next).Takes (item ++ more) other := by
  intro rest
  rw [List.append_assoc, andThen_of_taken (first (more ++ rest)), List.drop_left, second rest]
  simp

theorem Takes.andThen_ret {item : List Symbol} {other : Other} (first : reader.Takes item value)
    (second : (next value).Takes [] other) :
    (BoundedReader.andThen reader next).Takes item other := by
  have both := first.andThen second
  rwa [List.append_nil] at both

end BoundedReader

end Paho
