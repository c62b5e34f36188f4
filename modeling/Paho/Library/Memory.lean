import Mathlib.Data.List.Basic

/-!
# Memory of a fixed size

A piece of memory is the list of its bytes. A store outside of it has no result, so that a program
over `store` that has a result writes only where it may.
-/

namespace Paho

namespace Memory

universe u

variable {Byte : Type u}

/-- Store a byte. -/
def store (memory : List Byte) (place : Nat) (byte : Byte) : Option (List Byte) :=
  if place < memory.length then some (memory.set place byte) else none

/-- Store bytes one behind the other. -/
def storeAll (memory : List Byte) (place : Nat) : List Byte → Option (List Byte)
  | [] => some memory
  | byte :: bytes => (store memory place byte).bind fun memory => storeAll memory (place + 1) bytes

/-- The memory with these bytes at a place. -/
def overwrite (memory : List Byte) (place : Nat) (bytes : List Byte) : List Byte :=
  memory.take place ++ bytes ++ memory.drop (place + bytes.length)

variable {memory bytes others : List Byte} {place : Nat} {byte : Byte}

theorem store_of_lt (inside : place < memory.length) :
    store memory place byte = some (memory.set place byte) :=
  if_pos inside

theorem length_overwrite (inside : place + bytes.length ≤ memory.length) :
    (overwrite memory place bytes).length = memory.length := by
  simp only [overwrite, List.length_append, List.length_take, List.length_drop]
  omega

/-- What is at the beginning of memory that was overwritten. -/
theorem take_overwrite (inside : place + bytes.length ≤ memory.length) :
    (overwrite memory place bytes).take (place + bytes.length) = memory.take place ++ bytes := by
  rw [overwrite, List.take_left']
  rw [List.length_append, List.length_take]
  omega

/-- What is behind the bytes. -/
theorem drop_overwrite (inside : place + bytes.length ≤ memory.length) {n : Nat}
    (behind : place + bytes.length ≤ n) :
    (overwrite memory place bytes).drop n = memory.drop n := by
  have front : (memory.take place ++ bytes).length = place + bytes.length := by
    rw [List.length_append, List.length_take]
    omega
  rcases Nat.exists_eq_add_of_le behind with ⟨more, rfl⟩
  rw [overwrite, ← front, List.drop_length_add_append, List.drop_drop, front]

theorem overwrite_nil : overwrite memory place [] = memory := by
  simp [overwrite]

theorem set_eq_overwrite (inside : place < memory.length) :
    memory.set place byte = overwrite memory place [byte] := by
  rw [List.set_eq_take_append_cons_drop, if_pos inside, overwrite]
  simp

/-- One piece behind another one. -/
theorem overwrite_overwrite (others : List Byte) (inside : place + bytes.length ≤ memory.length) :
    overwrite (overwrite memory place bytes) (place + bytes.length) others =
      overwrite memory place (bytes ++ others) := by
  have tail : (overwrite memory place bytes).drop (place + bytes.length + others.length) =
      memory.drop (place + (bytes ++ others).length) := by
    rw [drop_overwrite inside (by omega), List.length_append, Nat.add_assoc]
  rw [overwrite, take_overwrite inside, tail, overwrite, List.append_assoc (memory.take place)]

theorem storeAll_eq (inside : place + bytes.length ≤ memory.length) :
    storeAll memory place bytes = some (overwrite memory place bytes) := by
  induction bytes generalizing memory place with
  | nil => rw [storeAll, overwrite_nil]
  | cons byte bytes ih =>
      rw [List.length_cons] at inside
      have first : place + [byte].length ≤ memory.length := by
        rw [List.length_singleton]
        omega
      have rest : place + 1 + bytes.length ≤ (overwrite memory place [byte]).length := by
        rw [length_overwrite first]
        omega
      rw [storeAll, store_of_lt (by omega), Option.bind_some, set_eq_overwrite (by omega), ih rest]
      exact congrArg some (overwrite_overwrite _ first)

/-- What is in front of a byte that was stored, and the byte. -/
theorem take_set_succ (inside : place < memory.length) :
    (memory.set place byte).take (place + 1) = memory.take place ++ [byte] := by
  rw [set_eq_overwrite inside]
  exact take_overwrite (show place + [byte].length ≤ memory.length from inside)

end Memory

end Paho
