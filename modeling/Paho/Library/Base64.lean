import Mathlib.Data.List.Basic

/-!
# The Base64 encoding

Three bytes are 24 bits, which four digits of 6 bits stand for. At the end one byte is filled up to
12 bits and two bytes to 18 bits, and padding stands for the digits that are missing.
-/

namespace Paho

namespace Base64

/-- The digits, from 0 to 63. -/
def alphabet : List UInt8 :=
  "ABCDEFGHIJKLMNOPQRSTUVWXYZabcdefghijklmnopqrstuvwxyz0123456789+/".toList.map
    fun char => UInt8.ofNat char.toNat

/-- The digit for six bits. -/
def digit (value : Nat) : UInt8 :=
  alphabet.getD (value % 64) 0

/-- The padding. -/
def padding : UInt8 :=
  UInt8.ofNat '='.toNat

/-- The Base64 encoding. -/
def encoding : List UInt8 → List UInt8
  | [] => []
  | [a] =>
      let bits := a.toNat * 16
      [digit (bits / 64), digit bits, padding, padding]
  | [a, b] =>
      let bits := (a.toNat * 256 + b.toNat) * 4
      [digit (bits / 4096), digit (bits / 64), digit bits, padding]
  | a :: b :: c :: rest =>
      let bits := a.toNat * 65536 + b.toNat * 256 + c.toNat
      [digit (bits / 262144), digit (bits / 4096), digit (bits / 64), digit bits] ++ encoding rest

theorem length_encoding (bytes : List UInt8) : (encoding bytes).length =
    4 * ((bytes.length + 2) / 3) := by
  fun_induction encoding bytes with
  | case1 => rfl
  | case2 a bits => simp
  | case3 a b bits => simp
  | case4 a b c rest bits ih =>
      rw [List.length_append, ih]
      simp only [List.length_cons, List.length_nil]
      omega

theorem digit_mem (value : Nat) : digit value ∈ alphabet := by
  have inside : value % 64 < alphabet.length := Nat.mod_lt value (by decide)
  rw [digit, List.getD_eq_getElem?_getD, List.getElem?_eq_getElem inside, Option.getD_some]
  exact List.getElem_mem inside

/-- An encoding consists of digits and padding. -/
theorem mem_encoding {c : UInt8} {bytes : List UInt8} (mem : c ∈ encoding bytes) :
    c ∈ alphabet ∨ c = padding := by
  fun_induction encoding bytes with
  | case1 => cases mem
  | case2 a bits =>
      simp only [List.mem_cons, List.not_mem_nil, or_false] at mem
      rcases mem with rfl | rfl | rfl | rfl
      · exact .inl (digit_mem _)
      · exact .inl (digit_mem _)
      · exact .inr rfl
      · exact .inr rfl
  | case3 a b bits =>
      simp only [List.mem_cons, List.not_mem_nil, or_false] at mem
      rcases mem with rfl | rfl | rfl | rfl
      · exact .inl (digit_mem _)
      · exact .inl (digit_mem _)
      · exact .inl (digit_mem _)
      · exact .inr rfl
  | case4 a b c rest bits ih =>
      rw [List.mem_append] at mem
      rcases mem with mem | mem
      · simp only [List.mem_cons, List.not_mem_nil, or_false] at mem
        rcases mem with rfl | rfl | rfl | rfl
        · exact .inl (digit_mem _)
        · exact .inl (digit_mem _)
        · exact .inl (digit_mem _)
        · exact .inl (digit_mem _)
      · exact ih mem

end Base64

end Paho
