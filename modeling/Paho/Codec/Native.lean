import Paho.Library.Decoder
import Paho.Packet.Types
import Mathlib.Data.List.TakeWhile

/-!
# Values of C in records

Records hold an `int` in four bytes, the least significant first, and a string with its
terminating zero.
-/

namespace Paho

open Decoder

/-- A string of C: no character is the terminating zero. -/
structure CString where
  bytes : Bytes
  noZero : ∀ byte ∈ bytes, byte ≠ 0
  deriving DecidableEq, Repr

/-- Plain `char` is a signed or an unsigned type, as the compiler has it. -/
inductive CharType where
  | signed
  | unsigned
  deriving DecidableEq, Repr

/-- The value of a `char` that holds this byte. -/
def CharType.value : CharType → UInt8 → Int
  | .signed, byte => if byte.toNat < 128 then byte.toNat else byte.toNat - 256
  | .unsigned, byte => byte.toNat

/-- A property of bytes is checked value by value. -/
theorem forall_byte {p : UInt8 → Prop} (all : ∀ n < 256, p (UInt8.ofNat n))
    (byte : UInt8) : p byte := by
  have this := all byte.toNat byte.toNat_lt
  rwa [UInt8.ofNat_toNat] at this

/-- An array whose size is an `int`. -/
abbrev Counted (α : Type) := { items : List α // items.length < 2147483648 }

namespace Native

/-- The bytes of an `int`. -/
def writeNative (value : Int32) : Bytes :=
  let bits := value.toUInt32.toNat
  [UInt8.ofNat (bits % 256), UInt8.ofNat (bits / 256 % 256), UInt8.ofNat (bits / 65536 % 256),
    UInt8.ofNat (bits / 16777216)]

/-- A string with its terminating zero. -/
def writeString (string : CString) : Bytes :=
  string.bytes ++ [0]

/-- Read an `int`. -/
def readNative : Decoder UInt8 Int32
  | b0 :: b1 :: b2 :: b3 :: rest =>
      some ((UInt32.ofNat (b0.toNat + 256 * b1.toNat + 65536 * b2.toNat +
        16777216 * b3.toNat)).toInt32, rest)
  | _ => none

/-- The string at the start of a buffer. -/
def stringAt (bytes : Bytes) : CString :=
  { bytes := bytes.takeWhile (· ≠ 0)
    noZero := fun byte mem => by simpa using List.mem_takeWhile_imp mem }

variable {rest : Bytes}

theorem reads_readNative (value : Int32) : readNative.Reads (writeNative value) value rest := by
  have bits : value.toUInt32.toNat < 4294967296 := value.toUInt32.toNat_lt
  have byte (n : Nat) (small : n < 256) : (UInt8.ofNat n).toNat = n := by
    rw [UInt8.toNat_ofNat']
    omega
  have whole : value.toUInt32.toNat % 256 + 256 * (value.toUInt32.toNat / 256 % 256) +
      65536 * (value.toUInt32.toNat / 65536 % 256) +
      16777216 * (value.toUInt32.toNat / 16777216) = value.toUInt32.toNat := by
    omega
  simp only [Reads, writeNative, readNative, List.cons_append, List.nil_append]
  rw [byte _ (by omega), byte _ (by omega), byte _ (by omega), byte _ (by omega), whole,
    UInt32.ofNat_toNat, Int32.toInt32_toUInt32]

theorem stringAt_writeString (string : CString) (rest : Bytes) :
    stringAt (writeString string ++ rest) = string := by
  have front : (writeString string ++ rest).takeWhile (· ≠ 0) = string.bytes := by
    rw [writeString, List.append_assoc, List.takeWhile_append_of_pos]
    · simp
    · intro byte mem
      simpa using string.noZero byte mem
  cases string
  simpa [stringAt] using front

theorem writeNative_ne_nil (value : Int32) (rest : Bytes) : writeNative value ++ rest ≠ [] :=
  List.cons_ne_nil _ _

/-- The number of elements of an array, as an `int`. -/
theorem toNat_count {α : Type} (items : Counted α) :
    (Int32.ofNat items.val.length).toInt.toNat = items.val.length := by
  have small := items.property
  rw [Int32.toInt_ofNat_of_lt (by omega)]
  omega

end Native

end Paho
