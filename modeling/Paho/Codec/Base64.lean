import Mathlib.Algebra.Group.Nat.Defs
import Paho.Codec.Native
import Paho.Library.Base64
import Paho.Library.Memory

/-!
# Base64 in buffers

`Base64.c` without OpenSSL. An output buffer is memory of the size that the caller names; a store
outside of it is no result.
-/

namespace Paho

open Memory

namespace Base64

/-- `NV`. -/
def nv : UInt8 := 64

/-- `BASE64_DECODE_TABLE`. -/
def decodeTable : List UInt8 :=
  List.replicate 43 nv ++ [62] ++ List.replicate 3 nv ++ [63] ++
    [52, 53, 54, 55, 56, 57, 58, 59, 60, 61] ++ List.replicate 7 nv ++
    [0, 1, 2, 3, 4, 5, 6, 7, 8, 9, 10, 11, 12, 13, 14, 15, 16, 17, 18, 19, 20, 21, 22,
      23, 24, 25] ++
    List.replicate 6 nv ++
    [26, 27, 28, 29, 30, 31, 32, 33, 34, 35, 36, 37, 38, 39, 40, 41, 42, 43, 44, 45, 46, 47, 48, 49,
      50, 51] ++
    List.replicate 133 nv

/-- `BASE64_ENCODE_TABLE`. -/
def encodeTable : Bytes :=
  "ABCDEFGHIJKLMNOPQRSTUVWXYZabcdefghijklmnopqrstuvwxyz0123456789+/=".toList.map
    fun char => UInt8.ofNat char.toNat

/-- The entry of `BASE64_DECODE_TABLE` for a `char`, which may be negative. -/
def decoded (char : CharType) (byte : UInt8) : Option UInt8 :=
  if 0 ≤ char.value byte then decodeTable[(char.value byte).toNat]? else none

/-- How a round of the loop of `Base64_decode` ends: what is stored, how far `out` is advanced, and
whether `in_len` is set to 0. -/
structure Round where
  out : Bytes
  out_count : Nat
  stopped : Bool

/-- One round of the loop of `Base64_decode`. -/
def decodeRound (out : Bytes) (out_count : Nat) (c0 c1 c2 c3 : UInt8) : Option Round := do
  -- first byte
  let out ← store out out_count (c0 <<< 2 ||| (c1 &&& ~~~0xF) >>> 4)
  let out_count := out_count + 1
  if out_count < out.length then
    -- second byte
    let out ← store out out_count ((c1 &&& 0xF) <<< 4)
    if c2 < nv then
      let out ← store out out_count ((c1 &&& 0xF) <<< 4 ||| (c2 &&& ~~~0x3) >>> 2)
      let out_count := out_count + 1
      if out_count < out.length then
        -- third byte
        let out ← store out out_count ((c2 &&& 0x3) <<< 6)
        if c3 < nv then
          let out ← store out out_count ((c2 &&& 0x3) <<< 6 ||| c3)
          return ⟨out, out_count + 1, false⟩
        else return ⟨out, out_count, true⟩
      else return ⟨out, out_count, false⟩
    else return ⟨out, out_count, true⟩
  else return ⟨out, out_count, false⟩

/-- What `Base64_decode` does behind its loop: the terminating zero, and the number of bytes. -/
def decodeEnd (out : Bytes) (out_count : Nat) : Option (Nat × Bytes) :=
  if out_count ≤ out.length then
    if out_count < out.length then (store out out_count 0).map fun out => (out_count, out)
    else some (out_count, out)
  else some (0, out)

/-- `Base64_decode`, from the place `out_count` of the output on. -/
def decodeFrom (char : CharType) (out : Bytes) (out_count : Nat) : Bytes → Option (Nat × Bytes)
  | b0 :: b1 :: b2 :: b3 :: rest =>
      if out_count < out.length then do
        let c0 ← decoded char b0
        let c1 ← decoded char b1
        let c2 ← decoded char b2
        let c3 ← decoded char b3
        let round ← decodeRound out out_count c0 c1 c2 c3
        if round.stopped then decodeEnd round.out round.out_count
        else decodeFrom char round.out round.out_count rest
      else decodeEnd out out_count
  | _ => decodeEnd out out_count

/-- `Base64_decode`: the number of bytes, and the output buffer. -/
def decode (char : CharType) (out input : Bytes) : Option (Nat × Bytes) :=
  decodeFrom char out 0 input

/-- `c`, the indexes of the characters for the next bytes. -/
def indexes : Bytes → Bytes
  | [] => [0, 0, 64, 64]
  | [a] => [(a &&& ~~~0x3) >>> 2, (a &&& 0x3) <<< 4, 64, 64]
  | [a, b] =>
      [(a &&& ~~~0x3) >>> 2, (a &&& 0x3) <<< 4 ||| (b &&& ~~~0xF) >>> 4, (b &&& 0xF) <<< 2, 64]
  | a :: b :: c :: _ =>
      [(a &&& ~~~0x3) >>> 2, (a &&& 0x3) <<< 4 ||| (b &&& ~~~0xF) >>> 4,
        (b &&& 0xF) <<< 2 ||| (c &&& ~~~0x3F) >>> 6, c &&& 0x3F]

/-- The characters for the next bytes. -/
def chars (input : Bytes) : Bytes :=
  (indexes input).map fun c => encodeTable.getD c.toNat 0

/-- What `Base64_encode` does behind its loop. -/
def encodeEnd (out : Bytes) (place out_count : Nat) : Option (Nat × Bytes) :=
  if out_count ≤ out.length then
    if out_count < out.length then (store out place 0).map fun out => (out_count, out)
    else some (out_count, out)
  else some (0, out)

/-- The loop of `Base64_encode`. The pointer `out` is at `place`; `out_count` is an
`unsigned int`. -/
def encodeFrom (out : Bytes) (place out_count : Nat) (input : Bytes) : Option (Nat × Bytes) :=
  match input with
  | [] => encodeEnd out place out_count
  | next :: others =>
      if out_count < out.length then
        let out_count := (out_count + 4) % 4294967296
        if out_count ≤ out.length then
          (storeAll out place (chars (next :: others))).bind fun out =>
            encodeFrom out (place + 4) out_count ((next :: others).drop 3)
        else encodeFrom out place out_count ((next :: others).drop 3)
      else encodeEnd out place out_count
termination_by input.length
decreasing_by
  all_goals
    rw [List.length_drop, List.length_cons]
    omega

/-- `Base64_encode`: the number of characters, and the output buffer. -/
def encode (out input : Bytes) : Option (Nat × Bytes) :=
  encodeFrom out 0 0 input

/-- `Base64_decodeLength`. -/
def decodeLength (input : Option Bytes) (in_len : UInt32) : Option UInt32 := do
  let pads (back : UInt32) : Option UInt32 :=
    match input with
    | some input =>
        if in_len ≥ back then
          (input[(in_len - back).toNat]?).map fun char => if char = padding then 1 else 0
        else some 0
    | none => some 0
  let second ← pads 2
  let last ← pads 1
  return in_len / 4 * 3 - (second + last)

/-- `Base64_encodeLength`. -/
def encodeLength (in_len : UInt32) : UInt32 :=
  (4 * in_len / 3 + 3) &&& ~~~0x3

section Bits

variable (a : UInt8)

/-- The lowest bits. -/
theorem toNat_low {mask : UInt8} (k : Nat) (isMask : mask.toNat = 2 ^ k - 1) :
    (a &&& mask).toNat = a.toNat % 2 ^ k := by
  rw [UInt8.toNat_and, isMask, Nat.and_two_pow_sub_one_eq_mod]

/-- The lowest bits, moved up. -/
theorem toNat_raised {mask : UInt8} (shift : UInt8) (k : Nat) (isMask : mask.toNat = 2 ^ k - 1)
    (fits : k + shift.toNat ≤ 8) (small : shift.toNat < 8) :
    ((a &&& mask) <<< shift).toNat = a.toNat % 2 ^ k * 2 ^ shift.toNat := by
  have bound : a.toNat % 2 ^ k * 2 ^ shift.toNat < 2 ^ 8 := calc
    a.toNat % 2 ^ k * 2 ^ shift.toNat < 2 ^ k * 2 ^ shift.toNat :=
      Nat.mul_lt_mul_of_pos_right (Nat.mod_lt _ (Nat.two_pow_pos k)) (Nat.two_pow_pos _)
    _ = 2 ^ (k + shift.toNat) := (Nat.pow_add 2 k shift.toNat).symm
    _ ≤ 2 ^ 8 := Nat.pow_le_pow_right (Nat.succ_pos 1) fits
  rw [UInt8.toNat_shiftLeft, toNat_low a k isMask, Nat.mod_eq_of_lt small, Nat.shiftLeft_eq,
    Nat.mod_eq_of_lt bound]

/-- The highest bits, moved down. -/
theorem toNat_lowered {mask : UInt8} (shift : UInt8) (small : shift.toNat < 8)
    (isMask : mask.toNat >>> shift.toNat = 2 ^ (8 - shift.toNat) - 1) :
    ((a &&& mask) >>> shift).toNat = a.toNat / 2 ^ shift.toNat := by
  have bound : a.toNat / 2 ^ shift.toNat < 2 ^ (8 - shift.toNat) := by
    rw [Nat.div_lt_iff_lt_mul (Nat.two_pow_pos _), ← Nat.pow_add, Nat.sub_add_cancel small.le]
    exact a.toNat_lt
  rw [UInt8.toNat_shiftRight, Nat.mod_eq_of_lt small, UInt8.toNat_and,
    Nat.shiftRight_and_distrib, isMask,
    Nat.and_two_pow_sub_one_eq_mod, Nat.shiftRight_eq_div_pow, Nat.mod_eq_of_lt bound]

theorem toNat_first : ((a &&& ~~~0x3) >>> 2).toNat = a.toNat / 4 :=
  toNat_lowered a 2 (by decide) (by decide)

theorem toNat_second : ((a &&& 0x3) <<< 4).toNat = a.toNat % 4 * 16 :=
  toNat_raised a 4 2 rfl (by decide) (by decide)

theorem toNat_second' : ((a &&& ~~~0xF) >>> 4).toNat = a.toNat / 16 :=
  toNat_lowered a 4 (by decide) (by decide)

theorem toNat_third : ((a &&& 0xF) <<< 2).toNat = a.toNat % 16 * 4 :=
  toNat_raised a 2 4 rfl (by decide) (by decide)

theorem toNat_third' : ((a &&& ~~~0x3F) >>> 6).toNat = a.toNat / 64 :=
  toNat_lowered a 6 (by decide) (by decide)

theorem toNat_fourth : (a &&& 0x3F).toNat = a.toNat % 64 :=
  toNat_low a 6 rfl

theorem toNat_high : ((a &&& 0xF) <<< 4).toNat = a.toNat % 16 * 16 :=
  toNat_raised a 4 4 rfl (by decide) (by decide)

theorem toNat_top : ((a &&& 0x3) <<< 6).toNat = a.toNat % 4 * 64 :=
  toNat_raised a 6 2 rfl (by decide) (by decide)

/-- Bits that do not overlap. -/
theorem toNat_or {b : UInt8} (k m : Nat) (above : a.toNat = m * 2 ^ k) (below : b.toNat < 2 ^ k) :
    (a ||| b).toNat = a.toNat + b.toNat := by
  rw [UInt8.toNat_or, above, Nat.mul_comm, Nat.two_pow_add_eq_or_of_lt below]

end Bits

/-- The table of the encoder has the padding behind the 64 digits. -/
theorem encodeTable_eq : alphabet.length = 64 ∧ encodeTable = alphabet ++ [padding] := by
  decide +kernel

theorem encodeTable_digit {c : UInt8} (value : Nat) (same : c.toNat = value % 64) :
    encodeTable.getD c.toNat 0 = digit value := by
  have small : value % 64 < alphabet.length := by
    rw [encodeTable_eq.1]
    exact Nat.mod_lt _ (Nat.succ_pos 63)
  rw [same, digit, encodeTable_eq.2, List.getD_eq_getElem?_getD, List.getElem?_append_left small,
    ← List.getD_eq_getElem?_getD]

/-- The encoding begins with the characters for the next bytes. -/
theorem encoding_cons (next : UInt8) (others : Bytes) :
    encoding (next :: others) = chars (next :: others) ++ encoding ((next :: others).drop 3) := by
  have pad : encodeTable.getD (64 : UInt8).toNat 0 = padding := by
    rw [encodeTable_eq.2, List.getD_eq_getElem?_getD]
    change (alphabet ++ [padding])[64]?.getD 0 = padding
    rw [List.getElem?_append_right encodeTable_eq.1.le, encodeTable_eq.1]
    rfl
  have low (a : UInt8) : a.toNat < 256 := a.toNat_lt
  have second (a b : UInt8) : ((a &&& 0x3) <<< 4 ||| (b &&& ~~~0xF) >>> 4).toNat =
      a.toNat % 4 * 16 + b.toNat / 16 := by
    have := low b
    rw [toNat_or _ 4 (a.toNat % 4) (toNat_second a) (by rw [toNat_second']; omega), toNat_second,
      toNat_second']
  have third (b c : UInt8) : ((b &&& 0xF) <<< 2 ||| (c &&& ~~~0x3F) >>> 6).toNat =
      b.toNat % 16 * 4 + c.toNat / 64 := by
    have := low c
    rw [toNat_or _ 2 (b.toNat % 16) (toNat_third b) (by rw [toNat_third']; omega), toNat_third,
      toNat_third']
  match others with
  | [] =>
      have := low next
      simp only [chars, indexes, List.map_cons, List.map_nil, pad, List.drop_succ_cons,
        List.drop_nil,
        encoding, List.append_nil]
      rw [encodeTable_digit (next.toNat * 16 / 64) (by rw [toNat_first]; omega),
        encodeTable_digit (next.toNat * 16) (by rw [toNat_second]; omega)]
  | [b] =>
      have := low next
      have := low b
      simp only [chars, indexes, List.map_cons, List.map_nil, pad, List.drop_succ_cons,
        List.drop_nil,
        encoding, List.append_nil]
      rw [encodeTable_digit ((next.toNat * 256 + b.toNat) * 4 / 4096)
          (by rw [toNat_first]; omega),
        encodeTable_digit ((next.toNat * 256 + b.toNat) * 4 / 64) (by rw [second]; omega),
        encodeTable_digit ((next.toNat * 256 + b.toNat) * 4) (by rw [toNat_third]; omega)]
  | b :: c :: rest =>
      have := low next
      have := low b
      have := low c
      let bits := next.toNat * 65536 + b.toNat * 256 + c.toNat
      simp only [chars, indexes, List.map_cons, List.map_nil, List.drop_succ_cons, List.drop_zero,
        encoding]
      rw [encodeTable_digit (bits / 262144) (by rw [toNat_first]; omega),
        encodeTable_digit (bits / 4096) (by rw [second]; omega),
        encodeTable_digit (bits / 64) (by rw [third]; omega),
        encodeTable_digit bits (by rw [toNat_fourth]; omega)]

theorem length_chars (input : Bytes) : (chars input).length = 4 := by
  unfold chars
  rw [List.length_map]
  fun_cases indexes input <;> rfl

/-- The terminating zero, where there is room for it behind `count` characters. -/
def terminator (out : Bytes) (count : Nat) : Bytes :=
  if count < out.length then [0] else []

theorem encodeEnd_eq {out : Bytes} {place : Nat} (inside : place ≤ out.length) :
    encodeEnd out place place = some (place, overwrite out place (terminator out place)) := by
  rw [encodeEnd, if_pos inside, terminator]
  split
  next room => rw [store_of_lt room, set_eq_overwrite room, Option.map_some]
  next => rw [overwrite_nil]

theorem terminator_congr {out out' : Bytes} (same : out'.length = out.length) (count : Nat) :
    terminator out' count = terminator out count := by
  rw [terminator, terminator, same]

/-- The rest of the input is encoded when it fits. -/
theorem encodeFrom_fits (out input : Bytes) (place : Nat)
    (fits : place + (encoding input).length ≤ out.length) (size : out.length < 4294967296) :
    encodeFrom out place place input =
      some (place + (encoding input).length, overwrite out place
        (encoding input ++ terminator out (place + (encoding input).length))) := by
  induction left : input.length using Nat.strong_induction_on generalizing input out place with
  | _ n ih =>
      rw [encodeFrom.eq_def]
      cases input with
      | nil => exact encodeEnd_eq fits
      | cons next others =>
          rw [encoding_cons, List.length_append, length_chars] at fits
          have stored : place + (chars (next :: others)).length ≤ out.length := by
            rw [length_chars]
            omega
          have length := length_overwrite stored
          have shorter : ((next :: others).drop 3).length < n := by
            rw [← left, List.length_drop, List.length_cons]
            omega
          have wraps : (place + 4) % 4294967296 = place + 4 := Nat.mod_eq_of_lt (by omega)
          have rest := ih _ shorter (overwrite out place (chars (next :: others)))
            ((next :: others).drop 3)
            (place + 4) (by omega) (by omega) rfl
          have behind := overwrite_overwrite (encoding ((next :: others).drop 3) ++
            terminator out (place + 4 + (encoding ((next :: others).drop 3)).length)) stored
          rw [length_chars] at behind
          rw [terminator_congr length, behind, ← List.append_assoc, ← encoding_cons] at rest
          dsimp only
          rw [if_pos (by omega), wraps, if_pos (by omega), storeAll_eq stored,
            Option.bind_some, rest,
            encoding_cons, List.length_append, length_chars, Nat.add_assoc]

/-- The rest of the input does not fit. A capacity that is a multiple of four is filled up, and
taken for the whole; of another one the last bytes are left alone. -/
theorem encodeFrom_full (out input : Bytes) {place : Nat} (inside : place ≤ out.length)
    (aligned : place % 4 = 0) (full : out.length < place + (encoding input).length)
    (noWrap : place + (encoding input).length < 4294967296 ∨ out.length + 4 ≤ 4294967296) :
    ∃ out', encodeFrom out place place input =
        some (if out.length % 4 = 0 then out.length else 0, out') ∧ out'.length = out.length ∧
      out'.drop (out.length / 4 * 4) = out.drop (out.length / 4 * 4) := by
  induction left : input.length using Nat.strong_induction_on generalizing input out place with
  | _ n ih =>
      rw [encodeFrom.eq_def]
      cases input with
      | nil =>
          simp only [encoding, List.length_nil] at full
          omega
      | cons next others =>
          rw [encoding_cons, List.length_append, length_chars] at full noWrap
          dsimp only
          by_cases room : place < out.length
          · rw [if_pos room, Nat.mod_eq_of_lt (by omega : place + 4 < 4294967296)]
            by_cases group : place + 4 ≤ out.length
            · have stored : place + (chars (next :: others)).length ≤ out.length := by
                rwa [length_chars]
              have length := length_overwrite stored
              have shorter : ((next :: others).drop 3).length < n := by
                rw [← left, List.length_drop, List.length_cons]
                omega
              have behind : (overwrite out place (chars (next :: others))).drop
                (out.length / 4 * 4) =
                  out.drop (out.length / 4 * 4) := by
                apply drop_overwrite stored
                rw [length_chars]
                omega
              rw [if_pos group, storeAll_eq stored, Option.bind_some, ← behind, ← length]
              exact ih _ shorter _ _ (by omega) (by omega) (by omega) (by omega) rfl
            · refine ⟨out, ?_, rfl, rfl⟩
              rw [if_neg group, if_neg (by omega : ¬out.length % 4 = 0), encodeFrom.eq_def]
              split
              · rw [encodeEnd, if_neg group]
              · rw [if_neg (by omega), encodeEnd, if_neg group]
          · have filled : place = out.length := by omega
            refine ⟨out, ?_, rfl, rfl⟩
            rw [if_neg room, encodeEnd, if_pos inside, if_neg room, if_pos (by omega), filled]

theorem decoded_digit (char : CharType) (value : Nat) :
    ∃ c, decoded char (digit value) = some c ∧ c.toNat = value % 64 := by
  have all : alphabet.map (decoded char) = (List.range 64).map fun n => some (UInt8.ofNat n) := by
    cases char <;> decide +kernel
  have small := Nat.mod_lt value (Nat.succ_pos 63)
  have inAlphabet : alphabet[value % 64]? = some (digit value) := by
    have inside : value % 64 < alphabet.length := encodeTable_eq.1.symm ▸ small
    rw [digit, List.getD_eq_getElem?_getD, List.getElem?_eq_getElem inside, Option.getD_some]
  have entry := congrArg (fun entries : List (Option UInt8) => entries[value % 64]?) all
  rw [List.getElem?_map, inAlphabet, List.getElem?_map, List.getElem?_range small] at entry
  refine ⟨UInt8.ofNat (value % 64), Option.some.inj entry, ?_⟩
  rw [UInt8.toNat_ofNat']
  omega

theorem decoded_padding (char : CharType) : decoded char padding = some nv := by
  cases char <;> decide

section Bytes

variable {a b c c0 c1 c2 c3 : UInt8}

theorem first_byte (first : c0.toNat = a.toNat / 4) (second : c1.toNat / 16 = a.toNat % 4) :
    c0 <<< 2 ||| (c1 &&& ~~~0xF) >>> 4 = a := by
  have shifted : (c0 <<< 2).toNat = c0.toNat % 64 * 4 := by
    rw [UInt8.toNat_shiftLeft]
    change c0.toNat <<< 2 % 256 = _
    rw [Nat.shiftLeft_eq]
    omega
  have := a.toNat_lt
  apply UInt8.toNat_inj.mp
  rw [toNat_or _ 2 (c0.toNat % 64) shifted (by rw [toNat_second']; omega), shifted, toNat_second']
  omega

theorem second_byte (second : c1.toNat % 16 = b.toNat / 16) (third : c2.toNat / 4 = b.toNat % 16) :
    (c1 &&& 0xF) <<< 4 ||| (c2 &&& ~~~0x3) >>> 2 = b := by
  have := b.toNat_lt
  apply UInt8.toNat_inj.mp
  rw [toNat_or _ 4 (c1.toNat % 16) (toNat_high c1) (by rw [toNat_first]; omega), toNat_high,
    toNat_first]
  omega

theorem third_byte (third : c2.toNat % 4 = c.toNat / 64) (fourth : c3.toNat = c.toNat % 64) :
    (c2 &&& 0x3) <<< 6 ||| c3 = c := by
  have := c.toNat_lt
  apply UInt8.toNat_inj.mp
  rw [toNat_or _ 6 (c2.toNat % 4) (toNat_top c2) (by omega), toNat_top]
  omega

end Bytes

/-- A round stores as much of its bytes as there is room for. It ends the loop, or fills the buffer,
when there are less than three. -/
structure Stores (out : Bytes) (place : Nat) (bytes : Bytes) (round : Round) : Prop where
  length : round.out.length = out.length
  count : round.out_count = place + (bytes.take (out.length - place)).length
  taken : round.out.take round.out_count = out.take place ++ bytes.take (out.length - place)
  stops : bytes.length < 3 → round.stopped = true ∨ round.out_count = out.length
  goesOn : bytes.length = 3 → round.stopped = false

theorem Stores.intro {out bytes : Bytes} (stored : Bytes) {place : Nat} {round : Round}
    (isTaken : bytes.take (out.length - place) = stored) (length : round.out.length = out.length)
    (count : round.out_count = place + stored.length)
    (taken : round.out.take (place + stored.length) = out.take place ++ stored)
    (stops : bytes.length < 3 → round.stopped = true ∨ round.out_count = out.length)
    (goesOn : bytes.length = 3 → round.stopped = false) : Stores out place bytes round where
  length := length
  count := isTaken ▸ count
  taken := by rw [count, isTaken, taken]
  stops := stops
  goesOn := goesOn

theorem decodeRound_spec {out : Bytes} {place : Nat} (room : place < out.length)
    (a b c : UInt8) {c0 c1 c2 c3 : UInt8} (first : c0 <<< 2 ||| (c1 &&& ~~~0xF) >>> 4 = a)
    (second : c2 < nv → (c1 &&& 0xF) <<< 4 ||| (c2 &&& ~~~0x3) >>> 2 = b)
    (third : c3 < nv → (c2 &&& 0x3) <<< 6 ||| c3 = c) :
    ∃ round, decodeRound out place c0 c1 c2 c3 = some round ∧
      Stores out place (if c2 < nv then if c3 < nv then [a, b, c] else [a, b] else [a]) round := by
  have one : (out.set place a).take (place + 1) = out.take place ++ [a] := take_set_succ room
  by_cases room' : place + 1 < out.length
  · have two (byte : UInt8) : ((out.set place a).set (place + 1) byte).take (place + 2) =
        out.take place ++ [a, byte] := by
      rw [take_set_succ (by rwa [List.length_set]), one, List.append_assoc]
      rfl
    by_cases c2Digit : c2 < nv
    · by_cases room'' : place + 2 < out.length
      · rcases Nat.exists_eq_add_of_le room'' with ⟨more, length⟩
        have left : out.length - place = more + 3 := by omega
        by_cases c3Digit : c3 < nv
        · refine ⟨⟨((out.set place a).set (place + 1) b).set (place + 2) c, place + 3, false⟩, ?_,
            ?_⟩
          · simp [decodeRound, store_of_lt, room, room', room'', c2Digit, c3Digit, first,
              second c2Digit, third c3Digit]
          · rw [if_pos c2Digit, if_pos c3Digit]
            refine .intro [a, b, c] (by rw [left]; simp) (by simp) rfl ?_ (by simp) (by simp)
            rw [List.length_cons, List.length_cons, List.length_singleton,
              take_set_succ (by rwa [List.length_set, List.length_set]), two, List.append_assoc]
            rfl
        · refine ⟨⟨((out.set place a).set (place + 1) b).set (place + 2) ((c2 &&& 0x3) <<< 6),
            place + 2,
            true⟩, ?_, ?_⟩
          · simp [decodeRound, store_of_lt, room, room', room'', c2Digit, c3Digit, first,
              second c2Digit]
          · rw [if_pos c2Digit, if_neg c3Digit]
            refine .intro [a, b] (by rw [left]; simp) (by simp) rfl ?_ (by simp) (by simp)
            rw [List.length_cons, List.length_singleton, List.take_set_of_le (Nat.le_refl _), two]
      · refine ⟨⟨(out.set place a).set (place + 1) b, place + 2, false⟩, ?_, ?_⟩
        · simp [decodeRound, store_of_lt, room, room', room'', c2Digit, first, second c2Digit]
        · have left : out.length - place = 2 := by omega
          rw [if_pos c2Digit]
          refine .intro [a, b] ?_ (by simp) rfl (two b) (fun _ => .inr ?_) (fun _ => rfl)
          · rw [left]
            split <;> rfl
          · show place + 2 = out.length
            omega
    · rcases Nat.exists_eq_add_of_le room' with ⟨more, length⟩
      have left : out.length - place = more + 2 := by omega
      refine ⟨⟨(out.set place a).set (place + 1) ((c1 &&& 0xF) <<< 4), place + 1, true⟩, ?_, ?_⟩
      · simp [decodeRound, store_of_lt, room, room', c2Digit, first]
      · rw [if_neg c2Digit]
        refine .intro [a] (by rw [left]; simp) (by simp) rfl ?_ (by simp) (by simp)
        rw [List.length_singleton, List.take_set_of_le (Nat.le_refl _), one]
  · refine ⟨⟨out.set place a, place + 1, false⟩, ?_, ?_⟩
    · simp [decodeRound, store_of_lt, room, room', first]
    · have left : out.length - place = 1 := by omega
      refine .intro [a] ?_ (by simp) rfl one (fun _ => .inr ?_) (fun _ => rfl)
      · rw [left]
        split_ifs <;> rfl
      · show place + 1 = out.length
        omega

/-- The next four characters of an encoding stand for the next bytes, of which a round stores what
there is room for. -/
theorem exists_group (char : CharType) (next : UInt8) (others : Bytes) :
    ∃ d0 d1 d2 d3 c0 c1 c2 c3,
      encoding (next :: others) = d0 :: d1 :: d2 :: d3 :: encoding ((next :: others).drop 3) ∧
      decoded char d0 = some c0 ∧ decoded char d1 = some c1 ∧ decoded char d2 = some c2 ∧
      decoded char d3 = some c3 ∧
      ∀ (out : Bytes) (place : Nat), place < out.length → ∃ round,
        decodeRound out place c0 c1 c2 c3 = some round ∧
          Stores out place ((next :: others).take 3) round := by
  have isDigit {c : UInt8} (small : c.toNat < 64) : c < nv := UInt8.lt_iff_toNat_lt.mpr small
  match others with
  | [] =>
      have := next.toNat_lt
      rcases decoded_digit char (next.toNat * 16 / 64) with ⟨c0, decoded0, value0⟩
      rcases decoded_digit char (next.toNat * 16) with ⟨c1, decoded1, value1⟩
      refine ⟨_, _, _, _, c0, c1, nv, nv, by rw [encoding]; rfl, decoded0, decoded1,
        decoded_padding char, decoded_padding char, fun out place room => ?_⟩
      have noDigit : ¬nv < nv := by decide
      have first : c0 <<< 2 ||| (c1 &&& ~~~0xF) >>> 4 = next := first_byte (by omega) (by omega)
      rcases decodeRound_spec room next 0 0 first (fun digit => absurd digit noDigit)
        (fun digit => absurd digit noDigit) with ⟨round, result, stores⟩
      rw [if_neg noDigit] at stores
      exact ⟨round, result, stores⟩
  | [b] =>
      have := next.toNat_lt
      have := b.toNat_lt
      rcases decoded_digit char ((next.toNat * 256 + b.toNat) * 4 / 4096) with
        ⟨c0, decoded0, value0⟩
      rcases decoded_digit char ((next.toNat * 256 + b.toNat) * 4 / 64) with ⟨c1, decoded1, value1⟩
      rcases decoded_digit char ((next.toNat * 256 + b.toNat) * 4) with ⟨c2, decoded2, value2⟩
      refine ⟨_, _, _, _, c0, c1, c2, nv, by rw [encoding]; rfl, decoded0, decoded1, decoded2,
        decoded_padding char, fun out place room => ?_⟩
      have noDigit : ¬nv < nv := by decide
      have first : c0 <<< 2 ||| (c1 &&& ~~~0xF) >>> 4 = next := first_byte (by omega) (by omega)
      have second : (c1 &&& 0xF) <<< 4 ||| (c2 &&& ~~~0x3) >>> 2 = b :=
        second_byte (by omega) (by omega)
      rcases decodeRound_spec room next b 0 first (fun _ => second)
        (fun digit => absurd digit noDigit) with ⟨round, result, stores⟩
      rw [if_pos (isDigit (by omega)), if_neg noDigit] at stores
      exact ⟨round, result, stores⟩
  | b :: c :: rest =>
      have := next.toNat_lt
      have := b.toNat_lt
      have := c.toNat_lt
      let bits := next.toNat * 65536 + b.toNat * 256 + c.toNat
      rcases decoded_digit char (bits / 262144) with ⟨c0, decoded0, value0⟩
      rcases decoded_digit char (bits / 4096) with ⟨c1, decoded1, value1⟩
      rcases decoded_digit char (bits / 64) with ⟨c2, decoded2, value2⟩
      rcases decoded_digit char bits with ⟨c3, decoded3, value3⟩
      refine ⟨_, _, _, _, c0, c1, c2, c3, by rw [encoding]; rfl, decoded0, decoded1, decoded2,
        decoded3, fun out place room => ?_⟩
      have first : c0 <<< 2 ||| (c1 &&& ~~~0xF) >>> 4 = next := first_byte (by omega) (by omega)
      have second : (c1 &&& 0xF) <<< 4 ||| (c2 &&& ~~~0x3) >>> 2 = b :=
        second_byte (by omega) (by omega)
      have third : (c2 &&& 0x3) <<< 6 ||| c3 = c := third_byte (by omega) (by omega)
      rcases decodeRound_spec room next b c first (fun _ => second) (fun _ => third) with
        ⟨round, result, stores⟩
      rw [if_pos (isDigit (by omega)), if_pos (isDigit (by omega))] at stores
      exact ⟨round, result, stores⟩

/-- What the output holds when these bytes were written from a place on, as far as there is room. -/
structure Written (out : Bytes) (place : Nat) (bytes : Bytes) (result : Nat × Bytes) : Prop where
  length : result.2.length = out.length
  count : result.1 = place + (bytes.take (out.length - place)).length
  taken : result.2.take result.1 = out.take place ++ bytes.take (out.length - place)

theorem decodeEnd_written {out : Bytes} {place : Nat} (inside : place ≤ out.length) :
    ∃ result, decodeEnd out place = some result ∧ Written out place [] result := by
  rw [decodeEnd, if_pos inside]
  split
  next room =>
    refine ⟨_, by rw [store_of_lt room]; rfl, by simp, by simp, ?_⟩
    rw [List.take_set_of_le (Nat.le_refl place), List.take_nil, List.append_nil]
  next => exact ⟨_, rfl, rfl, by simp, by simp⟩

/-- The bytes of a round, and those behind them. -/
theorem take_split (bytes : Bytes) (n : Nat) :
    bytes.take n = (bytes.take 3).take n ++ (bytes.drop 3).take
      (n - ((bytes.take 3).take n).length) := by
  have left : n - ((bytes.take 3).take n).length = n - (bytes.take 3).length := by
    rw [List.length_take]
    omega
  rw [left, ← List.take_append, List.take_append_drop]

/-- An encoding is decoded as far as there is room. -/
theorem decodeFrom_encoding (char : CharType) (bytes : Bytes) {out : Bytes} {place : Nat}
    (inside : place ≤ out.length) :
    ∃ result, decodeFrom char out place (encoding bytes) = some result ∧
      Written out place bytes result := by
  induction length : bytes.length using Nat.strong_induction_on generalizing bytes out place with
  | _ n ih =>
      cases bytes with
      | nil => exact decodeEnd_written inside
      | cons next others =>
          rcases exists_group char next others with
            ⟨d0, d1, d2, d3, c0, c1, c2, c3, split, decoded0, decoded1, decoded2, decoded3, rounds⟩
          have shorter : ((next :: others).drop 3).length < n := by
            rw [← length, List.length_drop, List.length_cons]
            omega
          rw [split, decodeFrom]
          by_cases room : place < out.length
          · rcases rounds out place room with ⟨round, result, stores⟩
            have before : round.out_count ≤ round.out.length := by
              rw [stores.count, stores.length]
              have := List.length_take_le (out.length - place) ((next :: others).take 3)
              omega
            have left : round.out.length - round.out_count =
                out.length - place -
                  (((next :: others).take 3).take (out.length - place)).length := by
              rw [stores.count, stores.length]
              omega
            have whole := take_split (next :: others) (out.length - place)
            -- What the end of the call, or the rest of the loop, adds to the round.
            have joined {rest : Bytes} {result : Nat × Bytes}
                (isRest : rest.take (round.out.length - round.out_count) =
                  ((next :: others).drop 3).take (round.out.length - round.out_count))
                (written : Written round.out round.out_count rest result) :
                Written out place (next :: others) result := by
              refine ⟨written.length.trans stores.length, ?_, ?_⟩
              · rw [written.count, isRest, left, whole, List.length_append, stores.count,
                  Nat.add_assoc]
              · rw [written.taken, isRest, left, whole, stores.taken, List.append_assoc]
            simp only [if_pos room, decoded0, decoded1, decoded2, decoded3, result,
              Option.bind_eq_bind, Option.bind_some]
            by_cases stopped : round.stopped = true
            · rw [if_pos stopped]
              have short : (next :: others).drop 3 = [] := by
                rw [List.drop_eq_nil_iff]
                by_contra long
                have three : ((next :: others).take 3).length = 3 := by
                  rw [List.length_take]
                  omega
                rw [stores.goesOn three] at stopped
                cases stopped
              rcases decodeEnd_written before with ⟨result, ended, written⟩
              exact ⟨result, ended, joined (by rw [short]) written⟩
            · rw [if_neg stopped]
              rcases ih _ shorter _ before rfl with ⟨result, decodes, written⟩
              exact ⟨result, decodes, joined rfl written⟩
          · rw [if_neg room]
            have none : out.length - place = 0 := by omega
            rcases decodeEnd_written inside with ⟨result, ended, written⟩
            refine ⟨result, ended, written.length, ?_, ?_⟩
            · rw [written.count, none, List.take_zero, List.take_zero]
            · rw [written.taken, none, List.take_zero, List.take_zero]

/-- The last two bits are cleared. -/
theorem toNat_clear (n : UInt32) : (n &&& ~~~0x3).toNat = n.toNat / 4 * 4 := by
  have mask : (~~~(0x3 : UInt32)).toNat = (2 ^ 30 - 1) <<< 2 := by decide
  rw [UInt32.toNat_and, mask]
  apply Nat.eq_of_testBit_eq
  intro i
  rw [Nat.testBit_and, Nat.testBit_shiftLeft, Nat.testBit_two_pow_sub_one,
    show n.toNat / 4 * 4 = (n.toNat >>> 2) <<< 2 by
      rw [Nat.shiftRight_eq_div_pow, Nat.shiftLeft_eq],
    Nat.testBit_shiftLeft, Nat.testBit_shiftRight]
  by_cases low : 2 ≤ i
  · have same : 2 + (i - 2) = i := by omega
    by_cases high : i < 32
    · simp [low, same, show i - 2 < 30 by omega]
    · have above : n.toNat.testBit i = false := by
        apply Nat.testBit_lt_two_pow
        exact n.toNat_lt.trans_le (Nat.pow_le_pow_right (by decide) (by omega))
      simp [same, above]
  · simp [low]

theorem toNat_encodeLength (n : UInt32) :
    (encodeLength n).toNat = (4 * n.toNat % 4294967296 / 3 + 3) / 4 * 4 := by
  have small : 4 * n.toNat % 4294967296 / 3 + 3 < 4294967296 := by omega
  rw [encodeLength, toNat_clear, UInt32.toNat_add, UInt32.toNat_div, UInt32.toNat_mul]
  exact congrArg (· / 4 * 4) (Nat.mod_eq_of_lt small)

/-- The length function agrees with the encoding as long as `4 * in_len` does not overflow. -/
theorem encodeLength_eq {bytes : Bytes} (small : bytes.length < 1073741824) :
    (encodeLength (UInt32.ofNat bytes.length)).toNat = (encoding bytes).length := by
  have length : (UInt32.ofNat bytes.length).toNat = bytes.length :=
    UInt32.toNat_ofNat_of_lt' (Nat.lt_trans small (by decide))
  rw [toNat_encodeLength, length, length_encoding]
  omega

theorem digit_ne_padding (value : Nat) : digit value ≠ padding := by
  intro same
  rcases decoded_digit .signed value with ⟨c, isDigit, small⟩
  rw [same, decoded_padding] at isDigit
  cases isDigit
  change 64 = value % 64 at small
  omega

/-- The padding at the end of an encoding. -/
theorem exists_end {bytes : Bytes} (nonempty : bytes ≠ []) :
    ∃ front p q, encoding bytes = front ++ [p, q] ∧ (p = padding ↔ bytes.length % 3 = 1) ∧
      (q = padding ↔ bytes.length % 3 ≠ 0) := by
  fun_induction encoding bytes with
  | case1 => exact absurd rfl nonempty
  | case2 a bits => exact ⟨[_, _], _, _, rfl, by simp, by simp⟩
  | case3 a b bits => exact ⟨[_, _], _, _, rfl, by simp [digit_ne_padding], by simp⟩
  | case4 a b c rest bits ih =>
      cases rest with
      | nil => exact ⟨[_, _], _, _, rfl, by simp [digit_ne_padding], by simp [digit_ne_padding]⟩
      | cons next others =>
          rcases ih (List.cons_ne_nil next others) with ⟨front, p, q, split, isP, isQ⟩
          have mod : (a :: b :: c :: next :: others).length % 3 = (next :: others).length % 3 := by
            simp only [List.length_cons]
            omega
          rw [mod, split]
          exact ⟨_ ++ front, p, q, (List.append_assoc _ _ _).symm, isP, isQ⟩

theorem decodeLength_eq {bytes : Bytes} (small : (encoding bytes).length < 4294967296) :
    decodeLength (some (encoding bytes)) (UInt32.ofNat (encoding bytes).length) =
      some (UInt32.ofNat bytes.length) := by
  by_cases empty : bytes = []
  · subst empty
    decide
  · rcases exists_end empty with ⟨front, p, q, split, isP, isQ⟩
    have length : (UInt32.ofNat (encoding bytes).length).toNat = (encoding bytes).length :=
      UInt32.toNat_ofNat_of_lt' small
    have size := length_encoding bytes
    have pos := List.length_pos_iff.mpr empty
    have ends : (encoding bytes).length = front.length + 2 := by rw [split]; simp
    have two : UInt32.ofNat (encoding bytes).length ≥ 2 := by
      rw [ge_iff_le, UInt32.le_iff_toNat_le, length]
      exact ends ▸ Nat.le_add_left 2 front.length
    have one : UInt32.ofNat (encoding bytes).length ≥ 1 := by
      rw [ge_iff_le, UInt32.le_iff_toNat_le, length]
      show 1 ≤ _
      omega
    have atP : (encoding bytes)[(UInt32.ofNat (encoding bytes).length - 2).toNat]? = some p := by
      rw [UInt32.toNat_sub_of_le _ _ two, length, ends, split]
      simp
    have atQ : (encoding bytes)[(UInt32.ofNat (encoding bytes).length - 1).toNat]? = some q := by
      rw [UInt32.toNat_sub_of_le _ _ one, length, ends, split]
      simp
    simp only [decodeLength, if_pos two, if_pos one, atP, atQ, Option.map_some,
      Option.bind_eq_bind, Option.bind_some, Option.pure_def, Option.some.injEq, isP, isQ]
    apply UInt32.toNat_inj.mp
    have whole : (UInt32.ofNat (encoding bytes).length / 4 * 3).toNat =
      (bytes.length + 2) / 3 * 3 := by
      rw [UInt32.toNat_mul, UInt32.toNat_div, length, size]
      show 4 * ((bytes.length + 2) / 3) / 4 * 3 % 4294967296 = _
      omega
    have pads : ((if bytes.length % 3 = 1 then 1 else 0) +
        (if bytes.length % 3 ≠ 0 then 1 else 0) : UInt32).toNat =
          (bytes.length + 2) / 3 * 3 - bytes.length := by
      split_ifs <;> simp <;> omega
    have fits : bytes.length < UInt32.size := by
      show bytes.length < 4294967296
      omega
    rw [UInt32.toNat_sub_of_le, whole, pads, UInt32.toNat_ofNat_of_lt' fits]
    · omega
    · rw [UInt32.le_iff_toNat_le, whole, pads]
      omega

/-- Encoding into a buffer and decoding, for these bytes and this output buffer. -/
structure Exact (char : CharType) (bytes out : Bytes) : Prop where
  encodeLength : (encodeLength (UInt32.ofNat bytes.length)).toNat = (encoding bytes).length
  decodeLength : decodeLength (some (encoding bytes)) (UInt32.ofNat (encoding bytes).length) =
    some (UInt32.ofNat bytes.length)
  /-- No store is outside of the buffer. The result is 0 exactly when the encoding does not fit. -/
  encodes : ∃ ret out', encode out bytes = some (ret, out') ∧ out'.length = out.length ∧
    ((encoding bytes).length ≤ out.length →
      ret = (encoding bytes).length ∧ out'.take ret = encoding bytes) ∧
    (ret = 0 ↔ ¬(encoding bytes).length ≤ out.length)
  /-- No store is outside of the buffer, and what there is room for is decoded. -/
  decodes : ∃ ret out', decode char out (encoding bytes) = some (ret, out') ∧
    out'.length = out.length ∧ ret = min out.length bytes.length ∧ out'.take ret =
      bytes.take out.length
  /-- What was encoded into a buffer with enough room is decoded into this one. -/
  roundTrip : ∀ text : Bytes, (encoding bytes).length ≤ text.length → text.length < 4294967296 →
    bytes.length ≤ out.length →
      ∃ size text' out', encode text bytes = some (size, text') ∧
        decode char out (text'.take size) = some (bytes.length, out') ∧
          out'.take bytes.length = bytes

/-- There is something to encode, and the encoding fits or the capacity is 0 or no multiple of
four. -/
def Distinguishable (bytes out : Bytes) : Prop :=
  bytes ≠ [] ∧ ((encoding bytes).length ≤ out.length ∨ out.length = 0 ∨ out.length % 4 ≠ 0)

section Buffers

variable {char : CharType} {bytes out : Bytes}

theorem encode_fits (size : out.length < 4294967296) (fits : (encoding bytes).length ≤ out.length) :
    ∃ out', encode out bytes = some ((encoding bytes).length, out') ∧ out'.length = out.length ∧
      out'.take (encoding bytes).length = encoding bytes := by
  have result := encodeFrom_fits out bytes 0 (by omega) size
  rw [Nat.zero_add] at result
  have inside : 0 + (encoding bytes ++ terminator out (encoding bytes).length).length ≤
    out.length := by
    rw [terminator, List.length_append]
    split
    · simp
      omega
    · simp
      omega
  refine ⟨_, result, length_overwrite inside, ?_⟩
  rw [overwrite, List.take_zero, List.nil_append, List.append_assoc, List.take_left']
  rfl

/-- The result is 0 exactly when the encoding does not fit, unless there is nothing to encode or the
capacity is filled up. -/
theorem encode_zero_iff (size : out.length < 4294967296) (short : bytes.length < 536870912) :
    (∃ ret out', encode out bytes = some (ret, out') ∧ out'.length = out.length ∧
      ((encoding bytes).length ≤ out.length →
        ret = (encoding bytes).length ∧ out'.take ret = encoding bytes) ∧
      (ret = 0 ↔ ¬(encoding bytes).length ≤ out.length)) ↔ Distinguishable bytes out := by
  have length := length_encoding bytes
  have empty : bytes = [] ↔ (encoding bytes).length = 0 := by
    rw [length, ← List.length_eq_zero_iff]
    omega
  by_cases fits : (encoding bytes).length ≤ out.length
  · rcases encode_fits size fits with ⟨out', result, same, taken⟩
    constructor
    · rintro ⟨ret, other, result', -, -, zero⟩
      cases result.symm.trans result'
      exact ⟨fun none => zero.mp (empty.mp none) fits, .inl fits⟩
    · rintro ⟨nonempty, -⟩
      refine ⟨_, out', result, same, fun _ => ⟨rfl, taken⟩, ?_⟩
      exact iff_of_false (fun zero => nonempty (empty.mpr zero)) (not_not.mpr fits)
  · rcases encodeFrom_full out bytes (Nat.zero_le out.length) rfl (by omega) (.inl (by omega)) with
      ⟨out', result, same, -⟩
    constructor
    · rintro ⟨ret, other, result', -, -, zero⟩
      cases result.symm.trans result'
      refine ⟨fun none => fits ((empty.mp none).symm ▸ Nat.zero_le _), .inr ?_⟩
      have isZero := zero.mpr fits
      split at isZero
      · exact .inl isZero
      next other => exact .inr other
    · rintro ⟨-, room⟩
      refine ⟨_, out', result, same, fun room => absurd room fits, iff_of_true ?_ fits⟩
      rcases room.resolve_left fits with none | other
      · rw [none]
        rfl
      · rw [if_neg other]

theorem decode_spec (char : CharType) (bytes out : Bytes) :
    ∃ ret out', decode char out (encoding bytes) = some (ret, out') ∧
    out'.length = out.length ∧ ret = min out.length bytes.length ∧
      out'.take ret = bytes.take out.length := by
  rcases decodeFrom_encoding char bytes (Nat.zero_le out.length) with
    ⟨⟨ret, out'⟩, result, length, count, taken⟩
  refine ⟨ret, out', result, length, ?_, ?_⟩
  · simpa using count
  · simpa using taken

end Buffers

/-- Different bytes have different encodings. -/
theorem encoding_injective {bytes other : Bytes} (same : encoding bytes = encoding other) :
    bytes = other := by
  have decodes (bytes : Bytes) (n : Nat) (enough : bytes.length ≤ n) :
      ∃ result, decode .unsigned (List.replicate n 0) (encoding bytes) =
        some result ∧ result.1 = bytes.length ∧ result.2.take result.1 = bytes := by
    rcases decode_spec .unsigned bytes (List.replicate n 0) with
      ⟨ret, out', result, -, count, taken⟩
    rw [List.length_replicate] at count taken
    refine ⟨_, result, by rw [count, Nat.min_eq_right enough], ?_⟩
    rw [taken, List.take_of_length_le enough]
  rcases decodes bytes (max bytes.length other.length) (Nat.le_max_left _ _) with
    ⟨first, decoded, -, isFirst⟩
  rcases decodes other (max bytes.length other.length) (Nat.le_max_right _ _) with
    ⟨second, decoded', -, isSecond⟩
  rw [same, decoded'] at decoded
  cases decoded
  exact isFirst.symm.trans isSecond

/-- Encoding and decoding are exact just when 0 tells that the encoding does not fit. -/
theorem exact_iff (char : CharType) (bytes out : Bytes) (short : bytes.length < 536870912)
    (size : out.length < 4294967296) : Exact char bytes out ↔ Distinguishable bytes out := by
  have length := length_encoding bytes
  constructor
  · intro exact
    exact (encode_zero_iff size short).mp exact.encodes
  · intro distinguishable
    refine
      { encodeLength := encodeLength_eq (by omega)
        decodeLength := decodeLength_eq (by omega)
        encodes := (encode_zero_iff size short).mpr distinguishable
        decodes := decode_spec char bytes out
        roundTrip := ?_ }
    intro text fits textSize room
    rcases encode_fits textSize fits with ⟨text', encoded, -, isText⟩
    rcases decode_spec char bytes out with
      ⟨ret, out', decoded, -, count, taken⟩
    rw [Nat.min_eq_right room] at count
    rw [count, List.take_of_length_le room] at taken
    exact ⟨_, text', out', encoded, by rw [isText, decoded, count], taken⟩

/-- `paho` into nine bytes. -/
theorem exact_iff_paho :
    Exact .signed [0x70, 0x61, 0x68, 0x6F] (List.replicate 9 0) ↔
      Distinguishable [0x70, 0x61, 0x68, 0x6F] (List.replicate 9 0) :=
  exact_iff .signed _ _ (by decide) (by decide)

/-- `paho` into four bytes: four of its eight characters are reported as the whole. -/
theorem not_exact : ¬∀ (char : CharType) (bytes out : Bytes), bytes.length < 536870912 →
    out.length < 4294967296 → Exact char bytes out := by
  intro always
  have exact := always .signed [0x70, 0x61, 0x68, 0x6F] [0, 0, 0, 0] (by decide) (by decide)
  exact absurd ((encode_zero_iff (by decide) (by decide)).mp exact.encodes)
    (by unfold Distinguishable; decide)

end Base64

end Paho
