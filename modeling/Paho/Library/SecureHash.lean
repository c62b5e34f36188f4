import Mathlib.Data.List.Basic

/-!
# The Secure Hash Algorithm SHA-1

The digest of FIPS 180 for messages of whole bytes: padding, the message schedule of 80 words, and
80 steps on five words for each block.
-/

namespace Paho

namespace SecureHash

/-- The five words of a hash value. -/
structure Registers where
  a : UInt32
  b : UInt32
  c : UInt32
  d : UInt32
  e : UInt32
  deriving DecidableEq, Repr

/-- The initial hash value. -/
def initial : Registers :=
  ⟨0x67452301, 0xEFCDAB89, 0x98BADCFE, 0x10325476, 0xC3D2E1F0⟩

/-- `ROTL`. -/
def rotl (n : UInt32) (x : UInt32) : UInt32 :=
  x <<< n ||| x >>> (32 - n)

/-- The functions of step `t`: `Ch`, `Parity`, `Maj`, `Parity`. -/
def f (t : Nat) (x y z : UInt32) : UInt32 :=
  if t < 20 then (x &&& y) ^^^ (~~~x &&& z)
  else if t < 40 then x ^^^ y ^^^ z
  else if t < 60 then (x &&& y) ^^^ (x &&& z) ^^^ (y &&& z)
  else x ^^^ y ^^^ z

/-- The constant of step `t`. -/
def k (t : Nat) : UInt32 :=
  if t < 20 then 0x5A827999
  else if t < 40 then 0x6ED9EBA1
  else if t < 60 then 0x8F1BBCDC
  else 0xCA62C1D6

/-- The message schedule for a block of 16 words. -/
def schedule (block : Nat → UInt32) (t : Nat) : UInt32 :=
  if t < 16 then block t
  else
    rotl 1 (schedule block (t - 3) ^^^ schedule block (t - 8) ^^^ schedule block (t - 14) ^^^
      schedule block (t - 16))
termination_by t

/-- Step `t`. -/
def step (w : Nat → UInt32) (r : Registers) (t : Nat) : Registers where
  a := rotl 5 r.a + f t r.b r.c r.d + r.e + k t + w t
  b := r.a
  c := rotl 30 r.b
  d := r.c
  e := r.d

/-- The first `n` steps. -/
def steps (w : Nat → UInt32) (r : Registers) (n : Nat) : Registers :=
  (List.range n).foldl (step w) r

/-- The sum of two hash values, word by word. -/
def Registers.add (r s : Registers) : Registers :=
  ⟨r.a + s.a, r.b + s.b, r.c + s.c, r.d + s.d, r.e + s.e⟩

/-- The next hash value. -/
def compress (r : Registers) (block : Nat → UInt32) : Registers :=
  r.add (steps (schedule block) r 80)

/-- The word of four bytes, the most significant first. -/
def word (bytes : List UInt8) : UInt32 :=
  UInt32.ofNat (bytes.foldl (fun value byte => 256 * value + byte.toNat) 0)

/-- The bytes of a word. -/
def bytesOf (x : UInt32) : List UInt8 :=
  [UInt8.ofNat (x.toNat / 16777216), UInt8.ofNat (x.toNat / 65536), UInt8.ofNat (x.toNat / 256),
    UInt8.ofNat x.toNat]

/-- The words of a block of 64 bytes. -/
def blockOf (bytes : List UInt8) (i : Nat) : UInt32 :=
  word ((bytes.drop (4 * i)).take 4)

/-- The hash value after these blocks of 64 bytes. -/
def hashBlocks (r : Registers) (bytes : List UInt8) : Registers :=
  if 64 ≤ bytes.length then hashBlocks (compress r (blockOf bytes)) (bytes.drop 64) else r
termination_by bytes.length
decreasing_by
  rw [List.length_drop]
  omega

/-- The length of a message in bits, in eight bytes. -/
def lengthBytes (bits : Nat) : List UInt8 :=
  [UInt8.ofNat (bits / 72057594037927936), UInt8.ofNat (bits / 281474976710656),
    UInt8.ofNat (bits / 1099511627776), UInt8.ofNat (bits / 4294967296),
    UInt8.ofNat (bits / 16777216), UInt8.ofNat (bits / 65536), UInt8.ofNat (bits / 256),
    UInt8.ofNat bits]

/-- The padded message: a bit 1, as few bits 0 as lead to a multiple of 512 bits, and the length. -/
def padded (message : List UInt8) : List UInt8 :=
  message ++ 0x80 :: List.replicate ((119 - message.length % 64) % 64) 0 ++
    lengthBytes (8 * message.length)

/-- The bytes of a hash value. -/
def Registers.bytes (r : Registers) : List UInt8 :=
  bytesOf r.a ++ bytesOf r.b ++ bytesOf r.c ++ bytesOf r.d ++ bytesOf r.e

/-- The SHA-1 digest. -/
def digest (message : List UInt8) : List UInt8 :=
  (hashBlocks initial (padded message)).bytes

theorem length_digest (message : List UInt8) : (digest message).length = 20 :=
  rfl

theorem hashBlocks_of_lt {r : Registers} {bytes : List UInt8} (short : bytes.length < 64) :
    hashBlocks r bytes = r := by
  rw [hashBlocks, if_neg (by omega)]

theorem blockOf_append {bytes rest : List UInt8} (long : 64 ≤ bytes.length) {i : Nat}
    (small : i < 16) :
    blockOf (bytes ++ rest) i = blockOf bytes i := by
  rw [blockOf, blockOf, List.drop_append_of_le_length (by omega),
    List.take_append_of_le_length (by rw [List.length_drop]; omega)]

/-- Only the 16 words of a block count. -/
theorem schedule_congr {block block' : Nat → UInt32}
    (same : ∀ i < 16, block i = block' i) (t : Nat) :
    schedule block t = schedule block' t := by
  induction t using Nat.strongRecOn with
  | _ t ih =>
      rw [schedule.eq_def block, schedule.eq_def block']
      by_cases early : t < 16
      · rw [if_pos early, if_pos early, same t early]
      · rw [if_neg early, if_neg early, ih (t - 3) (by omega), ih (t - 8) (by omega),
          ih (t - 14) (by omega), ih (t - 16) (by omega)]

theorem compress_congr {r : Registers} {block block' : Nat → UInt32}
    (same : ∀ i < 16, block i = block' i) : compress r block = compress r block' := by
  rw [compress, compress, funext (schedule_congr same)]

/-- Blocks behind whole blocks. -/
theorem hashBlocks_append {r : Registers} {bytes rest : List UInt8}
    (whole : bytes.length % 64 = 0) :
    hashBlocks r (bytes ++ rest) = hashBlocks (hashBlocks r bytes) rest := by
  induction length : bytes.length using Nat.strongRecOn generalizing r bytes with
  | _ n ih =>
      subst length
      by_cases long : 64 ≤ bytes.length
      · have first : compress r (blockOf (bytes ++ rest)) = compress r (blockOf bytes) :=
          compress_congr fun i small => blockOf_append long small
        rw [hashBlocks, if_pos (by rw [List.length_append]; omega), first,
          List.drop_append_of_le_length long,
          ih _ (by rw [List.length_drop]; omega) (by rw [List.length_drop]; omega) rfl,
          hashBlocks.eq_def r bytes, if_pos long]
      · have none : bytes = [] := by
          rw [← List.length_eq_zero_iff]
          omega
        subst none
        rw [List.nil_append, hashBlocks_of_lt (show ([] : List UInt8).length < 64 by decide)]

/-- A single block. -/
theorem hashBlocks_block {r : Registers} {bytes : List UInt8} (block : bytes.length = 64) :
    hashBlocks r bytes = compress r (blockOf bytes) := by
  rw [hashBlocks, if_pos (by omega), hashBlocks_of_lt]
  rw [List.length_drop]
  omega

theorem word_bytesOf (x : UInt32) : word (bytesOf x) = x := by
  have := x.toNat_lt
  apply UInt32.toNat_inj.mp
  simp only [word, bytesOf, List.foldl_cons, List.foldl_nil, UInt8.toNat_ofNat',
    UInt32.toNat_ofNat']
  omega

theorem bytesOf_word {b0 b1 b2 b3 : UInt8} : bytesOf (word [b0, b1, b2, b3]) =
    [b0, b1, b2, b3] := by
  have := b0.toNat_lt
  have := b1.toNat_lt
  have := b2.toNat_lt
  have := b3.toNat_lt
  simp only [word, bytesOf, List.foldl_cons, List.foldl_nil, UInt32.toNat_ofNat', List.cons.injEq,
    and_true, ← UInt8.toNat_inj, UInt8.toNat_ofNat']
  omega

end SecureHash

end Paho
