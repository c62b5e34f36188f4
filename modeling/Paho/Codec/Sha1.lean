import Mathlib.Algebra.Group.Nat.Defs
import Paho.Library.Memory
import Paho.Library.SecureHash
import Paho.Packet.Types

/-!
# SHA-1 in pieces

`SHA1.c` without OpenSSL and without Windows. The words of the context share their bytes with its
buffer, so that the byte order of the host is a parameter.
-/

namespace Paho

open Memory SecureHash

namespace SHA1

/-- The byte order of the host. -/
inductive ByteOrder where
  | little
  | big
  deriving DecidableEq, Repr

/-- The bytes of a `uint32_t` in memory. -/
def ByteOrder.store : ByteOrder → UInt32 → Bytes
  | .little, x => (bytesOf x).reverse
  | .big, x => bytesOf x

/-- The `uint32_t` that is in these four bytes of memory. -/
def ByteOrder.load : ByteOrder → Bytes → UInt32
  | .little, bytes => word bytes.reverse
  | .big, bytes => word bytes

/-- `be32toh`. -/
def be32toh (order : ByteOrder) (x : UInt32) : UInt32 :=
  word (order.store x)

/-- `htobe32`. -/
def htobe32 (order : ByteOrder) (x : UInt32) : UInt32 :=
  order.load (bytesOf x)

/-- The union of `w` and `buffer`, by its bytes. -/
abbrev Block := { bytes : Bytes // bytes.length = 64 }

/-- `w`. -/
abbrev Words := Vector UInt32 16

/-- Read `w`. -/
def Block.words (order : ByteOrder) (buffer : Block) : Words :=
  Vector.ofFn fun i => order.load ((buffer.val.drop (4 * i)).take 4)

theorem length_bytesOf (x : UInt32) : (bytesOf x).length = 4 :=
  rfl

@[simp]
theorem length_store (order : ByteOrder) (x : UInt32) : (order.store x).length = 4 := by
  cases order <;> rfl

/-- Write all of `w`. -/
def Block.ofWords (order : ByteOrder) (w : Words) : Block where
  val := w.toList.flatMap order.store
  property := by
    rw [List.length_flatMap]
    simp

/-- Write a piece of `buffer`. -/
def Block.write (buffer : Block) (place : Nat) (bytes : Bytes)
    (inside : place + bytes.length ≤ 64) : Block where
  val := overwrite buffer.val place bytes
  property := by
    rw [length_overwrite (by rw [buffer.property]; exact inside), buffer.property]

/-- `SHA_CTX`, with the five words of `h`. -/
structure ShaCtx where
  h : Registers
  buffer : Block
  size : Fin 64
  total : UInt32
  deriving DecidableEq

/-- `pad`. -/
def pad : Bytes :=
  0x80 :: List.replicate 63 0

/-- `SHA1_Init`, which leaves the buffer as it is. It returns 1, like `SHA1_Update`. -/
def init (buffer : Block) : ShaCtx where
  h := ⟨0x67452301, 0xEFCDAB89, 0x98BADCFE, 0x10325476, 0xC3D2E1F0⟩
  buffer := buffer
  size := 0
  total := 0

/-- `ROTATE_LEFT32`. -/
def rotateLeft32 (a n : UInt32) : UInt32 :=
  a <<< n ||| a >>> (32 - n)

/-- `blks` and `w` in the loop of `SHA1_ProcessBlock`. -/
structure Round where
  blks : Registers
  w : Words

/-- The place `i & 0x0F`. -/
def slot (i : Nat) : Fin 16 :=
  ⟨i &&& 0x0F, Nat.lt_succ_of_le Nat.and_le_right⟩

/-- The loop body of `SHA1_ProcessBlock`. -/
def round (s : Round) (i : Nat) : Round :=
  let w :=
    if i ≥ 16 then
      s.w.set (slot i)
        (rotateLeft32 (s.w[slot (i + 13)] ^^^ s.w[slot (i + 8)] ^^^ s.w[slot (i + 2)] ^^^
          s.w[slot i]) 1)
    else s.w
  let ⟨b0, b1, b2, b3, b4⟩ := s.blks
  let tmp : Int32 :=
    (if i < 20 then
      rotateLeft32 b0 5 + (b1 &&& b2 ||| ~~~b1 &&& b3) + b4 + w[slot i] + 0x5A827999
    else if i < 40 then rotateLeft32 b0 5 + (b1 ^^^ b2 ^^^ b3) + b4 + w[slot i] + 0x6ED9EBA1
    else if i < 60 then
      rotateLeft32 b0 5 + (b1 &&& b2 ||| b1 &&& b3 ||| b2 &&& b3) + b4 + w[slot i] + 0x8F1BBCDC
    else rotateLeft32 b0 5 + (b1 ^^^ b2 ^^^ b3) + b4 + w[slot i] + 0xCA62C1D6).toInt32
  ⟨⟨tmp.toUInt32, b0, rotateLeft32 b1 30, b2, b3⟩, w⟩

/-- `SHA1_ProcessBlock`. -/
def processBlock (order : ByteOrder) (ctx : ShaCtx) : ShaCtx :=
  let w := (ctx.buffer.words order).map (be32toh order)
  let last := (List.range 80).foldl round ⟨ctx.h, w⟩
  { ctx with h := ctx.h.add last.blks, buffer := Block.ofWords order last.w }

/-- `SHA1_Update`. -/
def update (order : ByteOrder) (ctx : ShaCtx) (data : Bytes) : ShaCtx :=
  if some_data : data.length > 0 then
    let n := min (64 - ctx.size.val) data.length
    let ctx' :=
      { ctx with
        buffer := ctx.buffer.write ctx.size (data.take n) (by rw [List.length_take]; omega)
        total := ctx.total + UInt32.ofNat n }
    if full : ctx.size.val + n = 64 then
      update order { processBlock order ctx' with size := 0 } (data.drop n)
    else update order { ctx' with size := ⟨ctx.size.val + n, by omega⟩ } (data.drop n)
  else ctx
termination_by data.length
decreasing_by
  all_goals
    rw [List.length_drop]
    omega

/-- `SHA1_Final`, which returns 1: what is left in the context, and `md`. -/
def final (order : ByteOrder) (ctx : ShaCtx) : ShaCtx × Bytes :=
  -- the length is counted in an `unsigned int`, also in bits
  let total : UInt64 := (ctx.total * 8).toUInt64
  let pad_amount := if ctx.size < 56 then 56 - ctx.size.val else 64 + 56 - ctx.size.val
  let ctx := update order ctx (pad.take pad_amount)
  let buffer := ctx.buffer.write (4 * 14)
    (order.store (htobe32 order (total >>> 32).toUInt32)) (by simp)
  let buffer := buffer.write (4 * 15) (order.store (htobe32 order total.toUInt32)) (by simp)
  let ctx := processBlock order { ctx with buffer := buffer }
  let h := ctx.h
  let h : Registers :=
    ⟨htobe32 order h.a, htobe32 order h.b, htobe32 order h.c, htobe32 order h.d, htobe32 order h.e⟩
  ({ ctx with h := h },
    order.store h.a ++ order.store h.b ++ order.store h.c ++ order.store h.d ++ order.store h.e)

/-- Four bytes in memory as a big-endian number. -/
theorem be32toh_load (order : ByteOrder) {bytes : Bytes} (four : bytes.length = 4) :
    be32toh order (order.load bytes) = word bytes := by
  rcases List.length_eq_four.mp four with ⟨b0, b1, b2, b3, rfl⟩
  cases order with
  | little =>
      have back : bytesOf (word [b3, b2, b1, b0]) = [b3, b2, b1, b0] := bytesOf_word
      simp [be32toh, ByteOrder.load, ByteOrder.store, back]
  | big => simp [be32toh, ByteOrder.load, ByteOrder.store, bytesOf_word]

theorem store_htobe32 (order : ByteOrder)
    (x : UInt32) : order.store (htobe32 order x) = bytesOf x := by
  cases order with
  | little =>
      have reversed : (bytesOf x).reverse = [UInt8.ofNat x.toNat, UInt8.ofNat (x.toNat / 256),
          UInt8.ofNat (x.toNat / 65536), UInt8.ofNat (x.toNat / 16777216)] := rfl
      rw [htobe32, ByteOrder.load, ByteOrder.store, reversed, bytesOf_word, ← reversed,
        List.reverse_reverse]
  | big => rw [htobe32, ByteOrder.load, ByteOrder.store, word_bytesOf]

/-- What the first loop of `SHA1_ProcessBlock` puts into `w`. -/
theorem be32toh_words (order : ByteOrder) (buffer : Block) (i : Fin 16) :
    ((buffer.words order).map (be32toh order))[i] = blockOf buffer.val i := by
  have := buffer.property
  have four : ((buffer.val.drop (4 * i)).take 4).length = 4 := by
    rw [List.length_take, List.length_drop]
    omega
  simp [Block.words, be32toh_load order four, blockOf]

theorem val_slot (i : Nat) : (slot i).val = i % 16 :=
  Nat.and_two_pow_sub_one_eq_mod i 4

theorem slot_eq_iff {i j : Nat} : slot i = slot j ↔ i % 16 = j % 16 := by
  rw [← val_slot, ← val_slot, Fin.ext_iff]

theorem rotateLeft32_eq (a n : UInt32) : rotateLeft32 a n = rotl n a :=
  rfl

/-- The two sides of `Ch` have no bit in common. -/
theorem ch_eq (x y z : UInt32) : x &&& y ||| ~~~x &&& z = (x &&& y) ^^^ (~~~x &&& z) := by
  apply UInt32.toBitVec_inj.mp
  ext i
  simp only [UInt32.toBitVec_or, UInt32.toBitVec_and, UInt32.toBitVec_xor, UInt32.toBitVec_not,
    BitVec.getElem_or, BitVec.getElem_and, BitVec.getElem_xor, BitVec.getElem_not]
  cases x.toBitVec[i] <;> simp

/-- A bit is in one of the three sides of `Maj` or in all of them. -/
theorem maj_eq (x y z : UInt32) :
    x &&& y ||| x &&& z ||| y &&& z = (x &&& y) ^^^ (x &&& z) ^^^ (y &&& z) := by
  apply UInt32.toBitVec_inj.mp
  ext i
  simp only [UInt32.toBitVec_or, UInt32.toBitVec_and, UInt32.toBitVec_xor, BitVec.getElem_or,
    BitVec.getElem_and, BitVec.getElem_xor]
  cases x.toBitVec[i] <;> cases y.toBitVec[i] <;> cases z.toBitVec[i] <;> rfl

/-- The registers after a round whose place in `w` holds the word of the schedule. -/
theorem round_blks {block : Nat → UInt32} {s : Round} {i : Nat}
    (here : (round s i).w[slot i] = schedule block i) :
    (round s i).blks = step (schedule block) s.blks i := by
  have sum (x y z u v : UInt32) : x + y + z + u + v = x + y + z + v + u := by
    rw [UInt32.add_assoc, UInt32.add_comm u v, ← UInt32.add_assoc]
  have tmp : (round s i).blks.a = (step (schedule block) s.blks i).a := by
    rw [step, ← here, f, k, ← ch_eq, ← maj_eq]
    simp only [round, UInt32.toUInt32_toInt32, rotateLeft32_eq]
    split
    · exact sum ..
    · split
      · exact sum ..
      · split
        · exact sum ..
        · exact sum ..
  cases next : round s i with
  | mk blks w =>
      rw [next] at tmp
      have rest : blks = ⟨blks.a, s.blks.a, rotl 30 s.blks.b, s.blks.c, s.blks.d⟩ := by
        rw [show blks = (round s i).blks by rw [next]]
        rfl
      rw [rest, tmp]
      rfl

/-- `w` holds the last 16 words of the schedule when round `t` begins. -/
def Holds (block : Nat → UInt32) (w : Words) (t : Nat) : Prop :=
  ∀ s < max 16 t, t ≤ s + 16 → w[slot s] = schedule block s

theorem Holds.round {block : Nat → UInt32} {s : Round} {t : Nat} (holds : Holds block s.w t) :
    Holds block (round s t).w (t + 1) ∧ (SHA1.round s t).w[slot t] = schedule block t := by
  by_cases early : t < 16
  · have same : (SHA1.round s t).w = s.w := if_neg (by omega)
    rw [same]
    exact ⟨fun i small recent => holds i (by omega) (by omega), holds t (by omega) (by omega)⟩
  · have word (back : Nat) (small : back ≤ 16) (some_back : 0 < back) (place : Nat)
        (same : place % 16 = (t - back) % 16) : s.w[slot place] = schedule block (t - back) := by
      simp only [slot_eq_iff.mpr same]
      exact holds _ (by omega) (by omega)
    have next : (SHA1.round s t).w = s.w.set (slot t) (schedule block t) := by
      rw [schedule, if_neg early, ← word 3 (by omega) (by omega) (t + 13) (by omega),
        ← word 8 (by omega) (by omega) (t + 8) (by omega),
        ← word 14 (by omega) (by omega) (t + 2) (by omega),
        ← word 16 (by omega) (by omega) t (by omega)]
      exact if_pos (by omega)
    rw [next]
    refine ⟨fun i small recent => ?_, Vector.getElem_set_self ..⟩
    by_cases last : i = t
    · rw [last]
      exact Vector.getElem_set_self ..
    · have apart : (slot t).val ≠ (slot i).val := by
        rw [val_slot, val_slot]
        omega
      exact (Vector.getElem_set_ne _ _ apart).trans (holds i (by omega) (by omega))

/-- The words of the block are in `w`, and the registers are those of the steps so far. -/
theorem rounds (order : ByteOrder) (ctx : ShaCtx) (t : Nat) :
    let s := (List.range t).foldl round ⟨ctx.h, (ctx.buffer.words order).map (be32toh order)⟩
    s.blks = steps (schedule (blockOf ctx.buffer.val)) ctx.h t ∧
      Holds (blockOf ctx.buffer.val) s.w t := by
  induction t with
  | zero =>
      refine ⟨rfl, fun i small _ => ?_⟩
      have place : (slot i).val = i := by
        rw [val_slot]
        omega
      rw [schedule, if_pos (by omega)]
      simp only [List.range_zero, List.foldl_nil, be32toh_words, place]
  | succ t ih =>
      rcases ih with ⟨blks, holds⟩
      rcases holds.round with ⟨next, here⟩
      simp only [List.range_succ, List.foldl_append, List.foldl_cons, List.foldl_nil]
      refine ⟨?_, next⟩
      rw [round_blks here, blks, steps, steps, List.range_succ, List.foldl_append, List.foldl_cons,
        List.foldl_nil]

/-- `SHA1_ProcessBlock` is the compression of the buffer. -/
theorem processBlock_h (order : ByteOrder) (ctx : ShaCtx) :
    (processBlock order ctx).h = compress ctx.h (blockOf ctx.buffer.val) := by
  have last := (rounds order ctx 80).1
  rw [compress, ← last]
  rfl

/-- The context after a message: its whole blocks are in the hash value, the rest is in the buffer.
-/
structure Absorbed (ctx : ShaCtx) (whole rest : Bytes) : Prop where
  whole_blocks : whole.length % 64 = 0
  h_eq : ctx.h = hashBlocks SecureHash.initial whole
  size_eq : ctx.size.val = rest.length
  buffer_eq : ctx.buffer.val.take rest.length = rest
  total_eq : ctx.total = UInt32.ofNat (whole ++ rest).length

theorem absorbed_init (buffer : Block) : Absorbed (init buffer) [] [] where
  whole_blocks := rfl
  h_eq := by
    rw [hashBlocks_of_lt (by decide)]
    rfl
  size_eq := rfl
  buffer_eq := rfl
  total_eq := rfl

section Pieces

variable {order : ByteOrder} {ctx : ShaCtx} {whole rest piece : Bytes}

/-- The buffer with a piece behind the rest. -/
def ShaCtx.store (ctx : ShaCtx) (piece : Bytes) (inside : ctx.size.val + piece.length ≤ 64) :
    ShaCtx :=
  { ctx with
    buffer := ctx.buffer.write ctx.size piece inside
    total := ctx.total + UInt32.ofNat piece.length }

theorem Absorbed.take_store (absorbed : Absorbed ctx whole rest)
    (inside : ctx.size.val + piece.length ≤ 64) :
    (ctx.store piece inside).buffer.val.take (rest ++ piece).length = rest ++ piece := by
  have front := absorbed.buffer_eq
  rw [← absorbed.size_eq] at front
  have room : ctx.size.val + piece.length ≤ ctx.buffer.val.length := by
    rw [ctx.buffer.property]
    exact inside
  rw [List.length_append, ← absorbed.size_eq]
  exact (take_overwrite room).trans (congrArg (· ++ piece) front)

theorem Absorbed.total_store (absorbed : Absorbed ctx whole rest)
    (inside : ctx.size.val + piece.length ≤ 64) :
    (ctx.store piece inside).total = UInt32.ofNat (whole ++ (rest ++ piece)).length := by
  rw [← List.append_assoc, List.length_append, UInt32.ofNat_add, ← absorbed.total_eq]
  rfl

/-- A piece that does not fill the buffer. -/
theorem Absorbed.part (absorbed : Absorbed ctx whole rest)
    (inside : ctx.size.val + piece.length ≤ 64) (small : ctx.size.val + piece.length < 64) :
    Absorbed { ctx.store piece inside with size := ⟨ctx.size.val + piece.length, small⟩ } whole
      (rest ++ piece) where
  whole_blocks := absorbed.whole_blocks
  h_eq := absorbed.h_eq
  size_eq := by
    rw [List.length_append, ← absorbed.size_eq]
  buffer_eq := absorbed.take_store inside
  total_eq := absorbed.total_store inside

/-- A piece that fills the buffer. -/
theorem Absorbed.block (order : ByteOrder) (absorbed : Absorbed ctx whole rest)
    (inside : ctx.size.val + piece.length ≤ 64) (full : ctx.size.val + piece.length = 64) :
    Absorbed { processBlock order (ctx.store piece inside) with size := 0 }
      (whole ++ (rest ++ piece)) [] := by
  have long : (rest ++ piece).length = 64 := by
    rw [List.length_append, ← absorbed.size_eq, full]
  have buffer : (ctx.store piece inside).buffer.val = rest ++ piece := by
    rw [← absorbed.take_store inside, long, List.take_of_length_le]
    exact Nat.le_of_eq (ctx.store piece inside).buffer.property
  refine ⟨?_, ?_, rfl, rfl, ?_⟩
  · rw [List.length_append, long, Nat.add_mod_right, absorbed.whole_blocks]
  · rw [hashBlocks_append absorbed.whole_blocks, ← absorbed.h_eq, hashBlocks_block long, ← buffer]
    exact processBlock_h order _
  · rw [List.append_nil]
    exact absorbed.total_store inside

/-- `SHA1_Update` with a piece of any length. -/
theorem Absorbed.update (order : ByteOrder) (absorbed : Absorbed ctx whole rest) (data : Bytes) :
    ∃ whole' rest', whole' ++ rest' = whole ++ rest ++ data ∧
      Absorbed (update order ctx data) whole' rest' := by
  induction length : data.length using Nat.strongRecOn generalizing ctx whole rest data with
  | _ n ih =>
      subst length
      rw [SHA1.update]
      split
      case isTrue some_data =>
        have chunk : (data.take (min (64 - ctx.size.val) data.length)).length =
            min (64 - ctx.size.val) data.length := by
          rw [List.length_take]
          omega
        have behind : (data.drop (min (64 - ctx.size.val) data.length)).length < data.length := by
          rw [List.length_drop]
          omega
        have inside : ctx.size.val + (data.take (min (64 - ctx.size.val) data.length)).length ≤
          64 := by
          omega
        dsimp only
        split
        case isTrue full =>
          have next := absorbed.block order inside (by rw [chunk]; exact full)
          rcases ih _ behind next _ rfl with ⟨whole', rest', parts, after⟩
          refine ⟨whole', rest', ?_, by simpa only [ShaCtx.store, chunk] using after⟩
          rw [parts]
          simp
        case isFalse partly =>
          have next := absorbed.part inside (by omega)
          rcases ih _ behind next _ rfl with ⟨whole', rest', parts, after⟩
          refine ⟨whole', rest', ?_, by simpa only [ShaCtx.store, chunk] using after⟩
          rw [parts]
          simp
      case isFalse none =>
        have empty : data = [] := by
          rw [← List.length_eq_zero_iff]
          omega
        exact ⟨whole, rest, by rw [empty, List.append_nil], absorbed⟩

/-- Any number of pieces. -/
theorem Absorbed.updates (order : ByteOrder) (absorbed : Absorbed ctx whole rest)
    (pieces : List Bytes) :
    ∃ whole' rest', whole' ++ rest' = whole ++ rest ++ pieces.flatten ∧
      Absorbed (pieces.foldl (SHA1.update order) ctx) whole' rest' := by
  induction pieces generalizing ctx whole rest with
  | nil => exact ⟨whole, rest, by simp, absorbed⟩
  | cons piece pieces ih =>
      rcases absorbed.update order piece with ⟨whole₁, rest₁, parts₁, next⟩
      rcases ih next with ⟨whole', rest', parts, after⟩
      refine ⟨whole', rest', ?_, after⟩
      rw [parts, parts₁, List.flatten_cons, List.append_assoc]

end Pieces

/-- The two words that `SHA1_Final` puts behind the padding. -/
theorem bytesOf_total {bits : UInt32} {n : Nat} (same : bits.toNat = n) :
    bytesOf (bits.toUInt64 >>> 32).toUInt32 ++ bytesOf bits.toUInt64.toUInt32 = lengthBytes n := by
  have := bits.toNat_lt
  have high : (bits.toUInt64 >>> 32).toUInt32 = 0 := by
    apply UInt32.toNat_inj.mp
    rw [UInt64.toNat_toUInt32, UInt64.toNat_shiftRight, UInt32.toNat_toUInt64,
      Nat.shiftRight_eq_div_pow]
    exact congrArg (· % 4294967296) (Nat.div_eq_of_lt this)
  have low : bits.toUInt64.toUInt32 = bits := UInt32.toUInt32_toUInt64 bits
  rw [high, low, lengthBytes, ← same, Nat.div_eq_of_lt (b := 4294967296) this,
    Nat.div_eq_of_lt (b := 1099511627776) (by omega),
      Nat.div_eq_of_lt (b := 281474976710656) (by omega),
    Nat.div_eq_of_lt (b := 72057594037927936) (by omega)]
  rfl

/-- What `SHA1_Final` takes of `pad`. -/
def padding (size : Nat) : Bytes :=
  pad.take (if size < 56 then 56 - size else 64 + 56 - size)

theorem padding_eq {size : Nat} (inside : size < 64) :
    padding size = 0x80 :: List.replicate ((119 - size) % 64) 0 := by
  have amount : (if size < 56 then 56 - size else 64 + 56 - size) = (119 - size) % 64 + 1 := by
    split <;> omega
  rw [padding, amount, pad, List.take_succ_cons, List.take_replicate]
  congr 2
  omega

/-- The end of `SHA1_Final`. -/
theorem final_snd {order : ByteOrder} {ctx ctx' : ShaCtx} {n : Nat}
    (next : update order ctx (padding ctx.size) = ctx') (bits : (ctx.total * 8).toNat = n) :
    (final order ctx).2 =
      (compress ctx'.h (blockOf (overwrite ctx'.buffer.val 56 (lengthBytes n)))).bytes := by
  have room (x : UInt32) : 56 + (bytesOf x).length ≤ ctx'.buffer.val.length := by
    rw [ctx'.buffer.property, length_bytesOf]
    decide
  rw [← bytesOf_total bits, ← overwrite_overwrite _ (room _)]
  subst next
  simp only [final, store_htobe32, Registers.bytes, processBlock_h, Block.write, padding,
    length_bytesOf]
  rfl

/-- `SHA1_Final` after a message whose bits can be counted. -/
theorem Absorbed.final {order : ByteOrder} {ctx : ShaCtx} {whole rest : Bytes}
    (absorbed : Absorbed ctx whole rest) (short : (whole ++ rest).length < 2 ^ 29) :
    (final order ctx).2 = digest (whole ++ rest) := by
  have whole_blocks := absorbed.whole_blocks
  have size := absorbed.size_eq
  have inside := ctx.size.isLt
  have length : (whole ++ rest).length % 64 = ctx.size.val := by
    rw [List.length_append]
    omega
  have bits : (ctx.total * 8).toNat = 8 * (whole ++ rest).length := by
    have eight : (8 : UInt32).toNat = 8 := rfl
    rw [absorbed.total_eq, UInt32.toNat_mul, UInt32.toNat_ofNat', eight]
    omega
  -- the padding leaves 56 bytes in the buffer
  rcases absorbed.update order (padding ctx.size) with ⟨whole', rest', parts, after⟩
  generalize next : SHA1.update order ctx (padding ctx.size) = ctx' at after
  have rest_length : rest'.length = 56 := by
    have padded_length := congrArg List.length parts
    rw [padding_eq inside, List.length_append, List.length_append, List.length_cons,
      List.length_replicate] at padded_length
    have := after.whole_blocks
    have := after.size_eq
    have := ctx'.size.isLt
    omega
  have front := after.buffer_eq
  rw [rest_length] at front
  have last : overwrite ctx'.buffer.val 56 (lengthBytes (8 * (whole ++ rest).length)) =
      rest' ++ lengthBytes (8 * (whole ++ rest).length) := by
    rw [overwrite, front, List.drop_of_length_le, List.append_nil]
    exact Nat.le_of_eq ctx'.buffer.property
  have padded_eq : padded (whole ++ rest) =
      whole' ++ (rest' ++ lengthBytes (8 * (whole ++ rest).length)) := by
    rw [padded, length, ← padding_eq inside, ← List.append_assoc whole', parts]
  rw [final_snd next bits, last, digest, padded_eq,
    hashBlocks_append after.whole_blocks, ← after.h_eq,
    hashBlocks_block]
  rw [List.length_append, rest_length]
  rfl

/-- The digest of a message that comes in any pieces. -/
theorem final_updates (order : ByteOrder) (buffer : Block) (pieces : List Bytes)
    (short : pieces.flatten.length < 2 ^ 29) :
    (final order (pieces.foldl (update order) (init buffer))).2 = digest pieces.flatten := by
  rcases (absorbed_init buffer).updates order pieces with ⟨whole, rest, parts, absorbed⟩
  rw [List.append_nil, List.nil_append] at parts
  rw [← parts] at short ⊢
  exact absorbed.final short

theorem final_updates_abc :
    ([[0x61], [], [0x62, 0x63]] : List Bytes).flatten.length < 2 ^ 29 ∧
      (final .little (([[0x61], [], [0x62, 0x63]] : List Bytes).foldl (update .little)
        (init ⟨List.replicate 64 0, rfl⟩))).2 = digest [0x61, 0x62, 0x63] :=
  ⟨by decide, final_updates .little ⟨List.replicate 64 0, rfl⟩ [[0x61], [],
    [0x62, 0x63]] (by decide)⟩

end SHA1

end Paho
