import Paho.Codec.PublishPackets

/-!
# The three decoders of a length

`MQTTPacket_decode` reads a variable byte integer from the network, `MQTTPacket_decodeBuf` with
`MQTTPacket_VBIdecode` from memory, and `MQTTPersistence_restorePacket` with a loop of its own from
a record. Only the first of them turns down a field of five bytes.
-/

namespace Paho

open PropertyReader PacketStream Sockets

/-- `INT_MAX`. -/
def intMax : Nat := 2147483647

/-- The loop of `MQTTPersistence_restorePacket` that decodes the length, on what is behind the
header byte: `remaining_length`, `fixed_header_length`, and what is left. A read past the end and an
overflow of an `int` have no outcome. -/
def restoreLength : Nat → Nat → Nat → Bytes → Option (Nat × Nat × Bytes)
  | _, _, _, [] => none
  | multiplier, remaining_length, fixed_header_length, c :: rest =>
      let remaining_length := remaining_length + c.toNat % 128 * multiplier
      let multiplier := multiplier * 128
      if intMax < remaining_length ∨ intMax < multiplier then none
      else if 128 ≤ c.toNat then
        restoreLength multiplier remaining_length (fixed_header_length + 1) rest
      else some (remaining_length, fixed_header_length + 1, rest)

/-- What a decoder makes of a byte string. -/
inductive Decoded where
  | accepted (value consumed : Nat)
  | rejected
  deriving DecidableEq, Repr

/-- `MQTTPacket_decode` on a plain socket; the bytes that it takes are counted by the queue. -/
def networkDecode (t : Transport) (socket : SOCKET) : Option Decoded :=
  (MQTTPacket.decode t (MQTTPacket.plain socket)).map fun (rc, value, _, t') =>
    if rc = .complete then
      .accepted value ((t'.sockets.queue socket).index - (t.sockets.queue socket).index)
    else .rejected

/-- `MQTTPacket_decodeBuf`, which returns the number of bytes only. -/
def memoryDecode (bytes : Bytes) : Option Decoded :=
  match PropertyReader.decodeBuf bytes with
  | .taken (value, _) n => some (.accepted value n)
  | .failed _ => some .rejected
  | .overrun => none

/-- The length as `MQTTPersistence_restorePacket` decodes it, where one byte is the header. -/
def recordDecode (bytes : Bytes) : Option Decoded :=
  (restoreLength 1 0 1 bytes).map fun (remaining_length, fixed_header_length, _) =>
    .accepted remaining_length (fixed_header_length - 1)

/-- All three decoders come to this result. -/
structure AllDecode (t : Transport) (socket : SOCKET) (bytes : Bytes)
    (decoded : Decoded) : Prop where
  network : networkDecode t socket = some decoded
  memory : memoryDecode bytes = some decoded
  record : recordDecode bytes = some decoded

variable {t : Transport} {socket : SOCKET} {first : UInt8} {bytes field rest : Bytes} {n : Nat}

theorem digit_lt {multiplier value : Nat} (below : value < multiplier) (c : UInt8) :
    value + c.toNat % 128 * multiplier < multiplier * 128 := by
  have low : c.toNat % 128 + 1 ≤ 128 := by omega
  calc value + c.toNat % 128 * multiplier
      < multiplier + c.toNat % 128 * multiplier := by omega
    _ = multiplier * (c.toNat % 128 + 1) := by ring
    _ ≤ multiplier * 128 := Nat.mul_le_mul_left _ low

/-- A field of at most four bytes is decoded without an overflow. -/
theorem restoreLength_vbi (isVBI : VBI field n) {multiplier value : Nat}
    (below : value < multiplier) (fits : multiplier * 128 ^ field.length ≤ 268435456) (len : Nat) :
    restoreLength multiplier value len (field ++ rest) =
      some (value + n * multiplier, len + field.length, rest) := by
  induction isVBI generalizing multiplier value len with
  | @last c ends =>
      have digit := digit_lt below c
      have whole : c.toNat % 128 = c.toNat := Nat.mod_eq_of_lt ends
      rw [List.length_singleton, Nat.pow_one] at fits
      simp only [restoreLength, List.singleton_append, List.length_singleton]
      rw [if_neg (by simp only [intMax]; omega), if_neg (by omega), whole]
  | @more c field n continues _ ih =>
      have digit := digit_lt below c
      rw [List.length_cons, Nat.pow_succ'] at fits
      rw [← Nat.mul_assoc] at fits
      have positive : 0 < 128 ^ field.length := Nat.pow_pos (by decide)
      have smaller : multiplier * 128 ≤ multiplier * 128 * 128 ^ field.length :=
        Nat.le_mul_of_pos_right _ positive
      simp only [restoreLength, List.cons_append]
      rw [if_neg (by simp only [intMax]; omega), if_pos continues, ih digit fits]
      congr 2
      · ring
      · rw [List.length_cons]
        congr 1
        omega

/-- A field without an end is read off the record. -/
theorem restoreLength_of_continue (continues : Continue bytes) (multiplier value len : Nat) :
    restoreLength multiplier value len bytes = none := by
  induction bytes generalizing multiplier value len with
  | nil => rfl
  | cons c bytes ih =>
      rcases List.forall_mem_cons.mp continues with ⟨first, others⟩
      simp only [restoreLength, first, if_true, ih others, ite_self]

/-- After four bytes that continue the multiplier overflows. -/
theorem restoreLength_overflows (continues : Continue field) {multiplier : Nat}
    (large : intMax < multiplier * 128 ^ (field.length + 1)) (value len : Nat) :
    restoreLength multiplier value len (field ++ rest) = none := by
  induction field generalizing multiplier value len with
  | nil =>
      cases rest with
      | nil => rfl
      | cons c rest =>
          rw [List.length_nil, Nat.zero_add, Nat.pow_one] at large
          simp [restoreLength, large]
  | cons c field ih =>
      rcases List.forall_mem_cons.mp continues with ⟨first, others⟩
      rw [List.length_cons, Nat.pow_succ', ← Nat.mul_assoc] at large
      simp only [restoreLength, List.cons_append, first, if_true, ih others large, ite_self]

/-- What `MQTTPacket_decode` makes of the bytes behind the header byte. -/
theorem networkDecode_vbi (positive : 0 < socket)
    (reading : t.sockets.Reading socket [first] (field ++ rest)) (isVBI : VBI field n)
    (short : field.length ≤ 4) : networkDecode t socket = some (.accepted n field.length) := by
  have complete : remainingLength (field ++ rest) = .complete n rest := by
    have ends := @MQTTPacket.lengthField_vbi rest field n isVBI 4 short 1 0
    rwa [Nat.zero_add, Nat.mul_one] at ends
  rcases MQTTPacket.decodeLoop_plain positive rfl rfl (fun _ => rfl) reading with
    ⟨rc, value, s', decoded, -, -, spec⟩
  rw [remainingLength] at complete
  rw [complete] at spec
  rcases spec with ⟨rfl, rfl, header, -, split, after⟩
  have length := congrArg List.length split
  simp only [List.length_append, List.length_singleton] at length
  have decode : MQTTPacket.decode t (MQTTPacket.plain socket) = _ := decoded
  rw [networkDecode, decode]
  simp only [Option.map_some, if_true, after.index, reading.index, List.length_singleton]
  congr 2
  omega

/-- A field of at most four bytes is accepted by all three. -/
theorem allDecode_vbi (positive : 0 < socket)
    (reading : t.sockets.Reading socket [first] (field ++ rest)) (isVBI : VBI field n)
    (short : field.length ≤ 4) : AllDecode t socket (field ++ rest) (.accepted n field.length) := by
  have fits : 1 * 128 ^ field.length ≤ 268435456 := by
    rw [Nat.one_mul]
    exact Nat.pow_le_pow_right (by decide) short
  constructor
  · exact networkDecode_vbi positive reading isVBI short
  · rw [memoryDecode, decodeBuf_vbi isVBI short rest]
  · rw [recordDecode, restoreLength_vbi isVBI Nat.one_pos fits]
    simp

/-- Some byte of the first four ends the field, or the record has no length. -/
theorem ends_or_none (bytes : Bytes) :
    (¬Continue (bytes.take 4) ∧
      ∃ field n rest, bytes = field ++ rest ∧ VBI field n ∧ field.length ≤ 4) ∨
    (Continue (bytes.take 4) ∧ recordDecode bytes = none) := by
  rcases decodeBuf_cases bytes with
    ⟨field, n, rest, rfl, isVBI, short⟩ | ⟨field, rest, rfl, overlong⟩ | ⟨continues, -⟩
  · refine .inl ⟨?_, field, n, rest, rfl, isVBI, short⟩
    rw [List.take_append, List.take_of_length_le short]
    exact isVBI.not_continue
  · right
    constructor
    · rw [← overlong.1, List.take_left]
      exact overlong.2
    · rw [recordDecode, restoreLength_overflows overlong.2]
      · rfl
      · rw [overlong.1]
        decide
  · right
    constructor
    · exact fun c mem => continues c (List.mem_of_mem_take mem)
    · rw [recordDecode, restoreLength_of_continue continues]
      rfl

/--
For every byte string behind a header byte, wherever a socket has it, the three decoders come to the
same result exactly when one of its first four bytes ends the field. Each of them takes back what
`MQTTPacket_encode` has written for a length below 2^28, in as many bytes as `MQTTPacket_VBIlen`
says.
-/
theorem decoders_agree_iff (positive : 0 < socket)
    (reading : t.sockets.Reading socket [first] bytes) :
    ((∃ decoded, AllDecode t socket bytes decoded) ↔ ¬Continue (bytes.take 4)) ∧
      ∀ n rest, n < 268435456 → bytes = MQTTPacket.encode n ++ rest →
        (MQTTPacket.encode n).length = MQTTPacket.vbiLen n ∧
          AllDecode t socket bytes (.accepted n (MQTTPacket.vbiLen n)) := by
  constructor
  · rcases ends_or_none bytes with ⟨ends, field, n, rest, rfl, isVBI, short⟩ | ⟨continues, none⟩
    · exact iff_of_true ⟨_, allDecode_vbi positive reading isVBI short⟩ ends
    · apply iff_of_false
      · rintro ⟨decoded, all⟩
        rw [all.record] at none
        cases none
      · exact not_not_intro continues
  · rintro n rest inRange rfl
    have length := MQTTPacket.length_encode inRange
    have short : (MQTTPacket.encode n).length ≤ 4 := by
      rw [length]
      exact MQTTPacket.vbiLen_le n
    have all := allDecode_vbi positive reading (vbi_encode n) short
    rw [length] at all
    exact ⟨length, all⟩

/-- A connection on which a header byte was read, and these bytes have arrived behind it. -/
def headerRead (socket : SOCKET) (header : UInt8) (bytes : Bytes) : Transport where
  sockets :=
    { kernel := fun _ => ⟨bytes, .connected⟩
      def_queue := { socket := socket, index := 1, fixed_header := [header], buf := [] }
      queues := [] }
  in_frames := []
  frame_buffer := []
  frame_buffer_index := 0
  pongs := []

theorem reading_headerRead (socket : SOCKET) (header : UInt8) (bytes : Bytes) :
    (headerRead socket header bytes).sockets.Reading socket [header] bytes := by
  have absent : SocketBuffer.find (headerRead socket header bytes).sockets socket = none := rfl
  have queue := @queue_of_default (headerRead socket header bytes).sockets socket absent rfl
  constructor
  · exact ⟨List.nodup_nil, .inr ⟨rfl, absent, rfl, rfl⟩⟩
  · rw [queue]
    rfl
  · rw [queue]
    exact ⟨[], rfl, rfl⟩
  · rw [queue]
    rintro front more split notEmpty n ⟨c, field, rfl, complete⟩
    have length := congrArg List.length split
    have := List.length_pos_of_ne_nil notEmpty
    simp only [headerRead, List.length_append, List.length_cons, List.length_nil] at length
    omega
  · rw [queue]
    exact fun notEmpty => absurd rfl notEmpty

/-- A length of 200 is read from both of its bytes. -/
theorem decoders_agree_twoBytes :
    AllDecode (headerRead 7 48 [200, 1]) 7 [200, 1] (.accepted 200 2) := by
  have agree := decoders_agree_iff (show 0 < 7 by decide) (reading_headerRead 7 48 [200, 1])
  have written : [200, 1] = MQTTPacket.encode 200 ++ [] := by simp [MQTTPacket.encode]
  exact (agree.2 200 [] (by decide) written).2

/-- Four bytes that continue and a zero: the network decoder turns them down, the one for memory
takes five bytes for the length 0, and the loop on a record overflows its multiplier. -/
theorem decoders_disagree :
    networkDecode (headerRead 7 48 [128, 128, 128, 128, 0]) 7 = some .rejected ∧
      memoryDecode [128, 128, 128, 128, 0] = some (.accepted 0 5) ∧
      recordDecode [128, 128, 128, 128, 0] = none :=
  ⟨rfl, rfl, rfl⟩

end Paho
