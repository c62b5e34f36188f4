import Mathlib.Algebra.Group.Nat.Defs
import Mathlib.Algebra.GroupWithZero.Nat
import Paho.Transport.FrameReading

/-!
# Masked frames

`WebSocket_buildFrame`, which masks the buffers of a packet, and what `WebSocket_receiveFrame`
delivers of a frame with a masking key.
-/

namespace Paho

/-- The bytes from `idx` on, each with the byte of the key for its place. -/
def xorKey (key : Bytes) : Nat → Bytes → Bytes
  | _, [] => []
  | idx, byte :: rest => (byte ^^^ key.getD (idx % 4) 0) :: xorKey key (idx + 1) rest

/-- The key changes none of the first `n` bytes. -/
def KeyIsZero (key : Bytes) (n : Nat) : Prop :=
  ∀ i < n, key.getD (i % 4) 0 = 0

section Keys

variable {key : Bytes}

@[simp]
theorem length_xorKey (key : Bytes) (idx : Nat) (bytes : Bytes) :
    (xorKey key idx bytes).length = bytes.length := by
  induction bytes generalizing idx with
  | nil => rfl
  | cons byte rest ih => simp [xorKey, ih]

theorem xorKey_append (key : Bytes) (idx : Nat) (left right : Bytes) :
    xorKey key idx (left ++ right) = xorKey key idx left ++ xorKey key
      (idx + left.length) right := by
  induction left generalizing idx with
  | nil => rfl
  | cons byte left ih =>
      have place : idx + 1 + left.length = idx + (byte :: left).length := by
        rw [List.length_cons]
        omega
      simp only [List.cons_append, xorKey, ih, place]

/-- Masking twice changes nothing. -/
theorem xorKey_xorKey (key : Bytes) (idx : Nat) (bytes : Bytes) :
    xorKey key idx (xorKey key idx bytes) = bytes := by
  induction bytes generalizing idx with
  | nil => rfl
  | cons byte rest ih => simp [xorKey, ih, UInt8.xor_assoc]

theorem xorKey_nil (idx : Nat) (bytes : Bytes) : xorKey [] idx bytes = bytes := by
  induction bytes generalizing idx with
  | nil => rfl
  | cons byte rest ih => simp [xorKey, ih]

theorem xor_eq_left_iff (byte mask : UInt8) : byte ^^^ mask = byte ↔ mask = 0 := by
  have zero := @UInt8.xor_right_inj mask 0 byte
  rwa [UInt8.xor_zero] at zero

/-- Masking leaves the bytes as they are only with a key of zeros. -/
theorem xorKey_eq_iff (idx : Nat) (bytes : Bytes) :
    xorKey key idx bytes = bytes ↔ ∀ i < bytes.length, key.getD ((idx + i) % 4) 0 = 0 := by
  induction bytes generalizing idx with
  | nil => simp [xorKey]
  | cons byte rest ih =>
      rw [xorKey, List.cons.injEq, xor_eq_left_iff, ih, List.length_cons]
      constructor
      · rintro ⟨first, others⟩ i inside
        cases i with
        | zero => exact first
        | succ i =>
            have place : idx + (i + 1) = idx + 1 + i := by omega
            rw [place]
            exact others i (by omega)
      · intro zero
        refine ⟨zero 0 (by omega), fun i inside => ?_⟩
        have place : idx + 1 + i = idx + (i + 1) := by omega
        rw [place]
        exact zero (i + 1) (by omega)

theorem xorKey_zero_eq_iff (bytes : Bytes) :
    xorKey key 0 bytes = bytes ↔ KeyIsZero key bytes.length := by
  simp [xorKey_eq_iff, KeyIsZero]

end Keys

namespace WebSocket

open WireFrame

/-- The data of a frame, without the mask. -/
def unmasked (frame : WireFrame) : Bytes :=
  xorKey frame.key 0 frame.payload

/-- What is delivered of a frame that is the next one, when no message is in progress: the data that
is read; for the only frame of a message its queue element; for a PING the data of the PONG. -/
structure Delivers (t : Transport) (net : Net) (frame : WireFrame) (data : Bytes) : Prop where
  taken : ∃ t', readFrame t net opBinary = .read { received frame opBinary with payload := data } t'
  queued : frame.is_final = true → ¬frame.isControl = true →
    ∃ t', receiveFrame t net = some (.complete, net, t') ∧ t'.in_frames = [some ⟨data, 0⟩]
  answered : frame.is_final = true → frame.opcode = opPing →
    ∃ t', receiveFrame t net = some (.interrupted, net, t') ∧
      t'.pongs = (net.socket, data) :: t.pongs

section Receiving

variable {t : Transport} {socket : SOCKET} {later : List WireFrame} {coming : Bytes} {net : Net}
  {frame : WireFrame} {data : Bytes}

/-- The payload is delivered as it is in the frame. -/
theorem delivers_iff (carries : Carries t socket [frame] later coming) (positive : 0 < socket)
    (isNet : net.socket = socket) (isWebSocket : net.websocket = true)
    (unlinked : t.in_frames = []) :
    Delivers t net frame data ↔ data = frame.payload := by
  have valid : validOpcode opBinary = true := rfl
  constructor
  · rintro ⟨⟨t', taken⟩, -, -⟩
    rcases carries.brings.readFrame positive isNet valid with ⟨t₁, read, -⟩
    rw [read] at taken
    injection taken with same
    exact (congrArg Received.payload same).symm
  · rintro rfl
    constructor
    · rcases carries.brings.readFrame positive isNet valid with ⟨t₁, read, -⟩
      exact ⟨t₁, read⟩
    · intro final data
      have isMessage : message [frame] = some (frame.payload, []) := by
        simp [message, data, final]
      rcases carries.brings.receive_message positive isNet isMessage valid
        (.inl (Nat.le_refl 2)) none
        (carries.lt_rounds isNet) with ⟨t₁, result, in_frames, -⟩
      rw [relink_in_frames, unlinked] at in_frames
      refine ⟨{ t₁ with in_frames := [some ⟨frame.payload, 0⟩] }, ?_, rfl⟩
      simp [receiveFrame, unlinked, result, in_frames, appendPayload]
    · intro final ping
      have receives : Receives (none : Option Bytes).isSome [frame] .interrupted [] []
          [frame.payload] := by
        have control := Receives.control final (.inl ping) (by simp) (.interrupted false)
        rwa [if_pos ping, List.append_nil] at control
      have holds : Holds t none 0 := ⟨unlinked, rfl⟩
      rcases carries.receive receives positive isNet isWebSocket holds with
        ⟨t₁, result, -, pongs, -⟩
      refine ⟨t₁, result, ?_⟩
      rw [pongs, isNet]
      rfl

/-- A frame is delivered without its mask exactly when the mask changes nothing. -/
theorem delivers_unmasked_iff (carries : Carries t socket [frame] later coming)
    (positive : 0 < socket) (isNet : net.socket = socket) (isWebSocket : net.websocket = true)
    (unlinked : t.in_frames = []) :
    Delivers t net frame (unmasked frame) ↔ KeyIsZero frame.key frame.payload.length := by
  rw [delivers_iff carries positive isNet isWebSocket unlinked]
  exact xorKey_zero_eq_iff frame.payload

end Receiving

/-! ## Frames that are built -/

/-- What `WebSocket_buildFrame` uses of `PacketBuffers`; there are four bytes of `mask`. -/
structure MaskedBuffers where
  buffers : List Bytes
  mask : Bytes
  isMask : mask.length = 4

/-- `WebSocket_calculateFrameHeaderSize`, for a WebSocket connection. -/
def calculateFrameHeaderSize (mask_data : Bool) (data_len : Nat) : Nat :=
  (if data_len < 126 then 2
    else if data_len < 65536 then 4
    else if data_len < 18446744073709551615 then 10
    else 0) + if mask_data then 4 else 0

/-- The bytes of a number, the most significant first. -/
def writeBigEndian : Nat → Nat → Bytes
  | 0, _ => []
  | n + 1, value => writeBigEndian n (value / 256) ++ [UInt8.ofNat (value % 256)]

namespace MaskedBuffers

variable (mask_data : Bool) (random : Bytes) (pbuf0 : Bytes) (bufs : MaskedBuffers)

/-- A new mask is made if the first byte of `mask` is 0. -/
def new_mask : Bool :=
  mask_data && bufs.mask.headD 0 == 0

/-- The mask that is used, where `random` is what a new one is made of. -/
def key : Bytes :=
  if bufs.new_mask mask_data then random else bufs.mask

variable {random} in
theorem length_key (isRandom : random.length = 4) : (bufs.key mask_data random).length = 4 := by
  unfold key
  split
  · exact isRandom
  · exact bufs.isMask

/-- The length of the MQTT buffers. -/
def data_len : Nat :=
  pbuf0.length + (bufs.buffers.map List.length).sum

/-- The data of all buffers. -/
def contents : Bytes :=
  pbuf0 ++ bufs.buffers.flatten

/-- How many bytes are masked: with a mask that was there before, the buffers behind the second one
and the last one are not. -/
def covered : Nat :=
  if mask_data then
    pbuf0.length +
      ((if bufs.new_mask mask_data then bufs.buffers
        else bufs.buffers.take (min 2 (bufs.buffers.length - 1))).map List.length).sum
  else 0

end MaskedBuffers

section Building

variable (opcode : Nat) (mask_data : Bool) (random : Bytes) (pbuf0 : Bytes) (bufs : MaskedBuffers)

/-- The first two bytes of a frame, and its extended length. -/
def buildHeader (data_len : Nat) : Bytes :=
  let second (len : Nat) := UInt8.ofNat ((if mask_data then 128 else 0) + len)
  UInt8.ofNat (128 + opcode % 16) ::
    if data_len < 126 then [second data_len]
    else if data_len < 65536 then second 126 :: writeBigEndian 2 data_len
    else second 127 :: writeBigEndian 8 data_len

/-- The loop that masks the buffers behind the first one, from buffer `i` on. With a mask that was
there before, topic and payload are taken for masked. -/
def maskBuffers (key : Bytes) (new_mask : Bool) (count : Nat) : Nat → Nat → List Bytes → List Bytes
  | _, _, [] => []
  | i, idx, buffer :: rest =>
      if new_mask = false ∧ (i = 2 ∨ i + 1 = count) then buffer :: rest
      else
        xorKey key idx buffer :: maskBuffers key new_mask count (i + 1) (idx + buffer.length) rest

/-- `WebSocket_buildFrame`: `wsbuf0`, and the buffers after it. A `pbuf0` of `NULL` is empty. -/
def buildFrame : Bytes × List Bytes :=
  let key := bufs.key mask_data random
  if mask_data then
    (buildHeader opcode mask_data (bufs.data_len pbuf0) ++ key ++ xorKey key 0 pbuf0,
      maskBuffers key (bufs.new_mask mask_data) bufs.buffers.length 0 pbuf0.length bufs.buffers)
  else (buildHeader opcode mask_data (bufs.data_len pbuf0) ++ pbuf0, bufs.buffers)

/-- The bytes that are sent. -/
def builtBytes : Bytes :=
  (buildFrame opcode mask_data random pbuf0 bufs).1 ++
    (buildFrame opcode mask_data random pbuf0 bufs).2.flatten

end Building

section Frames

variable {opcode : Nat} {mask_data : Bool} {random : Bytes} {pbuf0 : Bytes} {bufs : MaskedBuffers}

@[simp]
theorem length_writeBigEndian (n value : Nat) : (writeBigEndian n value).length = n := by
  induction n generalizing value with
  | zero => rfl
  | succ n ih => simp [writeBigEndian, ih]

theorem length_buildHeader {data_len : Nat} (fits : data_len < 18446744073709551615) :
    (buildHeader opcode mask_data data_len).length = calculateFrameHeaderSize false data_len := by
  by_cases tiny : data_len < 126
  · simp [buildHeader, calculateFrameHeaderSize, tiny]
  · by_cases short : data_len < 65536
    · simp [buildHeader, calculateFrameHeaderSize, tiny, short]
    · simp [buildHeader, calculateFrameHeaderSize, tiny, short, fits]

/-- The header and the mask take the room that `WebSocket_calculateFrameHeaderSize` has left in
front of the first buffer. -/
theorem length_wsbuf0 (isRandom : random.length = 4)
    (fits : bufs.data_len pbuf0 < 18446744073709551615) :
    (buildFrame opcode mask_data random pbuf0 bufs).1.length =
      calculateFrameHeaderSize mask_data (bufs.data_len pbuf0) + pbuf0.length := by
  cases mask_data with
  | false => simp [buildFrame, length_buildHeader fits]
  | true =>
      have isKey := bufs.length_key true isRandom
      have size : calculateFrameHeaderSize true (bufs.data_len pbuf0) =
          calculateFrameHeaderSize false (bufs.data_len pbuf0) + 4 := by
        simp [calculateFrameHeaderSize]
      simp only [buildFrame, if_true, List.length_append, length_buildHeader fits, isKey,
        length_xorKey, size]

theorem bigEndian_writeBigEndian {n value : Nat} (fits : value < 256 ^ n) :
    bigEndian (writeBigEndian n value) = value := by
  induction n generalizing value with
  | zero =>
      rw [Nat.pow_zero, Nat.lt_one_iff] at fits
      rw [fits]
      rfl
  | succ n ih =>
      have front : value / 256 < 256 ^ n := by
        apply Nat.div_lt_of_lt_mul
        rwa [Nat.pow_succ, Nat.mul_comm] at fits
      have last : (UInt8.ofNat (value % 256)).toNat = value % 256 := by
        rw [UInt8.toNat_ofNat']
        omega
      have value' := ih front
      unfold bigEndian at value' ⊢
      rw [writeBigEndian, List.foldl_append, value', List.foldl_cons, List.foldl_nil, last]
      omega

/-- The mask runs over the buffers that are masked as over one. -/
theorem maskBuffers_flatten (key : Bytes) (new_mask : Bool) {count i : Nat} (idx : Nat)
    {buffers : List Bytes} (isCount : i + buffers.length = count)
    (early : new_mask = true ∨ i ≤ 2) :
    let n := if new_mask then buffers.length else min 2 (count - 1) - i
    (maskBuffers key new_mask count i idx buffers).flatten =
      xorKey key idx (buffers.take n).flatten ++ (buffers.drop n).flatten := by
  induction buffers generalizing i idx with
  | nil => simp [maskBuffers, xorKey]
  | cons buffer rest ih =>
      rw [List.length_cons] at isCount
      intro n
      by_cases stops : new_mask = false ∧ (i = 2 ∨ i + 1 = count)
      · have none : n = 0 := by
          simp only [n, stops.1, Bool.false_eq_true, if_false]
          omega
        rw [maskBuffers, if_pos stops, none]
        simp [xorKey]
      · have earlier : new_mask = true ∨ i + 1 ≤ 2 := by
          cases new_mask with
          | true => exact .inl rfl
          | false =>
              simp only [true_and, not_or] at stops
              simp only [Bool.false_eq_true, false_or] at early ⊢
              omega
        have others := ih (idx + buffer.length) (by omega) earlier
        have one : n = (if new_mask then rest.length else min 2 (count - 1) - (i + 1)) + 1 := by
          cases new_mask with
          | true => rfl
          | false =>
              simp only [true_and, not_or] at stops
              simp only [Bool.false_eq_true, false_or] at earlier
              simp only [n, Bool.false_eq_true, if_false]
              omega
        rw [maskBuffers, if_neg stops, one, List.flatten_cons, others, List.take_succ_cons,
          List.drop_succ_cons, List.flatten_cons, xorKey_append, List.append_assoc]

/-- The first bytes of the data are masked, and the others are as they were. -/
theorem masked_contents :
    xorKey (bufs.key true random) 0 pbuf0 ++
        (maskBuffers (bufs.key true random) (bufs.new_mask true) bufs.buffers.length 0 pbuf0.length
          bufs.buffers).flatten =
      xorKey (bufs.key true random) 0 ((bufs.contents pbuf0).take (bufs.covered true pbuf0)) ++
        (bufs.contents pbuf0).drop (bufs.covered true pbuf0) := by
  let n := if bufs.new_mask true then bufs.buffers.length else min 2 (bufs.buffers.length - 1) - 0
  have buffers := maskBuffers_flatten (bufs.key true random) (bufs.new_mask true) pbuf0.length
    (Nat.zero_add bufs.buffers.length) (.inr (Nat.zero_le 2))
  have front : (if bufs.new_mask true then bufs.buffers
      else bufs.buffers.take (min 2 (bufs.buffers.length - 1))) = bufs.buffers.take n := by
    cases made : bufs.new_mask true with
    | true => simp [n, made]
    | false => simp [n, made]
  have covered : bufs.covered true pbuf0 = (pbuf0 ++ (bufs.buffers.take n).flatten).length := by
    rw [MaskedBuffers.covered, if_pos rfl, front, List.length_append, List.length_flatten]
  have contents : bufs.contents pbuf0 =
      (pbuf0 ++ (bufs.buffers.take n).flatten) ++ (bufs.buffers.drop n).flatten := by
    rw [MaskedBuffers.contents, List.append_assoc, ← List.flatten_append, List.take_append_drop]
  rw [buffers, contents, covered, List.take_left, List.drop_left, xorKey_append, Nat.zero_add,
    List.append_assoc]

/-- The lower bits of the second byte. -/
theorem lowBits_second (mask_data : Bool) (n : Nat) :
    (UInt8.ofNat ((if mask_data then 128 else 0) +
      if n < 126 then n else if n < 65536 then 126 else 127)).toNat % 128 =
        if n < 126 then n else if n < 65536 then 126 else 127 := by
  rw [UInt8.toNat_ofNat']
  cases mask_data <;> grind

theorem highBit_second (mask_data : Bool) (n : Nat) :
    128 ≤ (UInt8.ofNat ((if mask_data then 128 else 0) +
      if n < 126 then n else if n < 65536 then 126 else 127)).toNat ↔ mask_data = true := by
  rw [UInt8.toNat_ofNat']
  cases mask_data <;> grind

theorem length_contents : (bufs.contents pbuf0).length = bufs.data_len pbuf0 := by
  rw [MaskedBuffers.contents, MaskedBuffers.data_len, List.length_append, List.length_flatten]

/-- The bytes of the frame that is built, with its parts. -/
def builtFrame (opcode : Nat) (mask_data : Bool) (random : Bytes) (pbuf0 : Bytes)
    (bufs : MaskedBuffers) (valid : validOpcode (opcode % 16) = true) (isRandom : random.length = 4)
    (fits : bufs.data_len pbuf0 < 18446744073709551615) : WireFrame where
  first := UInt8.ofNat (128 + opcode % 16)
  second := UInt8.ofNat ((if mask_data then 128 else 0) +
    if bufs.data_len pbuf0 < 126 then bufs.data_len pbuf0
    else if bufs.data_len pbuf0 < 65536 then 126 else 127)
  extended :=
    if bufs.data_len pbuf0 < 126 then []
    else if bufs.data_len pbuf0 < 65536 then writeBigEndian 2 (bufs.data_len pbuf0)
    else writeBigEndian 8 (bufs.data_len pbuf0)
  key := if mask_data then bufs.key mask_data random else []
  payload :=
    xorKey (bufs.key mask_data random) 0
      ((bufs.contents pbuf0).take (bufs.covered mask_data pbuf0)) ++
      (bufs.contents pbuf0).drop (bufs.covered mask_data pbuf0)
  isOpcode := by
    have first : (UInt8.ofNat (128 + opcode % 16)).toNat % 16 = opcode % 16 := by
      rw [UInt8.toNat_ofNat']
      omega
    rw [first]
    exact valid
  isExtended := by
    rw [lowBits_second]
    split
    · rw [if_neg (by omega), if_neg (by omega)]
      rfl
    · split <;> simp
  isKey := by
    simp only [highBit_second]
    cases mask_data with
    | false => rfl
    | true =>
        rw [if_pos rfl]
        exact bufs.length_key true isRandom
  isLength := by
    rw [lowBits_second, List.length_append, length_xorKey, ← List.length_append,
      List.take_append_drop, length_contents]
    split
    · rw [if_pos rfl]
    · split
      · rw [if_neg (by simp [writeBigEndian]), bigEndian_writeBigEndian (by omega)]
      · rw [if_neg (by simp [writeBigEndian]), bigEndian_writeBigEndian (by omega)]

/-- The frame has the bytes that are sent. -/
theorem bytes_builtFrame (valid : validOpcode (opcode % 16) = true) (isRandom : random.length = 4)
    (fits : bufs.data_len pbuf0 < 18446744073709551615) :
    (builtFrame opcode mask_data random pbuf0 bufs valid isRandom fits).bytes =
      builtBytes opcode mask_data random pbuf0 bufs := by
  have start : buildHeader opcode mask_data (bufs.data_len pbuf0) =
      [(builtFrame opcode mask_data random pbuf0 bufs valid isRandom fits).first,
        (builtFrame opcode mask_data random pbuf0 bufs valid isRandom fits).second] ++
        (builtFrame opcode mask_data random pbuf0 bufs valid isRandom fits).extended := by
    unfold buildHeader builtFrame
    dsimp only
    split
    · rfl
    · split <;> rfl
  rw [WireFrame.bytes, ← start, builtBytes, buildFrame]
  cases mask_data with
  | true =>
      simp only [if_true, builtFrame, List.append_assoc, masked_contents]
  | false =>
      have none : bufs.covered false pbuf0 = 0 := rfl
      simp [builtFrame, none, xorKey, MaskedBuffers.contents]

/-- A frame of which all data was masked once, or none, has the data of the buffers. -/
theorem unmasked_builtFrame (valid : validOpcode (opcode % 16) = true)
    (isRandom : random.length = 4) (fits : bufs.data_len pbuf0 < 18446744073709551615)
    (once : mask_data = false ∨ bufs.new_mask mask_data = true) :
    unmasked (builtFrame opcode mask_data random pbuf0 bufs valid isRandom fits) =
      bufs.contents pbuf0 := by
  cases mask_data with
  | false =>
      have none : bufs.covered false pbuf0 = 0 := rfl
      simp [unmasked, builtFrame, none, xorKey, xorKey_nil]
  | true =>
      have made : bufs.new_mask true = true := once.resolve_left (by decide)
      have all : bufs.covered true pbuf0 = (bufs.contents pbuf0).length := by
        simp [MaskedBuffers.covered, made, length_contents, MaskedBuffers.data_len]
      simp [unmasked, builtFrame, all, xorKey_xorKey]

theorem covered_le : bufs.covered mask_data pbuf0 ≤ (bufs.contents pbuf0).length := by
  rw [length_contents, MaskedBuffers.covered, MaskedBuffers.data_len]
  split
  · apply Nat.add_le_add_left
    rw [← List.length_flatten, ← List.length_flatten]
    split
    · exact Nat.le_refl _
    · have whole := congrArg List.flatten
        (List.take_append_drop (min 2 (bufs.buffers.length - 1)) bufs.buffers)
      rw [← whole, List.flatten_append, List.length_append]
      exact Nat.le_add_right _ _
  · exact Nat.zero_le _

end Frames

/-- The state in which the bytes of a frame have arrived, and nothing else. -/
def onlyFrame (socket : SOCKET) (frame : WireFrame) : Transport :=
  { sockets :=
      { kernel := Function.update (fun _ => ⟨[], .connected⟩) socket ⟨frame.bytes, .connected⟩
        def_queue := .empty
        queues := [] }
    in_frames := []
    frame_buffer := []
    frame_buffer_index := 0
    pongs := [] }

theorem carries_onlyFrame {socket : SOCKET} (positive : 0 < socket) (frame : WireFrame) :
    Carries (onlyFrame socket frame) socket [frame] [] [] := by
  have idle : (onlyFrame socket frame).sockets.Idle := ⟨List.nodup_nil, rfl⟩
  have noData : ((onlyFrame socket frame).sockets.queue socket).buf = [] := by
    rw [Sockets.queue_of_empty (by simp [onlyFrame, SocketBuffer.find]) rfl positive]
    rfl
  refine ⟨frame.bytes, ⟨idle, noData, rfl, Nat.zero_le _, Nat.zero_le _, ?_, ?_⟩, ?_, ?_, by simp⟩
  · simp [onlyFrame]
  · simp [onlyFrame]
  · simp [wire]
  · simp [wire]

/--
**Masked frames**

What is delivered of a frame is its data without the mask exactly when the key is zero wherever the
frame has data; and what is delivered of a frame that was built are the buffers exactly when the
mask is zero wherever it was put on.
-/
theorem frameCodec_iff {t : Transport} {socket : SOCKET} {later : List WireFrame} {coming : Bytes}
    {net : Net} (positive : 0 < socket) (isNet : net.socket = socket)
    (isWebSocket : net.websocket = true) (unlinked : t.in_frames = []) :
    (∀ frame, Carries t socket [frame] later coming →
      (Delivers t net frame (unmasked frame) ↔ KeyIsZero frame.key frame.payload.length)) ∧
    ∀ opcode mask_data random pbuf0 bufs valid isRandom fits,
      let frame := builtFrame opcode mask_data random pbuf0 bufs valid isRandom fits
      frame.bytes = builtBytes opcode mask_data random pbuf0 bufs ∧
        (Carries t socket [frame] later coming →
          (Delivers t net frame (bufs.contents pbuf0) ↔
            KeyIsZero (bufs.key mask_data random) (bufs.covered mask_data pbuf0))) := by
  constructor
  · intro frame carries
    exact delivers_unmasked_iff carries positive isNet isWebSocket unlinked
  · intro opcode mask_data random pbuf0 bufs valid isRandom fits frame
    refine ⟨bytes_builtFrame valid isRandom fits, fun carries => ?_⟩
    rw [delivers_iff carries positive isNet isWebSocket unlinked]
    have length : ((bufs.contents pbuf0).take (bufs.covered mask_data pbuf0)).length =
        bufs.covered mask_data pbuf0 :=
      List.length_take_of_le covered_le
    have whole : bufs.contents pbuf0 = (bufs.contents pbuf0).take (bufs.covered mask_data pbuf0) ++
        (bufs.contents pbuf0).drop (bufs.covered mask_data pbuf0) :=
      (List.take_append_drop _ _).symm
    have payload : bufs.contents pbuf0 = frame.payload ↔
        xorKey (bufs.key mask_data random) 0
          ((bufs.contents pbuf0).take (bufs.covered mask_data pbuf0)) =
            (bufs.contents pbuf0).take (bufs.covered mask_data pbuf0) := by
      change bufs.contents pbuf0 = xorKey _ _ _ ++ _ ↔ _
      constructor
      · intro same
        exact (List.append_inj (whole.symm.trans same) (by simp)).1.symm
      · intro same
        rw [same]
        exact whole
    rw [payload, xorKey_zero_eq_iff, length]

/-- A frame without a mask. -/
theorem frameCodec_iff_unmasked :
    Delivers (onlyFrame 5 ⟨130, 1, [], [], [97], rfl, rfl, rfl, rfl⟩) ⟨5, true, none⟩
      ⟨130, 1, [], [], [97], rfl, rfl, rfl, rfl⟩ [97] := by
  let frame : WireFrame := ⟨130, 1, [], [], [97], rfl, rfl, rfl, rfl⟩
  have delivers := (@frameCodec_iff (onlyFrame 5 frame) 5 [] [] ⟨5, true, none⟩ (by decide)
    rfl rfl rfl).1
    frame (carries_onlyFrame (by decide) frame)
  have data : unmasked frame = [97] := xorKey_nil 0 [97]
  rw [data] at delivers
  exact delivers.mpr fun i inside => rfl

/-- A byte that was masked with 1. -/
theorem frameCodec_not_inverse :
    ¬Delivers (onlyFrame 5 ⟨130, 129, [], [1, 2, 3, 4], [96], rfl, rfl, rfl, rfl⟩) ⟨5, true, none⟩
      ⟨130, 129, [], [1, 2, 3, 4], [96], rfl, rfl, rfl, rfl⟩ [97] := by
  let frame : WireFrame := ⟨130, 129, [], [1, 2, 3, 4], [96], rfl, rfl, rfl, rfl⟩
  have carries := carries_onlyFrame (show 0 < 5 by decide) frame
  rw [delivers_iff carries (by decide) rfl rfl rfl]
  decide

end WebSocket

end Paho
