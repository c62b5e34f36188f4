import Paho.Codec.PublishPackets
import Paho.Transport.FrameCodec
import Mathlib.Algebra.Order.BigOperators.Group.List

/-!
# Publications that are sent in masked frames

`MQTTPacket_send_publish` over a WebSocket connection. `WebSocket_buildFrame` puts the mask on the
topic and the payload of the stored publication themselves, and `WebSocket_putdatas` takes it off
again, unless the write is interrupted; then the next attempt begins with masked buffers.
-/

namespace Paho

open PropertyReader

namespace WebSocket

open WireFrame

/-- `WebSocket_unmaskData` on the buffers: the mask runs over them from place `idx` on. -/
def unmaskData (key : Bytes) : Nat → List Bytes → List Bytes
  | _, [] => []
  | idx, buffer :: rest => xorKey key idx buffer :: unmaskData key (idx + buffer.length) rest

/-- `WebSocket_putdatas`, with what `Socket_putdatas` returns: the buffers after it and their
mask. -/
def putdatas (rc : CompletionCode) (random : Bytes) (isRandom : random.length = 4) (pbuf0 : Bytes)
    (bufs : MaskedBuffers) : MaskedBuffers :=
  let buffers := (buildFrame opBinary true random pbuf0 bufs).2
  if rc = .interrupted then
    { buffers := buffers
      mask := bufs.key true random
      isMask := bufs.length_key true isRandom }
  else
    { buffers := unmaskData (bufs.key true random) pbuf0.length buffers
      mask := [0, 0, 0, 0]
      isMask := rfl }

theorem maskBuffers_new (key : Bytes) (count i idx : Nat) (buffers : List Bytes) :
    maskBuffers key true count i idx buffers = unmaskData key idx buffers := by
  induction buffers generalizing i idx with
  | nil => rfl
  | cons buffer rest ih => simp [maskBuffers, unmaskData, ih]

theorem maskBuffers_two (key : Bytes) (count idx : Nat) (buffers : List Bytes) :
    maskBuffers key false count 2 idx buffers = buffers := by
  cases buffers with
  | nil => rfl
  | cons buffer rest => simp [maskBuffers]

theorem unmaskData_singleton (key : Bytes) (idx : Nat) (buffer : Bytes) :
    unmaskData key idx [buffer] = [xorKey key idx buffer] :=
  rfl

theorem unmaskData_append (key : Bytes) (idx : Nat) (left right : List Bytes) :
    unmaskData key idx (left ++ right) =
      unmaskData key idx left ++ unmaskData key (idx + left.flatten.length) right := by
  induction left generalizing idx with
  | nil => rfl
  | cons buffer left ih => simp [unmaskData, ih, Nat.add_assoc]

theorem unmaskData_unmaskData (key : Bytes) (idx : Nat) (buffers : List Bytes) :
    unmaskData key idx (unmaskData key idx buffers) = buffers := by
  induction buffers generalizing idx with
  | nil => rfl
  | cons buffer rest ih => simp [unmaskData, xorKey_xorKey, ih]

/-- The bytes of a frame are those of no other frame. -/
theorem bytes_inj {frame frame' : WireFrame} (same : frame.bytes = frame'.bytes) :
    frame = frame' := by
  rcases frame with ⟨first, second, extended, key, payload, isOpcode, isExtended, isKey, isLength⟩
  rcases frame' with ⟨first', second', extended', key', payload', isOpcode', isExtended', isKey',
    isLength'⟩
  simp only [WireFrame.bytes, List.cons_append, List.nil_append, List.append_assoc,
    List.cons.injEq] at same
  rcases same with ⟨rfl, rfl, rest⟩
  rcases List.append_inj rest (isExtended.trans isExtended'.symm) with ⟨rfl, rest'⟩
  rcases List.append_inj rest' (isKey.trans isKey'.symm) with ⟨rfl, rfl⟩
  rfl

end WebSocket

namespace MaskedSends

open MQTTPacket WebSocket

/-- `Publications`: the buffers that are masked in place, and the mask that they have. -/
structure Stored where
  topic : Bytes
  payload : Bytes
  mask : Bytes
  isMask : mask.length = 4
  deriving DecidableEq

/-- An attempt to send a publication: what a new mask is made of, and what `Socket_putdatas`
returns. -/
structure Attempt where
  dup : Bool
  random : Bytes
  isRandom : random.length = 4
  rc : CompletionCode

/-- What an attempt puts in the store, if anything, and what it hands to the socket. -/
structure Sent where
  record : Option Bytes
  wire : Bytes
  deriving DecidableEq, Repr

section Attempts

variable (pack : PublishPacket) (qos : Nat) (retained : Bool)

/-- The fields of the packet, with the buffers that are stored. -/
def packetOf (p : Stored) : PublishPacket :=
  { pack with
    topic := p.topic
    payload := p.payload }

/-- The buffers of an attempt. -/
def buffersOf (p : Stored) : MaskedBuffers where
  buffers := (publishBuffers (packetOf pack p) qos).map fun buf => buf.buffer.take buf.buflen
  mask := p.mask
  isMask := p.isMask

/-- The fixed header. -/
def fixedHeader (dup : Bool) (p : Stored) : Bytes :=
  Header.byte ⟨publishType, dup, qos, retained⟩ ::
    encode (totalLength (publishBuffers (packetOf pack p) qos))

/-- `MQTTPacket_send_publish` on a WebSocket connection. The topic is masked as far as `strlen`
goes. It has no outcome when a buffer is shorter than its entry. -/
def sendPublish (a : Attempt) (p : Stored) : Option (Sent × Stored) :=
  if ∀ buf ∈ publishBuffers (packetOf pack p) qos, buf.buflen ≤ buf.buffer.length then
    let pbuf0 := fixedHeader pack qos retained a.dup p
    let bufs := buffersOf pack qos p
    let after := WebSocket.putdatas a.rc a.random a.isRandom pbuf0 bufs
    some
      ({ record := if qos = 0 then none else some (bufs.contents pbuf0)
         wire := builtBytes opBinary true a.random pbuf0 bufs },
        { topic := after.buffers.getD 1 [] ++ p.topic.drop (strlen p.topic)
          payload := after.buffers.getLastD []
          mask := after.mask
          isMask := after.isMask })
  else none

/-- The attempts one after the other. -/
def sendPublishes (p : Stored) : List Attempt → Option (List Sent × Stored)
  | [] => some ([], p)
  | a :: attempts =>
      (sendPublish pack qos retained a p).bind fun (sent, p) =>
        (sendPublishes p attempts).map fun (sents, p) => (sent :: sents, p)

/-- The publication before it is sent for the first time. -/
def stored : Stored where
  topic := pack.topic
  payload := pack.payload
  mask := [0, 0, 0, 0]
  isMask := rfl

/-- The place of the topic in the packet. -/
def topicPlace : Nat :=
  (encode (totalLength (publishBuffers pack qos))).length + 3

/-- The message id and the properties, behind the topic. -/
def variablePart : Bytes :=
  ((variableBuffer pack qos).map (·.buffer)).flatten

/-- The place of the payload in the packet. -/
def payloadPlace : Nat :=
  topicPlace pack qos + pack.topic.length + (variablePart pack qos).length

/-- The MQTT packet of the publication. -/
def packetBytes (dup : Bool) : Bytes :=
  Header.byte ⟨publishType, dup, qos, retained⟩ ::
    (encode (publishBody pack qos).length ++ publishBody pack qos)

/-- What is handed to the socket is one frame, and without its mask it has these bytes. -/
def Frames (wire bytes : Bytes) : Prop :=
  ∃ frame : WireFrame, frame.bytes = wire ∧ frame.opcode = opBinary ∧ frame.is_final = true ∧
    unmasked frame = bytes

/-- An attempt that sends the packet of the publication. -/
structure Sends (a : Attempt) (sent : Sent) : Prop where
  record : sent.record = if qos = 0 then none else some (packetBytes pack qos retained a.dup)
  frame : Frames sent.wire (packetBytes pack qos retained a.dup)

/-- The publication is left masked. -/
structure Masked (key : Bytes) (p : Stored) : Prop where
  topic : p.topic = xorKey key (topicPlace pack qos) pack.topic
  payload : p.payload = xorKey key (payloadPlace pack qos) pack.payload
  mask : p.mask = key

/-- The key changes none of the `n` bytes from a place on. -/
def ZeroAt (key : Bytes) (start n : Nat) : Prop :=
  ∀ i < n, key.getD ((start + i) % 4) 0 = 0

/-- The key changes nothing of the topic and the payload; and nothing of the message id and the
properties, if it is found again by its first byte. -/
structure Harmless (key : Bytes) : Prop where
  topic : ZeroAt key (topicPlace pack qos) pack.topic.length
  payload : ZeroAt key (payloadPlace pack qos) pack.payload.length
  between : key.headD 0 ≠ 0 →
    ZeroAt key (topicPlace pack qos + pack.topic.length) (variablePart pack qos).length

/-- Every interrupted attempt but the last one leaves a mask that does no harm. -/
def HarmlessRun (mask : Bytes) : List Attempt → Prop
  | [] => True
  | a :: attempts =>
      let key := if mask.headD 0 = 0 then a.random else mask
      if a.rc = .interrupted then
        (attempts ≠ [] → Harmless pack qos key) ∧ HarmlessRun key attempts
      else HarmlessRun [0, 0, 0, 0] attempts

/-- The buffers are those of the publication, and a mask that they have does no harm. -/
structure Kept (p : Stored) : Prop where
  topic : p.topic = pack.topic
  payload : p.payload = pack.payload
  mask : p.mask.headD 0 ≠ 0 → Harmless pack qos p.mask

/-- A packet with this topic, and with this behind the topic. -/
def assembled (dup : Bool) (topic rest : Bytes) : Bytes :=
  Header.byte ⟨publishType, dup, qos, retained⟩ ::
    (encode (2 + topic.length + rest.length) ++ (writeInt topic.length ++ (topic ++ rest)))

end Attempts

section Attempts

variable {pack : PublishPacket} {qos : Nat} {retained dup : Bool} {p : Stored} {a : Attempt}
  {key : Bytes}

theorem length_writeInt (n : Nat) : (writeInt n).length = 2 :=
  rfl

/-- Packets of one length behind the topic are equal only with equal parts. -/
theorem assembled_inj {topic topic' rest rest' : Bytes} (sameLength : rest.length = rest'.length)
    (fits : 2 + topic.length + rest.length < 268435456)
    (fits' : 2 + topic'.length + rest'.length < 268435456) :
    assembled qos retained dup topic rest = assembled qos retained dup topic' rest' ↔
      topic = topic' ∧ rest = rest' := by
  constructor
  · intro same
    rw [assembled, assembled, List.cons.injEq] at same
    have read := remainingLength_encode fits (writeInt topic.length ++ (topic ++ rest))
    rw [same.2, remainingLength_encode fits'] at read
    injection read with sameTotal sameBody
    have topicLength : topic.length = topic'.length := by omega
    rcases List.append_inj sameBody.symm rfl with ⟨-, sameRest⟩
    exact List.append_inj sameRest topicLength
  · rintro ⟨rfl, rfl⟩
    rfl

theorem take_strlen (noNul : 0 ∉ pack.topic) {topic : Bytes}
    (sameLength : topic.length = pack.topic.length) :
    topic.take (strlen topic) = pack.topic ↔ topic = pack.topic := by
  constructor
  · intro same
    have whole : topic.length ≤ strlen topic := by
      have length := congrArg List.length same
      rw [List.length_take] at length
      omega
    rwa [List.take_of_length_le whole] at same
  · rintro rfl
    rw [strlen_of_noNul noNul, List.take_length]

theorem strlen_le (string : Bytes) : strlen string ≤ string.length :=
  (List.takeWhile_prefix _).length_le

/-- The buffers behind the fixed header: the length of the topic, the topic, those of the message
id and the properties if they are there, and the payload. -/
theorem buffersOf_eq (sendable : pack.Sendable qos) (p : Stored) :
    (buffersOf pack qos p).buffers =
      (writeInt (strlen p.topic) :: p.topic.take (strlen p.topic) ::
        (variableBuffer pack qos).map (·.buffer)) ++ [p.payload] := by
  have whole : ((variableBuffer pack qos).map fun buf => buf.buffer.take buf.buflen) =
      (variableBuffer pack qos).map (·.buffer) := by
    apply List.map_congr_left
    intro buf mem
    rw [show buf.buflen = buf.buffer.length from exact_variableBuffer sendable buf mem,
      List.take_length]
  have sameVariable : variableBuffer (packetOf pack p) qos = variableBuffer pack qos := rfl
  rw [buffersOf, publishBuffers, List.map_cons, List.map_cons, List.map_append, sameVariable, whole]
  simp [packetOf, writeInt]

/-- The remaining length of an attempt. -/
theorem totalLength_eq (sendable : pack.Sendable qos) (p : Stored) :
    totalLength (publishBuffers (packetOf pack p) qos) =
      2 + strlen p.topic + ((variablePart pack qos).length + p.payload.length) := by
  have whole : (variableBuffer pack qos).map (·.buflen) =
      ((variableBuffer pack qos).map (·.buffer)).map List.length := by
    rw [List.map_map]
    exact List.map_congr_left (exact_variableBuffer sendable)
  have sameVariable : variableBuffer (packetOf pack p) qos = variableBuffer pack qos := rfl
  rw [totalLength, publishBuffers, List.map_cons, List.map_cons, List.map_append, sameVariable,
    whole, variablePart, List.length_flatten]
  simp only [packetOf, List.map_cons, List.map_nil, List.sum_cons, List.sum_append, List.sum_nil]
  omega

theorem length_take_strlen (string : Bytes) :
    (string.take (strlen string)).length = strlen string := by
  rw [List.length_take, Nat.min_eq_left (strlen_le string)]

/-- What an attempt puts in front of the bytes behind the topic. -/
theorem assembled_eq (sendable : pack.Sendable qos) (p : Stored) {rest : Bytes}
    (isLength : rest.length = (variablePart pack qos).length + p.payload.length) :
    assembled qos retained dup (p.topic.take (strlen p.topic)) rest =
      (fixedHeader pack qos retained dup p ++ (writeInt (strlen p.topic) ++
        p.topic.take (strlen p.topic))) ++ rest := by
  rw [assembled, fixedHeader, totalLength_eq sendable, length_take_strlen, isLength]
  simp only [List.cons_append, List.append_assoc]

/-- The bytes of an attempt, before the mask. -/
theorem contents_eq (sendable : pack.Sendable qos) (p : Stored) :
    (buffersOf pack qos p).contents (fixedHeader pack qos retained dup p) =
      assembled qos retained dup (p.topic.take (strlen p.topic))
        (variablePart pack qos ++ p.payload) := by
  rw [MaskedBuffers.contents, buffersOf_eq sendable, assembled_eq sendable p List.length_append,
    variablePart]
  simp only [List.flatten_append, List.flatten_cons, List.flatten_nil, List.append_nil,
    List.append_assoc]

/-- The packet, with its parts. -/
theorem packetBytes_eq (sendable : pack.Sendable qos) :
    packetBytes pack qos retained dup =
      assembled qos retained dup pack.topic (variablePart pack qos ++ pack.payload) := by
  have body : publishBody pack qos =
      writeInt pack.topic.length ++ (pack.topic ++ (variablePart pack qos ++ pack.payload)) := by
    simp [publishBody, publishBuffers, variablePart, strlen_of_noNul sendable.noNul,
      List.flatMap_def]
  rw [packetBytes, assembled, body]
  simp only [List.length_append, length_writeInt, Nat.add_assoc]

/-- The packet with these buffers is not too long for a frame. -/
theorem data_len_lt (fits : totalLength (publishBuffers (packetOf pack p) qos) ≤ 268435455) :
    (buffersOf pack qos p).data_len (fixedHeader pack qos retained dup p) <
      18446744073709551615 := by
  have short : (encode (totalLength (publishBuffers (packetOf pack p) qos))).length ≤ 4 := by
    rw [length_encode (Nat.lt_succ_of_le fits)]
    exact vbiLen_le _
  have shorter : ((buffersOf pack qos p).buffers.map List.length).sum ≤
      totalLength (publishBuffers (packetOf pack p) qos) := by
    rw [buffersOf, List.map_map]
    apply List.sum_le_sum
    intro buf mem
    exact (List.length_take_le buf.buflen buf.buffer)
  rw [MaskedBuffers.data_len, fixedHeader, List.length_cons]
  omega

/-- The frame that is built. -/
theorem frames_iff {random pbuf0 bytes : Bytes} {bufs : MaskedBuffers}
    (valid : validOpcode (opBinary % 16) = true) (isRandom : random.length = 4)
    (fits : bufs.data_len pbuf0 < 18446744073709551615) :
    Frames (builtBytes opBinary true random pbuf0 bufs) bytes ↔
      unmasked (builtFrame opBinary true random pbuf0 bufs valid isRandom fits) = bytes := by
  have isBytes := @bytes_builtFrame opBinary true random pbuf0 bufs valid isRandom fits
  constructor
  · rintro ⟨frame, same, -, -, data⟩
    rw [← isBytes] at same
    rwa [← bytes_inj same]
  · have isOpcode : (UInt8.ofNat (128 + opBinary % 16)).toNat % 16 = opBinary := by decide
    have isFinal : decide (128 ≤ (UInt8.ofNat (128 + opBinary % 16)).toNat) = true := by decide
    exact fun data => ⟨_, isBytes, isOpcode, isFinal, data⟩

/-- Without a mask a new one is made. -/
theorem new_mask_iff : (buffersOf pack qos p).new_mask true = true ↔ p.mask.headD 0 = 0 := by
  simp [MaskedBuffers.new_mask, buffersOf]

/-- A frame with a new mask has the buffers as they are. -/
theorem frames_new (fits : totalLength (publishBuffers (packetOf pack p) qos) ≤ 268435455)
    (noMask : p.mask.headD 0 = 0) {random bytes : Bytes} (isRandom : random.length = 4) :
    Frames (builtBytes opBinary true random (fixedHeader pack qos retained dup p)
        (buffersOf pack qos p)) bytes ↔
      (buffersOf pack qos p).contents (fixedHeader pack qos retained dup p) = bytes := by
  have valid : validOpcode (opBinary % 16) = true := rfl
  rw [frames_iff valid isRandom (data_len_lt fits),
    unmasked_builtFrame valid isRandom (data_len_lt fits) (.inr (new_mask_iff.mpr noMask))]

/-- In a frame with the mask that was there before, the mask is on nothing behind the topic. -/
theorem frames_old (sendable : pack.Sendable qos)
    (fits : totalLength (publishBuffers (packetOf pack p) qos) ≤ 268435455)
    (isMasked : p.mask.headD 0 ≠ 0) {random bytes : Bytes} (isRandom : random.length = 4) :
    Frames (builtBytes opBinary true random (fixedHeader pack qos retained dup p)
        (buffersOf pack qos p)) bytes ↔
      assembled qos retained dup (p.topic.take (strlen p.topic))
        (xorKey p.mask ((fixedHeader pack qos retained dup p).length + 2 + strlen p.topic)
          (variablePart pack qos ++ p.payload)) = bytes := by
  have valid : validOpcode (opBinary % 16) = true := rfl
  have isOld : (buffersOf pack qos p).new_mask true = false := by
    rw [Bool.eq_false_iff]
    exact fun isNew => isMasked (new_mask_iff.mp isNew)
  have isKey : (buffersOf pack qos p).key true random = p.mask := by
    rw [MaskedBuffers.key, isOld]
    rfl
  have front : (buffersOf pack qos p).buffers.take
      (min 2 ((buffersOf pack qos p).buffers.length - 1)) =
        [writeInt (strlen p.topic), p.topic.take (strlen p.topic)] := by
    have two : min 2 ((buffersOf pack qos p).buffers.length - 1) = 2 := by
      rw [buffersOf_eq sendable]
      simp only [List.length_append, List.length_cons, List.length_nil]
      omega
    rw [two, buffersOf_eq sendable]
    rfl
  have covered : (buffersOf pack qos p).covered true (fixedHeader pack qos retained dup p) =
      (fixedHeader pack qos retained dup p ++ (writeInt (strlen p.topic) ++
        p.topic.take (strlen p.topic))).length := by
    rw [MaskedBuffers.covered, if_pos rfl, isOld, if_neg Bool.false_ne_true, front]
    simp only [List.length_append, List.map_cons, List.map_nil, List.sum_cons, List.sum_nil,
      Nat.add_zero]
  have length : (fixedHeader pack qos retained dup p ++ (writeInt (strlen p.topic) ++
      p.topic.take (strlen p.topic))).length =
        (fixedHeader pack qos retained dup p).length + 2 + strlen p.topic := by
    rw [List.length_append, List.length_append, length_writeInt, length_take_strlen, Nat.add_assoc]
  rw [frames_iff valid isRandom (data_len_lt fits), unmasked]
  simp only [builtFrame, if_true, isKey, contents_eq sendable, covered]
  rw [assembled_eq sendable p List.length_append, List.take_left, List.drop_left, xorKey_append,
    xorKey_xorKey, Nat.zero_add, length_xorKey, length,
    assembled_eq sendable p ((length_xorKey _ _ _).trans List.length_append)]

/-- The buffers of an attempt are as long as it says. -/
theorem fit_buffers (sendable : pack.Sendable qos) (p : Stored) :
    ∀ buf ∈ publishBuffers (packetOf pack p) qos, buf.buflen ≤ buf.buffer.length := by
  have variableFits : ∀ buf ∈ variableBuffer (packetOf pack p) qos,
      buf.buflen ≤ buf.buffer.length := fun buf mem =>
    Nat.le_of_eq (exact_variableBuffer sendable buf mem)
  simp only [publishBuffers, List.forall_mem_cons, List.forall_mem_append]
  exact ⟨Nat.le_refl 2, strlen_le p.topic, variableFits, Nat.le_refl _, by simp⟩

theorem stored_fits (sendable : pack.Sendable qos) :
    totalLength (publishBuffers (packetOf pack (stored pack)) qos) ≤ 268435455 :=
  sendable.fits

/-- The payload is behind the other buffers. -/
theorem payloadPlace_eq (dup : Bool) :
    (fixedHeader pack qos retained dup (stored pack)).length +
        (writeInt pack.topic.length :: pack.topic ::
          (variableBuffer pack qos).map (·.buffer)).flatten.length = payloadPlace pack qos := by
  have isTopicPlace : (fixedHeader pack qos retained dup (stored pack)).length + 2 =
      topicPlace pack qos := rfl
  rw [payloadPlace, ← isTopicPlace, variablePart, List.flatten_cons, List.flatten_cons,
    List.length_append, List.length_append, length_writeInt]
  omega

theorem xorKey_zeroAt {start : Nat} {bytes : Bytes} (zero : ZeroAt key start bytes.length) :
    xorKey key start bytes = bytes :=
  (xorKey_eq_iff start bytes).mpr zero

/-- The buffers of a publication that is kept. -/
theorem buffersOf_kept (sendable : pack.Sendable qos) (kept : Kept pack qos p) :
    (buffersOf pack qos p).buffers = (writeInt pack.topic.length :: pack.topic ::
      (variableBuffer pack qos).map (·.buffer)) ++ [pack.payload] := by
  rw [buffersOf_eq sendable, kept.topic, kept.payload, strlen_of_noNul sendable.noNul,
    List.take_length]

theorem fixedHeader_kept (kept : Kept pack qos p) (dup : Bool) :
    fixedHeader pack qos retained dup p = fixedHeader pack qos retained dup (stored pack) := by
  rw [fixedHeader, packetOf, kept.topic, kept.payload]
  rfl

theorem contents_kept (sendable : pack.Sendable qos) (kept : Kept pack qos p) :
    (buffersOf pack qos p).contents (fixedHeader pack qos retained dup p) =
      packetBytes pack qos retained dup := by
  rw [contents_eq sendable, packetBytes_eq sendable, kept.topic, kept.payload,
    strlen_of_noNul sendable.noNul, List.take_length]

theorem kept_fits (sendable : pack.Sendable qos) (kept : Kept pack qos p) :
    totalLength (publishBuffers (packetOf pack p) qos) ≤ 268435455 := by
  rw [packetOf, kept.topic, kept.payload]
  exact sendable.fits

/-- An attempt from a publication without a mask. -/
theorem sendPublish_new (sendable : pack.Sendable qos) (retained : Bool) (kept : Kept pack qos p)
    (noMask : p.mask.headD 0 = 0) (a : Attempt) :
    ∃ sent p', sendPublish pack qos retained a p = some (sent, p') ∧
      Sends pack qos retained a sent ∧ (a.rc ≠ .interrupted → p' = stored pack) ∧
      (a.rc = .interrupted → Masked pack qos a.random p') := by
  have isNew : (buffersOf pack qos p).new_mask true = true := new_mask_iff.mpr noMask
  have isKey : (buffersOf pack qos p).key true a.random = a.random := by
    rw [MaskedBuffers.key, isNew]
    rfl
  have isBuffers := buffersOf_kept sendable kept
  have isHeader := @fixedHeader_kept pack qos retained p kept a.dup
  have isContents := @contents_kept pack qos retained a.dup p sendable kept
  have noRest : p.topic.drop (strlen p.topic) = [] := by
    rw [kept.topic, strlen_of_noNul sendable.noNul, List.drop_length]
  have built : (buildFrame opBinary true a.random
      (fixedHeader pack qos retained a.dup (stored pack)) (buffersOf pack qos p)).2 =
        unmaskData a.random (fixedHeader pack qos retained a.dup (stored pack)).length
          (buffersOf pack qos p).buffers := by
    rw [buildFrame, isKey, isNew, if_pos rfl, maskBuffers_new]
  refine ⟨_, _, if_pos (fit_buffers sendable _), ⟨?_, ?_⟩, ?_, ?_⟩
  · rw [isContents]
  · exact (frames_new (kept_fits sendable kept) noMask a.isRandom).mpr isContents
  · intro whole
    simp only [WebSocket.putdatas, if_neg whole, isHeader, built, isKey, unmaskData_unmaskData,
      isBuffers, List.getLastD_concat, noRest]
    simp [stored]
  · intro interrupted
    simp only [WebSocket.putdatas, if_pos interrupted, built, isKey, isBuffers, unmaskData_append,
      unmaskData_singleton, List.getLastD_concat, isHeader, payloadPlace_eq, noRest]
    refine ⟨?_, rfl, rfl⟩
    simp only [unmaskData, List.cons_append, List.getD_cons_succ, List.getD_cons_zero,
      List.append_nil, length_writeInt]
    rfl

/-- The next attempt after an interrupted one. It puts the packet in the store exactly with a mask
that changes nothing. The frame has the packet exactly if the mask changes nothing of the topic, nor
of what is put under the mask once too often or once too few. -/
theorem sendPublish_masked (sendable : pack.Sendable qos) (retained : Bool)
    (masked : Masked pack qos key p) (a : Attempt) :
    ∃ sent p', sendPublish pack qos retained a p = some (sent, p') ∧
      (0 < qos → (sent.record = some (packetBytes pack qos retained a.dup) ↔
        ZeroAt key (topicPlace pack qos) pack.topic.length ∧
          ZeroAt key (payloadPlace pack qos) pack.payload.length)) ∧
      (Frames sent.wire (packetBytes pack qos retained a.dup) ↔
        ZeroAt key (topicPlace pack qos) pack.topic.length ∧
          if key.headD 0 = 0 then ZeroAt key (payloadPlace pack qos) pack.payload.length
          else ZeroAt key (topicPlace pack qos + pack.topic.length)
            (variablePart pack qos).length) := by
  have topicLength : p.topic.length = pack.topic.length := by
    rw [masked.topic, length_xorKey]
  have payloadLength : p.payload.length = pack.payload.length := by
    rw [masked.payload, length_xorKey]
  have stringLength : strlen pack.topic = pack.topic.length := strlen_of_noNul sendable.noNul
  have total := totalLength_eq sendable (stored pack)
  have fits := stored_fits sendable
  have total' := totalLength_eq sendable p
  have shorter := strlen_le p.topic
  simp only [stored] at total fits
  have fits' : totalLength (publishBuffers (packetOf pack p) qos) ≤ 268435455 := by omega
  have isTopic : p.topic.take (strlen p.topic) = pack.topic ↔
      ZeroAt key (topicPlace pack qos) pack.topic.length := by
    rw [take_strlen sendable.noNul topicLength, masked.topic, xorKey_eq_iff]
    rfl
  have same {rest : Bytes}
      (isLength : rest.length = (variablePart pack qos).length + pack.payload.length) :
      assembled qos retained a.dup (p.topic.take (strlen p.topic)) rest =
          packetBytes pack qos retained a.dup ↔
        p.topic.take (strlen p.topic) = pack.topic ∧
          rest = variablePart pack qos ++ pack.payload := by
    rw [packetBytes_eq sendable]
    apply assembled_inj
    · rw [isLength, List.length_append]
    · rw [length_take_strlen, isLength]
      omega
    · rw [List.length_append]
      omega
  have isContents : assembled qos retained a.dup (p.topic.take (strlen p.topic))
      (variablePart pack qos ++ p.payload) = packetBytes pack qos retained a.dup ↔
        ZeroAt key (topicPlace pack qos) pack.topic.length ∧
          ZeroAt key (payloadPlace pack qos) pack.payload.length := by
    rw [same (by rw [List.length_append, payloadLength]), isTopic, List.append_cancel_left_eq,
      masked.payload, xorKey_eq_iff]
    rfl
  refine ⟨_, _, if_pos (fit_buffers sendable p), ?_, ?_⟩
  · intro positive
    rw [if_neg (Nat.ne_of_gt positive), Option.some.injEq, contents_eq sendable]
    exact isContents
  · by_cases noMask : key.headD 0 = 0
    · rw [if_pos noMask, frames_new fits' (masked.mask ▸ noMask) a.isRandom, contents_eq sendable]
      exact isContents
    · rw [if_neg noMask, frames_old sendable fits' (masked.mask ▸ noMask) a.isRandom,
        same (by rw [length_xorKey, List.length_append, payloadLength]), isTopic]
      apply and_congr_right
      intro zero
      have wholeTopic : strlen p.topic = pack.topic.length := by
        rw [← length_take_strlen, isTopic.mpr zero]
      have isTotal : (fixedHeader pack qos retained a.dup p).length + 2 = topicPlace pack qos := by
        rw [fixedHeader, total', wholeTopic, payloadLength, topicPlace, List.length_cons]
        have total'' := totalLength_eq sendable (stored pack)
        rw [show packetOf pack (stored pack) = pack from rfl] at total''
        simp only [stored, stringLength] at total''
        rw [total'']
      have place : topicPlace pack qos + pack.topic.length + (variablePart pack qos).length =
          payloadPlace pack qos := rfl
      rw [isTotal, wholeTopic, masked.mask, xorKey_append, place, masked.payload, xorKey_xorKey,
        List.append_cancel_right_eq, xorKey_eq_iff]
      rfl

/-- The next attempt after an interrupted one is right exactly if its mask does no harm. -/
theorem Masked.sends_iff (masked : Masked pack qos key p) (sendable : pack.Sendable qos)
    (positive : 0 < qos) {sent : Sent} {p' : Stored}
    (isSent : sendPublish pack qos retained a p = some (sent, p')) :
    Sends pack qos retained a sent ↔ Harmless pack qos key := by
  rcases sendPublish_masked sendable retained masked a with ⟨sent', p'', isSent', record, frame⟩
  rw [isSent'] at isSent
  injection isSent with same
  injection same with same
  subst same
  have isRecord := record positive
  constructor
  · intro sends
    have recorded := sends.record
    rw [if_neg (Nat.ne_of_gt positive)] at recorded
    rcases isRecord.mp recorded with ⟨topic, payload⟩
    refine ⟨topic, payload, fun isMasked => ?_⟩
    have between := (frame.mp sends.frame).2
    rwa [if_neg isMasked] at between
  · intro harmless
    refine ⟨?_, frame.mpr ⟨harmless.topic, ?_⟩⟩
    · rw [if_neg (Nat.ne_of_gt positive)]
      exact isRecord.mpr ⟨harmless.topic, harmless.payload⟩
    · split
      next => exact harmless.payload
      next isMasked => exact harmless.between isMasked

theorem Masked.kept (masked : Masked pack qos key p) (harmless : Harmless pack qos key) :
    Kept pack qos p where
  topic := masked.topic.trans (xorKey_zeroAt harmless.topic)
  payload := masked.payload.trans (xorKey_zeroAt harmless.payload)
  mask := fun _ => masked.mask ▸ harmless

theorem Kept.masked (kept : Kept pack qos p) (isMasked : p.mask.headD 0 ≠ 0) :
    Masked pack qos p.mask p where
  topic := kept.topic.trans (xorKey_zeroAt (kept.mask isMasked).topic).symm
  payload := kept.payload.trans (xorKey_zeroAt (kept.mask isMasked).payload).symm
  mask := rfl

/-- An attempt with a mask that was there before and does no harm. -/
theorem sendPublish_old (sendable : pack.Sendable qos) (positive : 0 < qos) (retained : Bool)
    (kept : Kept pack qos p) (isMasked : p.mask.headD 0 ≠ 0) (a : Attempt) :
    ∃ sent p', sendPublish pack qos retained a p = some (sent, p') ∧
      Sends pack qos retained a sent ∧ (a.rc ≠ .interrupted → p' = stored pack) ∧
      (a.rc = .interrupted → Masked pack qos p.mask p') := by
  have harmless := kept.mask isMasked
  have isOld : (buffersOf pack qos p).new_mask true = false := by
    rw [Bool.eq_false_iff]
    exact fun isNew => isMasked (new_mask_iff.mp isNew)
  have isKey : (buffersOf pack qos p).key true a.random = p.mask := by
    rw [MaskedBuffers.key, isOld]
    rfl
  have isBuffers := buffersOf_kept sendable kept
  have isHeader := @fixedHeader_kept pack qos retained p kept a.dup
  have noRest : p.topic.drop (strlen p.topic) = [] := by
    rw [kept.topic, strlen_of_noNul sendable.noNul, List.drop_length]
  have isTopic : xorKey p.mask (topicPlace pack qos) pack.topic = pack.topic :=
    xorKey_zeroAt harmless.topic
  have isPayload : xorKey p.mask (payloadPlace pack qos) pack.payload = pack.payload :=
    xorKey_zeroAt harmless.payload
  have isTopicPlace : (fixedHeader pack qos retained a.dup (stored pack)).length + 2 =
      topicPlace pack qos := rfl
  have built : (buildFrame opBinary true a.random
      (fixedHeader pack qos retained a.dup (stored pack)) (buffersOf pack qos p)).2 =
        (xorKey p.mask (fixedHeader pack qos retained a.dup (stored pack)).length
          (writeInt pack.topic.length) :: pack.topic :: (variableBuffer pack qos).map (·.buffer)) ++
            [pack.payload] := by
    rw [buildFrame, isKey, isOld, if_pos rfl, isBuffers]
    simp only [List.cons_append, maskBuffers, length_writeInt, isTopicPlace, isTopic]
    rw [if_neg (by simp), if_neg (by simp), maskBuffers_two]
  refine ⟨_, _, if_pos (fit_buffers sendable _), ?_, ?_, ?_⟩
  · exact ((kept.masked isMasked).sends_iff sendable positive
      (if_pos (fit_buffers sendable _))).mpr harmless
  · intro whole
    have place := @payloadPlace_eq pack qos retained a.dup
    rw [List.flatten_cons, List.length_append, ← length_xorKey p.mask
      (fixedHeader pack qos retained a.dup (stored pack)).length (writeInt pack.topic.length),
      ← List.length_append, ← List.flatten_cons] at place
    simp only [WebSocket.putdatas, if_neg whole, isHeader, built, isKey, unmaskData_append,
      unmaskData_singleton, List.getLastD_concat, noRest, place, isPayload]
    simp only [unmaskData, List.cons_append, List.getD_cons_succ, List.getD_cons_zero,
      List.append_nil, length_xorKey, length_writeInt, isTopicPlace, isTopic]
    rfl
  · intro interrupted
    simp only [WebSocket.putdatas, if_pos interrupted, isHeader, built, isKey, List.getLastD_concat,
      noRest]
    refine ⟨?_, isPayload.symm, rfl⟩
    rw [isTopic]
    simp

/-- The step of a run. -/
theorem Kept.sendPublish (kept : Kept pack qos p) (sendable : pack.Sendable qos)
    (positive : 0 < qos) (retained : Bool) (a : Attempt) :
    ∃ sent p', sendPublish pack qos retained a p = some (sent, p') ∧
      Sends pack qos retained a sent ∧ (a.rc ≠ .interrupted → p' = stored pack) ∧
      (a.rc = .interrupted →
        Masked pack qos (if p.mask.headD 0 = 0 then a.random else p.mask) p') := by
  by_cases noMask : p.mask.headD 0 = 0
  · rw [if_pos noMask]
    exact sendPublish_new sendable retained kept noMask a
  · rw [if_neg noMask]
    exact sendPublish_old sendable positive retained kept noMask a

theorem kept_stored : Kept pack qos (stored pack) :=
  ⟨rfl, rfl, fun isMasked => absurd rfl isMasked⟩

/-- Attempts always have an outcome. -/
theorem exists_sendPublish (sendable : pack.Sendable qos) (retained : Bool) (p : Stored)
    (a : Attempt) : ∃ sent p', sendPublish pack qos retained a p = some (sent, p') :=
  ⟨_, _, if_pos (fit_buffers sendable p)⟩

theorem exists_sendPublishes (sendable : pack.Sendable qos) (retained : Bool) (p : Stored)
    (attempts : List Attempt) :
    ∃ sents p', sendPublishes pack qos retained p attempts = some (sents, p') := by
  induction attempts generalizing p with
  | nil => exact ⟨[], p, rfl⟩
  | cons a attempts ih =>
      rcases exists_sendPublish sendable retained p a with ⟨sent, p₁, isSent⟩
      rcases ih p₁ with ⟨sents, p', areSent⟩
      exact ⟨sent :: sents, p', by simp [sendPublishes, isSent, areSent]⟩

theorem sendPublishes_cons {sent : Sent} {sents : List Sent} {p₁ p' : Stored}
    {attempts : List Attempt} (isSent : sendPublish pack qos retained a p = some (sent, p₁))
    (areSent : sendPublishes pack qos retained p₁ attempts = some (sents, p')) :
    sendPublishes pack qos retained p (a :: attempts) = some (sent :: sents, p') := by
  simp [sendPublishes, isSent, areSent]

/-- An attempt from a publication with a mask that does harm is wrong. -/
theorem Masked.not_sends (masked : Masked pack qos key p) (sendable : pack.Sendable qos)
    (positive : 0 < qos) (harms : ¬Harmless pack qos key) {attempts : List Attempt}
    {sents : List Sent} {p' : Stored} (notLast : attempts ≠ [])
    (areSent : sendPublishes pack qos retained p attempts = some (sents, p')) :
    ¬List.Forall₂ (Sends pack qos retained) attempts sents := by
  cases attempts with
  | nil => exact absurd rfl notLast
  | cons b attempts =>
      rcases exists_sendPublish sendable retained p b with ⟨sent, p₁, isSent⟩
      rcases exists_sendPublishes sendable retained p₁ attempts with ⟨others, p₂, areSent'⟩
      rw [sendPublishes_cons isSent areSent'] at areSent
      injection areSent with same
      injection same with same
      subst same
      intro all
      cases all with
      | cons first _ => exact harms ((masked.sends_iff sendable positive isSent).mp first)

theorem harmlessRun_interrupted {mask : Bytes} {attempts : List Attempt}
    (interrupted : a.rc = .interrupted) :
    HarmlessRun pack qos mask (a :: attempts) ↔
      (attempts ≠ [] → Harmless pack qos (if mask.headD 0 = 0 then a.random else mask)) ∧
        HarmlessRun pack qos (if mask.headD 0 = 0 then a.random else mask) attempts := by
  simp only [HarmlessRun, if_pos interrupted]

theorem harmlessRun_whole {mask : Bytes} {attempts : List Attempt}
    (whole : a.rc ≠ .interrupted) :
    HarmlessRun pack qos mask (a :: attempts) ↔
      HarmlessRun pack qos (stored pack).mask attempts := by
  simp only [HarmlessRun, if_neg whole]
  rfl

/-- The attempts are right exactly if the masks do no harm, and then the last one restores the
publication if it is not interrupted. -/
def Decided (pack : PublishPacket) (qos : Nat) (retained : Bool) (p : Stored)
    (attempts : List Attempt) : Prop :=
  ∃ sents p', sendPublishes pack qos retained p attempts = some (sents, p') ∧
    (List.Forall₂ (Sends pack qos retained) attempts sents ↔
      HarmlessRun pack qos p.mask attempts) ∧
    (HarmlessRun pack qos p.mask attempts →
      ∀ last, attempts.getLast? = some last → last.rc ≠ .interrupted → p' = stored pack)

section Steps

variable {sent : Sent} {p₁ : Stored} {attempts : List Attempt}

/-- Behind an attempt that is not interrupted. -/
theorem Decided.whole (isSent : sendPublish pack qos retained a p = some (sent, stored pack))
    (sends : Sends pack qos retained a sent) (whole : a.rc ≠ .interrupted)
    (decided : Decided pack qos retained (stored pack) attempts) :
    Decided pack qos retained p (a :: attempts) := by
  rcases decided with ⟨sents, p', areSent, all, restored⟩
  refine ⟨sent :: sents, p', sendPublishes_cons isSent areSent, ?_, ?_⟩
  · rw [harmlessRun_whole whole, List.forall₂_cons, all]
    exact and_iff_right sends
  · rw [harmlessRun_whole whole]
    intro run last isLast notInterrupted
    by_cases none : attempts = []
    · subst none
      cases areSent
      rfl
    · rw [List.getLast?_cons_of_ne_nil none] at isLast
      exact restored run last isLast notInterrupted

/-- Behind an interrupted attempt whose mask does no harm. -/
theorem Decided.interrupted (isSent : sendPublish pack qos retained a p = some (sent, p₁))
    (sends : Sends pack qos retained a sent) (interrupted : a.rc = .interrupted)
    (isMask : p₁.mask = if p.mask.headD 0 = 0 then a.random else p.mask)
    (harmless : Harmless pack qos p₁.mask) (notLast : attempts ≠ [])
    (decided : Decided pack qos retained p₁ attempts) :
    Decided pack qos retained p (a :: attempts) := by
  rcases decided with ⟨sents, p', areSent, all, restored⟩
  have rest : HarmlessRun pack qos p.mask (a :: attempts) ↔
      HarmlessRun pack qos p₁.mask attempts := by
    rw [harmlessRun_interrupted interrupted, ← isMask]
    exact and_iff_right fun _ => harmless
  refine ⟨sent :: sents, p', sendPublishes_cons isSent areSent, ?_, ?_⟩
  · rw [rest, List.forall₂_cons, all]
    exact and_iff_right sends
  · rw [rest, List.getLast?_cons_of_ne_nil notLast]
    exact restored

/-- Behind an interrupted attempt whose mask does harm. -/
theorem Decided.harms (isSent : sendPublish pack qos retained a p = some (sent, p₁))
    (interrupted : a.rc = .interrupted)
    (masked : Masked pack qos (if p.mask.headD 0 = 0 then a.random else p.mask) p₁)
    (sendable : pack.Sendable qos) (positive : 0 < qos)
    (harms : ¬Harmless pack qos (if p.mask.headD 0 = 0 then a.random else p.mask))
    (notLast : attempts ≠ []) : Decided pack qos retained p (a :: attempts) := by
  rcases exists_sendPublishes sendable retained p₁ attempts with ⟨sents, p', areSent⟩
  have harmsRun : ¬HarmlessRun pack qos p.mask (a :: attempts) := by
    rw [harmlessRun_interrupted interrupted]
    exact fun run => harms (run.1 notLast)
  refine ⟨sent :: sents, p', sendPublishes_cons isSent areSent, iff_of_false ?_ harmsRun,
    fun run => absurd run harmsRun⟩
  rw [List.forall₂_cons]
  exact fun all => masked.not_sends sendable positive harms notLast areSent all.2

end Steps

/-- A run from a publication that is kept. -/
theorem Kept.decided (kept : Kept pack qos p) (sendable : pack.Sendable qos)
    (positive : 0 < qos) (retained : Bool) (attempts : List Attempt) :
    Decided pack qos retained p attempts := by
  induction attempts generalizing p with
  | nil => exact ⟨[], p, rfl, iff_of_true .nil trivial, fun _ _ isLast => by cases isLast⟩
  | cons a attempts ih =>
      rcases kept.sendPublish sendable positive retained a with
        ⟨sent, p₁, isSent, sends, whole, interrupts⟩
      by_cases interrupted : a.rc = .interrupted
      · have masked := interrupts interrupted
        by_cases isLast : attempts = []
        · subst isLast
          refine ⟨[sent], p₁, sendPublishes_cons isSent rfl, iff_of_true (.cons sends .nil) ?_, ?_⟩
          · rw [harmlessRun_interrupted interrupted]
            exact ⟨fun more => absurd rfl more, trivial⟩
          · rintro - last ⟨⟩ notInterrupted
            exact absurd interrupted notInterrupted
        · by_cases harmless :
              Harmless pack qos (if p.mask.headD 0 = 0 then a.random else p.mask)
          · have behind := ih (masked.kept harmless)
            rw [← masked.mask] at harmless
            exact behind.interrupted isSent sends interrupted masked.mask harmless isLast
          · exact .harms isSent interrupted masked sendable positive harmless isLast
      · rw [whole interrupted] at isSent
        exact (ih kept_stored).whole isSent sends interrupted

/-! ## All attempts -/

/-- A publication of QoS 1 or 2 that is sent again and again in masked frames. Each attempt puts the
packet in the store and hands it to the socket in one frame, and an attempt that is not interrupted
leaves the stored publication as it was, exactly if every interrupted attempt that is followed by
another has a mask that does no harm.
-/
theorem sendPublishes_masked (sendable : pack.Sendable qos) (positive : 0 < qos) (retained : Bool)
    (attempts : List Attempt) :
    ∃ sents p, sendPublishes pack qos retained (stored pack) attempts = some (sents, p) ∧
      ((List.Forall₂ (Sends pack qos retained) attempts sents ∧
          ∀ last, attempts.getLast? = some last → last.rc ≠ .interrupted → p = stored pack) ↔
        HarmlessRun pack qos [0, 0, 0, 0] attempts) := by
  rcases kept_stored.decided sendable positive retained attempts with
    ⟨sents, p, areSent, all, restored⟩
  refine ⟨sents, p, areSent, fun holds => all.mp holds.1, fun run => ⟨all.mpr run, restored run⟩⟩

/-- A message of QoS 1 is sent, then interrupted under the mask `01 02 03 04`, then sent again. -/
theorem sendPublishes_masked_again :
    ∃ sents p, sendPublishes ⟨false, 1, false, [97], 1, 7, [104, 105], 4, .initializer⟩ 1
        false (stored ⟨false, 1, false, [97], 1, 7, [104, 105], 4, .initializer⟩)
        [⟨false, [9, 9, 9, 9], rfl, .complete⟩, ⟨true, [1, 2, 3, 4], rfl, .interrupted⟩,
          ⟨true, [5, 6, 7, 8], rfl, .complete⟩] = some (sents, p) ∧
      ¬(List.Forall₂ (Sends ⟨false, 1, false, [97], 1, 7, [104, 105], 4, .initializer⟩ 1 false)
          [⟨false, [9, 9, 9, 9], rfl, .complete⟩, ⟨true, [1, 2, 3, 4], rfl, .interrupted⟩,
            ⟨true, [5, 6, 7, 8], rfl, .complete⟩] sents ∧
        ∀ last, [(⟨false, [9, 9, 9, 9], rfl, .complete⟩ : Attempt),
            ⟨true, [1, 2, 3, 4], rfl, .interrupted⟩,
            ⟨true, [5, 6, 7, 8], rfl, .complete⟩].getLast? = some last → last.rc ≠ .interrupted →
          p = stored ⟨false, 1, false, [97], 1, 7, [104, 105], 4, .initializer⟩) := by
  have sendable : PublishPacket.Sendable
      ⟨false, 1, false, [97], 1, 7, [104, 105], 4, .initializer⟩ 1 :=
    ⟨by decide, by decide, by decide, by decide, fun five => absurd five (by decide), by decide⟩
  rcases sendPublishes_masked sendable Nat.one_pos false
    [⟨false, [9, 9, 9, 9], rfl, .complete⟩, ⟨true, [1, 2, 3, 4], rfl, .interrupted⟩,
      ⟨true, [5, 6, 7, 8], rfl, .complete⟩] with ⟨sents, p, areSent, holds⟩
  refine ⟨sents, p, areSent, fun all => ?_⟩
  have harmless := (holds.mp all).1 (List.cons_ne_nil _ _)
  have nonzero : ∀ i < 4, ([1, 2, 3, 4] : Bytes).getD i 0 ≠ 0 := by decide
  exact nonzero _ (Nat.mod_lt _ (by decide)) (harmless.topic 0 Nat.one_pos)

end Attempts

end MaskedSends

end Paho
