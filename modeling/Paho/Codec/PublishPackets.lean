import Paho.Codec.PropertyLists
import Paho.Transport.PlainReading
import Mathlib.Data.List.TakeWhile

/-!
# PUBLISH packets that are written and read

`MQTTPacket_send_publish` with `MQTTPacket_sends`, `MQTTPacket_publish`, and `MQTTPacket_Factory` on
a plain socket that has the bytes. The storage is not refused.
-/

namespace Paho

open PropertyReader PacketStream Sockets

/-- `Publish` as it is written and read: with the length of the topic, and with the properties as a
list that keeps its length. A topic that is written is one without its closing zero. -/
structure PublishPacket where
  dup : Bool
  qos : Nat
  retain : Bool
  topic : Bytes
  topiclen : Nat
  msgId : Nat
  payload : Bytes
  mqttVersion : Nat
  properties : PropertyList
  deriving DecidableEq, Repr

/-- The `byte` of a `Header` and its `bits`. -/
structure Header where
  type : Nat
  dup : Bool
  qos : Nat
  retain : Bool
  deriving DecidableEq, Repr

namespace Header

/-- The header byte: bit fields of four, one, two and one bits. -/
def byte (header : Header) : UInt8 :=
  UInt8.ofNat
    (16 * (header.type % 16) + 8 * header.dup.toNat + 2 * (header.qos % 4) + header.retain.toNat)

/-- The bit fields of a header byte. -/
def ofByte (byte : UInt8) : Header where
  type := byte.toNat / 16
  dup := byte.toNat / 8 % 2 == 1
  qos := byte.toNat / 2 % 4
  retain := byte.toNat % 2 == 1

theorem ofByte_byte {header : Header} (type : header.type < 16) (qos : header.qos < 4) :
    ofByte header.byte = header := by
  rcases header with ⟨type', dup, qos', retain⟩
  simp only at type qos
  have typeBits : type' % 16 = type' := Nat.mod_eq_of_lt type
  have qosBits : qos' % 4 = qos' := Nat.mod_eq_of_lt qos
  have dupBit : dup.toNat ≤ 1 := Bool.toNat_le dup
  have retainBit : retain.toNat ≤ 1 := Bool.toNat_le retain
  have toNat : (byte ⟨type', dup, qos', retain⟩).toNat =
      16 * type' + 8 * dup.toNat + 2 * qos' + retain.toNat := by
    simp only [byte, typeBits, qosBits]
    exact Nat.mod_eq_of_lt (by omega)
  simp only [ofByte, toNat, Header.mk.injEq]
  refine ⟨by omega, ?_, by omega, ?_⟩
  · have bit : (16 * type' + 8 * dup.toNat + 2 * qos' + retain.toNat) / 8 % 2 =
      dup.toNat := by omega
    rw [bit]
    cases dup <;> rfl
  · have bit : (16 * type' + 8 * dup.toNat + 2 * qos' + retain.toNat) % 2 = retain.toNat := by omega
    rw [bit]
    cases retain <;> rfl

end Header

namespace MQTTPacket

/-- `PUBLISH`, as a number. -/
def publishType : Nat := 3

/-- A buffer of `PacketBuffers`, with its entry in `buflens`. -/
structure PacketBuffer where
  buffer : Bytes
  buflen : Nat

/-- The remaining length of a packet: `total` in `MQTTPacket_sends`. -/
def totalLength (bufs : List PacketBuffer) : Nat :=
  (bufs.map (·.buflen)).sum

/-- `MQTTPacket_sends`: the bytes that are given to the socket. Buffers that are shorter than their
entries have none. -/
def sends (header : Header) (bufs : List PacketBuffer) : Option Bytes :=
  if ∀ buf ∈ bufs, buf.buflen ≤ buf.buffer.length then
    some (header.byte :: (encode (totalLength bufs) ++
      bufs.flatMap fun buf => buf.buffer.take buf.buflen))
  else none

/-- `strlen`. -/
def strlen (string : Bytes) : Nat :=
  (string.takeWhile (· ≠ 0)).length

/-- The third buffer of `MQTTPacket_send_publish`, if there is one: the message id and the
properties. -/
def variableBuffer (pack : PublishPacket) (qos : Nat) : List PacketBuffer :=
  if 0 < qos ∨ mqttVersion5 ≤ pack.mqttVersion then
    [{  buffer :=
          (if 0 < qos then writeInt pack.msgId else []) ++
            if mqttVersion5 ≤ pack.mqttVersion then pack.properties.write else []
        buflen :=
          (if 0 < qos then 2 else 0) +
            if mqttVersion5 ≤ pack.mqttVersion then pack.properties.len else 0 }]
  else []

/-- The buffers of `MQTTPacket_send_publish`. -/
def publishBuffers (pack : PublishPacket) (qos : Nat) : List PacketBuffer :=
  ⟨writeInt (strlen pack.topic), 2⟩ :: ⟨pack.topic, strlen pack.topic⟩ ::
    (variableBuffer pack qos ++ [⟨pack.payload, pack.payload.length⟩])

/-- `MQTTPacket_send_publish`. -/
def sendPublish (pack : PublishPacket) (dup : Bool) (qos : Nat) (retained : Bool) : Option Bytes :=
  sends ⟨publishType, dup, qos, retained⟩ (publishBuffers pack qos)

/-- `readUTFlen`: the string, its length, and what is left. -/
def readUTFlen : Bytes → Option (Bytes × Nat × Bytes)
  | first :: second :: rest =>
      let len := 256 * first.toNat + second.toNat
      if len ≤ rest.length then some (rest.take len, len, rest.drop len) else none
  | _ => none

/-- The message id in `MQTTPacket_publish`, and what is left. -/
def readMsgId (qos : Nat) (curdata : Bytes) : Option (Nat × Bytes) :=
  if 0 < qos then
    match curdata with
    | first :: second :: rest => some (256 * first.toNat + second.toNat, rest)
    | _ => none
  else some (0, curdata)

/-- `MQTTPacket_publish`. It has no outcome when `MQTTProperties_read` goes past the end. -/
def publish (mqttVersion : Nat) (aHeader : UInt8) (data : Bytes) : Option (Parsed PublishPacket) :=
  let header := Header.ofByte aHeader
  match readUTFlen data with
  | none => some .bad
  | some (topic, topiclen, curdata) =>
      match readMsgId header.qos curdata with
      | none => some .bad
      | some (msgId, curdata) =>
          let pack : PublishPacket :=
            { dup := header.dup
              qos := header.qos
              retain := header.retain
              topic := topic
              topiclen := topiclen
              msgId := msgId
              payload := curdata
              mqttVersion := mqttVersion
              properties := .initializer }
          if mqttVersion5 ≤ mqttVersion then
            match readList curdata with
            | some (.taken properties n) =>
                some (.pack { pack with payload := curdata.drop n, properties := properties })
            | some (.failed _) => some .bad
            | _ => none
          else some (.pack pack)

/-- The table `new_packets` with the entry for PUBLISH. The other entries, and what comes of a
read past the end, are a parameter. -/
def newPackets {Pack : Type} (mqttVersion : Nat) (others : NewPackets Pack) :
    NewPackets (PublishPacket ⊕ Pack) := fun header data =>
  let other :=
    match others header data with
    | .pack pack => .pack (.inr pack)
    | .bad => .bad
    | .unknown => .unknown
  if (Header.ofByte header).type = publishType then
    match publish mqttVersion header data with
    | some (.pack pack) => .pack (.inl pack)
    | some .bad => .bad
    | some .unknown => .unknown
    | none => other
  else other

end MQTTPacket

/-- The packet that arrives. Without a message id there is none in it, and before MQTT 5 there are
no properties. -/
def PublishPacket.arriving (pack : PublishPacket) (dup : Bool) (qos : Nat) (retained : Bool) :
    PublishPacket :=
  { pack with
    dup := dup
    qos := qos
    retain := retained
    topiclen := pack.topic.length
    msgId := if 0 < qos then pack.msgId else 0
    properties := if mqttVersion5 ≤ pack.mqttVersion then pack.properties else .initializer }

/-- A packet that the application or the session code can hand over: the topic is a string whose
length fits into two bytes, the message id too, and the properties were added one by one. -/
structure PublishPacket.Sendable (pack : PublishPacket) (qos : Nat) : Prop where
  isQoS : qos ≤ 2
  noNul : 0 ∉ pack.topic
  topicFits : pack.topic.length ≤ 65535
  msgIdFits : 0 < qos → 1 ≤ pack.msgId ∧ pack.msgId ≤ 65535
  built : mqttVersion5 ≤ pack.mqttVersion → pack.properties.Built
  fits : MQTTPacket.totalLength (MQTTPacket.publishBuffers pack qos) ≤ 268435455

namespace MQTTPacket

section Sending

variable {pack : PublishPacket} {qos : Nat} {dup retained : Bool} {rest : Bytes}

theorem strlen_of_noNul {string : Bytes} (noNul : 0 ∉ string) : strlen string = string.length := by
  have whole : string.takeWhile (· ≠ 0) = string := by
    rw [List.takeWhile_eq_self_iff]
    intro c mem
    have notZero : c ≠ 0 := fun isZero => noNul (isZero ▸ mem)
    simpa using notZero
  rw [strlen, whole]

/-- A buffer that its entry says the length of. -/
def PacketBuffer.Exact (buf : PacketBuffer) : Prop :=
  buf.buflen = buf.buffer.length

theorem sends_exact {header : Header} {bufs : List PacketBuffer} (exact : ∀ buf ∈ bufs, buf.Exact) :
    sends header bufs = some (header.byte ::
      (encode (totalLength bufs) ++ bufs.flatMap (·.buffer))) ∧
      totalLength bufs = (bufs.flatMap (·.buffer)).length := by
  have whole : bufs.flatMap (fun buf => buf.buffer.take buf.buflen) = bufs.flatMap (·.buffer) := by
    apply List.flatMap_congr
    intro buf mem
    rw [show buf.buflen = buf.buffer.length from exact buf mem, List.take_length]
  constructor
  · rw [sends, if_pos fun buf mem => Nat.le_of_eq (exact buf mem), whole]
  · rw [List.length_flatMap, totalLength]
    exact congrArg List.sum (List.map_congr_left exact)

/-- What is behind the remaining length. -/
def publishBody (pack : PublishPacket) (qos : Nat) : Bytes :=
  (publishBuffers pack qos).flatMap (·.buffer)

theorem len_le_totalLength (isFive : mqttVersion5 ≤ pack.mqttVersion) :
    pack.properties.len ≤ totalLength (publishBuffers pack qos) := by
  have present : 0 < qos ∨ mqttVersion5 ≤ pack.mqttVersion := .inr isFive
  simp only [totalLength, publishBuffers, variableBuffer, if_pos present, if_pos isFive,
    List.map_cons,
    List.map_append, List.map_nil, List.sum_cons, List.sum_append, List.sum_nil]
  omega

theorem exact_variableBuffer (sendable : pack.Sendable qos) :
    ∀ buf ∈ variableBuffer pack qos, buf.Exact := by
  unfold variableBuffer
  split
  · simp only [List.forall_mem_singleton, PacketBuffer.Exact, List.length_append]
    congr 1
    · split
      · rfl
      · rfl
    · split
      next isFive =>
        apply ((sendable.built isFive).consistent.length_write _).symm
        have fits := sendable.fits
        have part := @len_le_totalLength pack qos isFive
        have shorter : pack.properties.length ≤ pack.properties.len := Nat.le_add_right _ _
        omega
      · rfl
  · simp

theorem exact_publishBuffers (sendable : pack.Sendable qos) :
    ∀ buf ∈ publishBuffers pack qos, buf.Exact := by
  simp only [publishBuffers, List.forall_mem_cons, List.forall_mem_append]
  exact ⟨rfl, strlen_of_noNul sendable.noNul, exact_variableBuffer sendable, rfl, by simp⟩

/-- The parts of a packet, one after the other. -/
theorem publishBody_eq (pack : PublishPacket) (noNul : 0 ∉ pack.topic) :
    publishBody pack qos = writeMQTTLenString pack.topic ++
      ((if 0 < qos then writeInt pack.msgId else []) ++
        ((if mqttVersion5 ≤ pack.mqttVersion then pack.properties.write else []) ++
          pack.payload)) := by
  have middle : (variableBuffer pack qos).flatMap (·.buffer) =
      (if 0 < qos then writeInt pack.msgId else []) ++
        if mqttVersion5 ≤ pack.mqttVersion then pack.properties.write else [] := by
    unfold variableBuffer
    split
    · simp
    next absent =>
      rw [if_neg fun isMore => absent (.inl isMore), if_neg fun isFive => absent (.inr isFive)]
      rfl
  simp only [publishBody, publishBuffers, List.flatMap_cons, List.flatMap_append, List.flatMap_nil,
    middle, strlen_of_noNul noNul, writeMQTTLenString, List.append_assoc, List.append_nil]

/-- The bytes of a packet on the wire. -/
theorem sendPublish_eq (sendable : pack.Sendable qos) (dup retained : Bool) :
    sendPublish pack dup qos retained = some (Header.byte ⟨publishType, dup, qos, retained⟩ ::
      (encode (publishBody pack qos).length ++ publishBody pack qos)) ∧
      (publishBody pack qos).length < 268435456 := by
  rcases @sends_exact ⟨publishType, dup, qos, retained⟩ _ (exact_publishBuffers sendable) with
    ⟨sent, total⟩
  have fits := sendable.fits
  rw [total] at sent fits
  exact ⟨sent, Nat.lt_succ_of_le fits⟩

end Sending

section Reading

/-- What `MQTTPacket_publish` returns is bounded by the packet. -/
structure FromData (version : Nat) (data : Bytes) (pack : PublishPacket) : Prop where
  isVersion : pack.mqttVersion = version
  topiclen : pack.topiclen = pack.topic.length
  payload : pack.payload.length ≤ data.length
  early : version < mqttVersion5 → pack.properties = .initializer
  properties : mqttVersion5 ≤ version → ∃ curdata n, curdata.length ≤ data.length ∧
    readList curdata = some (.taken pack.properties n)

theorem readUTFlen_spec {data topic rest : Bytes} {topiclen : Nat}
    (read : readUTFlen data = some (topic, topiclen, rest)) :
    topiclen = topic.length ∧ rest.length ≤ data.length := by
  unfold readUTFlen at read
  dsimp only at read
  split at read
  · split at read
    · cases read
      simp only [List.length_take, List.length_drop, List.length_cons]
      omega
    · cases read
  · cases read

theorem readMsgId_spec {qos msgId : Nat} {curdata rest : Bytes}
    (read : readMsgId qos curdata = some (msgId, rest)) : rest.length ≤ curdata.length := by
  unfold readMsgId at read
  split at read
  · split at read
    · cases read
      simp only [List.length_cons]
      omega
    · cases read
  · cases read
    exact Nat.le_refl _

theorem publish_spec {version : Nat} {header : UInt8} {data : Bytes} {pack : PublishPacket}
    (received : publish version header data = some (.pack pack)) : FromData version data pack := by
  unfold publish at received
  dsimp only at received
  split at received
  · cases received
  next topic topiclen curdata read =>
    rcases readUTFlen_spec read with ⟨topicLength, shorter⟩
    split at received
    · cases received
    next msgId rest readId =>
      have shorter' := readMsgId_spec readId
      split at received
      next five =>
        split at received
        next properties n taken =>
          cases received
          have bound : (rest.drop n).length ≤ data.length := by
            rw [List.length_drop]
            omega
          exact ⟨rfl, topicLength, bound, fun early => absurd five (Nat.not_le_of_lt early),
            fun _ => ⟨rest, n, by omega, taken⟩⟩
        · cases received
        · cases received
      next notFive =>
        cases received
        exact ⟨rfl, topicLength, shorter'.trans shorter, fun _ => rfl,
          fun five => absurd five notFive⟩

end Reading

section Receiving

variable {pack : PublishPacket} {qos : Nat} {dup retained : Bool} {bytes rest : Bytes}

theorem lengthField_vbi {field : Bytes} {n : Nat} (isVBI : VBI field n) {left : Nat}
    (short : field.length ≤ left) (multiplier value : Nat) :
    lengthField left multiplier value (field ++ rest) =
      .complete (value + n * multiplier) rest := by
  induction isVBI generalizing left multiplier value with
  | @last c ends =>
      cases left with
      | zero => cases short
      | succ left => simp [lengthField, Nat.not_le_of_lt ends, Nat.mod_eq_of_lt ends]
  | @more c field n continues _ ih =>
      cases left with
      | zero => cases short
      | succ left =>
          have fewer : field.length ≤ left := Nat.le_of_succ_le_succ short
          simp only [lengthField, List.cons_append, continues, if_true, ih fewer]
          congr 1
          ring

theorem remainingLength_encode {n : Nat} (inRange : n < 268435456) (rest : Bytes) :
    remainingLength (encode n ++ rest) = .complete n rest := by
  have short : (encode n).length ≤ 4 := by
    rw [length_encode inRange]
    exact vbiLen_le n
  have field := @lengthField_vbi rest _ n (vbi_encode n) 4 short 1 0
  rwa [Nat.zero_add, Nat.mul_one] at field

/-- A packet is taken off the front of a stream. -/
theorem takePacket_encode (header : UInt8) {body : Bytes} (inRange : body.length < 268435456)
    (rest : Bytes) :
    takePacket (header :: (encode body.length ++ body) ++ rest) = some ((header, body), rest) := by
  have field := remainingLength_encode inRange (body ++ rest)
  simp [takePacket, field]

theorem readUTFlen_write {string : Bytes} (fits : string.length ≤ 65535) (rest : Bytes) :
    readUTFlen (writeMQTTLenString string ++ rest) = some (string, string.length, rest) := by
  have high : (UInt8.ofNat (string.length / 256)).toNat = string.length / 256 :=
    Nat.mod_eq_of_lt (by omega)
  have low : (UInt8.ofNat (string.length % 256)).toNat = string.length % 256 :=
    Nat.mod_eq_of_lt (by omega)
  have length : 256 * (string.length / 256) + string.length % 256 = string.length :=
    Nat.div_add_mod string.length 256
  simp [readUTFlen, writeMQTTLenString, writeInt, high, low, length]

theorem readMsgId_write {msgId : Nat} (fits : 0 < qos → msgId ≤ 65535) (rest : Bytes) :
    readMsgId qos ((if 0 < qos then writeInt msgId else []) ++ rest) =
      some (if 0 < qos then msgId else 0, rest) := by
  by_cases present : 0 < qos
  · have inRange := fits present
    have high : (UInt8.ofNat (msgId / 256)).toNat = msgId / 256 := Nat.mod_eq_of_lt (by omega)
    have low : (UInt8.ofNat (msgId % 256)).toNat = msgId % 256 := Nat.mod_eq_of_lt (by omega)
    have value : 256 * (msgId / 256) + msgId % 256 = msgId := Nat.div_add_mod msgId 256
    simp [readMsgId, writeInt, present, high, low, value]
  · simp [readMsgId, present]

theorem ofByte_publish (isQoS : qos ≤ 2) (dup retained : Bool) :
    Header.ofByte (Header.byte ⟨publishType, dup, qos, retained⟩) =
      ⟨publishType, dup, qos, retained⟩ := by
  apply Header.ofByte_byte
  · exact (show publishType < 16 by decide)
  · exact Nat.lt_of_le_of_lt isQoS (by decide)

/-- `MQTTPacket_publish` reads what was written. -/
theorem publish_body (sendable : pack.Sendable qos) (dup retained : Bool) :
    publish pack.mqttVersion (Header.byte ⟨publishType, dup, qos, retained⟩)
      (publishBody pack qos) = some (.pack (pack.arriving dup qos retained)) := by
  have header := ofByte_publish sendable.isQoS dup retained
  have msgId := @readMsgId_write qos pack.msgId fun present => (sendable.msgIdFits present).2
  rw [publishBody_eq pack sendable.noNul, publish]
  simp only [header, readUTFlen_write sendable.topicFits, msgId]
  by_cases isFive : mqttVersion5 ≤ pack.mqttVersion
  · have inRange : pack.properties.length < 268435456 := by
      have fits := sendable.fits
      have part := @len_le_totalLength pack qos isFive
      have shorter : pack.properties.length ≤ pack.properties.len := Nat.le_add_right _ _
      omega
    have read := readList_of_beginsWithList
      ((sendable.built isFive).consistent.beginsWithList inRange pack.payload)
    simp only [if_pos isFive, read, List.drop_left]
    simp [PublishPacket.arriving, isFive]
  · simp [PublishPacket.arriving, isFive]

end Receiving

/-! ## The round trip -/

/-- Every PUBLISH packet that can be handed over is given to the socket as bytes that
`MQTTPacket_Factory` turns back into the packet, on every plain socket and in front of any other
bytes; and the socket has exactly these other bytes afterwards.
-/
theorem factory_sendPublish {Pack : Type} (others : NewPackets Pack)
    {pack : PublishPacket} {qos : Nat} (sendable : pack.Sendable qos) (dup retained : Bool) :
    ∃ sent, sendPublish pack dup qos retained = some sent ∧
      ∀ (t : Transport) (socket : SOCKET) (rest : Bytes), 0 < socket → t.in_frames = [] →
        t.sockets.Waiting socket (sent ++ rest) →
          ∃ s', factory (newPackets pack.mqttVersion others) t (plain socket) =
              some (.pack (.inl (pack.arriving dup qos retained)), plain socket,
                { t with sockets := s' }) ∧
            s'.Waiting socket rest := by
  rcases sendPublish_eq sendable dup retained with ⟨isSent, inRange⟩
  refine ⟨_, isSent, fun t socket rest positive noFrames waiting => ?_⟩
  rcases factory_plain (newPackets pack.mqttVersion others) positive noFrames waiting with
    ⟨result', s', made, -, -, spec⟩
  rw [takePacket_encode _ inRange] at spec
  rcases spec with ⟨isResult, waits⟩
  have header := ofByte_publish sendable.isQoS dup retained
  have isPack : result' = .pack (.inl (pack.arriving dup qos retained)) := by
    rw [isResult]
    simp [result, newPackets, header, publish_body sendable]
  rw [isPack] at made
  exact ⟨s', made, waits⟩

/-- A message of QoS 1 with a payload format indicator arrives on a socket that has nothing else. -/
theorem factory_sendPublish_indicator :
    ∃ sent s', sendPublish ⟨false, 1, true, [97], 0, 7, [104, 105], 5, ⟨2, [⟨1, .byte 1⟩]⟩⟩ false 1
        true = some sent ∧
      factory (newPackets 5 fun _ _ => (.unknown : Parsed Unit))
          ⟨⟨fun _ => ⟨sent, .connected⟩, .empty, []⟩, [], [], 0, []⟩ (plain 3) =
        some (.pack (.inl ⟨false, 1, true, [97], 1, 7, [104, 105], 5, ⟨2, [⟨1, .byte 1⟩]⟩⟩),
          plain 3,
          ⟨s', [], [], 0, []⟩) ∧
      s'.Waiting 3 [] := by
  have indicator : MQTTProperty.WellTyped ⟨1, .byte 1⟩ := ⟨rfl, by simp [MQTTPropertyValue.InType]⟩
  have built : PropertyList.Built ⟨2, [⟨1, .byte 1⟩]⟩ := .add .initializer indicator trivial rfl
  have sendable : PublishPacket.Sendable
      ⟨false, 1, true, [97], 0, 7, [104, 105], 5, ⟨2, [⟨1, .byte 1⟩]⟩⟩ 1 :=
    ⟨by decide, by decide, by decide, fun _ => by decide, fun _ => built, by decide⟩
  rcases factory_sendPublish (fun _ _ => (.unknown : Parsed Unit)) sendable false true with
    ⟨sent, isSent, read⟩
  have waiting : (⟨fun _ => ⟨sent, .connected⟩, .empty, []⟩ : Sockets).Waiting 3 (sent ++ []) := by
    rw [List.append_nil]
    exact @waiting_of_noQueues ⟨fun _ => ⟨sent, .connected⟩, .empty, []⟩ 3 rfl rfl (by decide)
  rcases read ⟨⟨fun _ => ⟨sent, .connected⟩, .empty, []⟩, [], [], 0, []⟩ 3 []
    (by decide) rfl waiting
    with ⟨s', made, waits⟩
  exact ⟨sent, s', isSent, made, waits⟩

end MQTTPacket

end Paho
