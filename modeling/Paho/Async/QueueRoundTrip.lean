import Paho.Async.QueueMirror
import Paho.Codec.PublishPackets
import Paho.Codec.ReceivedProperties

/-!
# A received message, its record, and the message again

From a PUBLISH on the wire to the entry of the message queue, the record of the entry, and the entry
that is restored from it. The record has the topic up to its first zero, and the length of the
whole.
-/

namespace Paho

open PropertyReader

namespace Backlog

/-- The entry that `Protocol_processPublication` makes of a packet. -/
def entry (pack : PublishPacket) : QueueRecord.Entry :=
  { msg :=
      { payloadlen := Int32.ofNat pack.payload.length
        payload := pack.payload
        qos := Int32.ofNat pack.qos
        retained := if pack.retain then 1 else 0
        dup := if pack.qos ≠ 2 ∧ pack.dup then 1 else 0
        msgid := Int32.ofNat pack.msgId
        properties := if mqttVersion5 ≤ pack.mqttVersion then pack.properties.copy.array else [] }
    topicName := pack.topic
    topicLen := Int32.ofNat pack.topiclen }

/-- The record that `MQTTPersistence_persistQueueEntry` puts, if it puts one. -/
def written (b : Backlog) (entry : QueueRecord.Entry) : Option Bytes :=
  if b.putResult entry = 0 then some (QueueRecord.write b.settings.version entry) else none

/-- A record is put, and it is read as the entry. -/
def RoundTrips (b : Backlog) (entry : QueueRecord.Entry) : Prop :=
  ∃ record, b.written entry = some record ∧
    QueueRecord.read b.settings.version record = some (entry, [])

variable {b : Backlog} {header : UInt8} {data : Bytes} {pack : PublishPacket}

/-- `written` is what `MQTTPersistence_persistQueueEntry` adds to the store. -/
theorem store_persistQueueEntry (b : Backlog) (entry : QueueRecord.Entry) :
    (b.persistQueueEntry entry).store = match b.written entry with
      | some record => b.store.insert (b.key .queue (nextSeqno b.qentry_seqno)) record
      | none => b.store := by
  by_cases put : b.putResult entry = 0
  · simp [persistQueueEntry, written, put]
  · simp [persistQueueEntry, written, put]

theorem written_isSome_iff (entry : QueueRecord.Entry) :
    (b.written entry).isSome ↔ b.settings.version < mqttVersion5 ∨
    b.settings.beforeWrite = true := by
  by_cases before : b.settings.beforeWrite = true
  · simp [written, putResult, before]
  · by_cases five : mqttVersion5 ≤ b.settings.version
    · have positive := @putResult_pos b entry five (by simpa using before)
      simp [written, Nat.ne_of_gt positive, before, Nat.not_lt_of_le five]
    · simp [written, putResult, before, five, Nat.lt_of_not_le five]

/-- The entry that is made of a packet can be read from its record. -/
theorem readable_entry (small : data.length < 268435456)
    (received : MQTTPacket.publish b.settings.version header data = some (.pack pack)) :
    QueueRecord.Readable b.settings.version (entry pack) := by
  have spec := MQTTPacket.publish_spec received
  have payload := spec.payload
  by_cases five : mqttVersion5 ≤ b.settings.version
  · rcases spec.properties five with ⟨curdata, n, shorter, taken⟩
    rcases readList_properties (by omega) taken with ⟨wellTyped, representable⟩
    have copied : (entry pack).msg.properties = pack.properties.array := by
      rw [entry, spec.isVersion]
      simp [five, PropertyList.copy, PropertyList.foldl_add wellTyped, PropertyList.initializer]
    constructor
    · exact Nat.lt_of_le_of_lt payload (by omega)
    · rfl
    · rw [copied]
      exact wellTyped
    · rw [copied]
      exact representable
    · exact fun early => absurd five (Nat.not_le_of_lt early)
  · have none : (entry pack).msg.properties = [] := by
      rw [entry, spec.isVersion]
      simp [five]
    constructor
    · exact Nat.lt_of_le_of_lt payload (by omega)
    · rfl
    · simp [none]
    · rw [none]
      exact ⟨by simp, by decide⟩
    · exact fun _ => none

theorem stored_eq_iff (entry : QueueRecord.Entry) :
    QueueRecord.stored entry = entry ↔ 0 ∉ entry.topicName := by
  constructor
  · intro same isZero
    have name := congrArg QueueRecord.Entry.topicName same
    apply (Native.stringAt entry.topicName).noZero 0 _ rfl
    rw [show (Native.stringAt entry.topicName).bytes = entry.topicName from name]
    exact isZero
  · intro noZero
    apply QueueRecord.stored_eq
    exact fun byte mem isZero => noZero (isZero ▸ mem)

/-- The record of a received message is read as the entry of the queue, for any packet on the wire
that `MQTTPacket_publish` accepts, exactly when the topic has no zero byte and a record is put at
all: before MQTT 5, or with a callback `beforeWrite`.
-/
theorem queueEntry_roundTrips_iff (b : Backlog) (small : data.length < 268435456)
    (received : MQTTPacket.publish b.settings.version header data = some (.pack pack)) :
    b.RoundTrips (entry pack) ↔
      0 ∉ pack.topic ∧ (b.settings.version < mqttVersion5 ∨ b.settings.beforeWrite = true) := by
  have reads := QueueRecord.read_write (readable_entry small received)
  have topic := stored_eq_iff (entry pack)
  rw [← @written_isSome_iff b (entry pack), ← show 0 ∉ (entry pack).topicName ↔
    0 ∉ pack.topic from Iff.rfl,
    ← topic]
  constructor
  · rintro ⟨record, put, read⟩
    refine ⟨?_, Option.isSome_iff_exists.mpr ⟨record, put⟩⟩
    have isRecord : QueueRecord.write b.settings.version (entry pack) = record := by
      unfold written at put
      split at put
      · exact Option.some.inj put
      · cases put
    rw [isRecord, read] at reads
    injection reads with same
    injection same with same
    exact same.symm
  · rintro ⟨same, put⟩
    rcases Option.isSome_iff_exists.mp put with ⟨record, isPut⟩
    refine ⟨record, isPut, ?_⟩
    unfold written at isPut
    split at isPut
    · rw [← Option.some.inj isPut, reads, same]
    · cases isPut

/-- A client of a version that has received nothing yet. -/
def created (version : Nat) : Backlog where
  settings := ⟨.mqttAsync, version, false, false⟩
  connected := true
  commands := []
  command_seqno := 0
  messageQueue := []
  qentry_seqno := 0
  store := ∅

/-- The topic `a` with an empty payload, before MQTT 5. -/
theorem queueEntry_roundTrips_early :
    (created mqttVersion311).RoundTrips
    (entry ⟨false, 0, false, [97], 1, 0, [], 4, .initializer⟩) := by
  have iff := @queueEntry_roundTrips_iff 48 [0, 1, 97] ⟨false, 0, false, [97], 1, 0, [],
    4, .initializer⟩
    (created mqttVersion311) (by decide) rfl
  exact iff.mpr ⟨by decide, .inl (by decide)⟩

/-- The topic of the bytes 97, 0 and 98, before MQTT 5: what is restored has the topic `a`, and 3 as
its length. -/
theorem queueEntry_not_roundTrips :
    MQTTPacket.publish mqttVersion311 48 [0, 3, 97, 0, 98] =
        some (.pack ⟨false, 0, false, [97, 0, 98], 3, 0, [], 4, .initializer⟩) ∧
      ¬(created mqttVersion311).RoundTrips
        (entry ⟨false, 0, false, [97, 0, 98], 3, 0, [], 4, .initializer⟩) := by
  constructor
  · rfl
  · rintro ⟨record, put, read⟩
    cases put
    cases read

end Backlog

end Paho
