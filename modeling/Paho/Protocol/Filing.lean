import Paho.Protocol.Refinement

/-!
# How records are filed

The sending and receiving code puts every record of a packet under a key made of the kind of
the packet, the protocol version of the client and the message id, and nothing else. Every
change of a session keeps it so.
-/

namespace Paho

open Relation

namespace Exchange

open MQTTPersistence

theorem key_inj {stem stem' : Stem} {version id id' : Nat} :
    key stem version id = key stem' version id' ↔ stem = stem' ∧ id = id' := by
  simp [key]

/-- The records that the sending and receiving code puts under a key. -/
def Files (k : PersistenceKey) : Record → Prop
  | .publish publish =>
      (k.stem = .publishSent ∨ (k.stem = .publishReceived ∧ publish.qos = 2)) ∧
        publish.msgId = k.number
  | .pubrel msgId => k.stem = .pubrel ∧ msgId = k.number
  | .command _ _ | .queue _ | .unreadable => False

theorem files_publishSent (mqttVersion : Nat) (publish : Publish) :
    Files (key .publishSent mqttVersion publish.msgId) (.publish publish) :=
  ⟨.inl rfl, rfl⟩

theorem files_pubrel (mqttVersion msgId : Nat) :
    Files (key .pubrel mqttVersion msgId) (.pubrel msgId) :=
  ⟨rfl, rfl⟩

theorem files_publishReceived (mqttVersion : Nat) {publish : Publish} (qos : publish.qos = 2) :
    Files (key .publishReceived mqttVersion publish.msgId) (.publish publish) :=
  ⟨.inr ⟨rfl, qos⟩, rfl⟩

/-- The records of packets are filed as the code files them for this protocol version. -/
def WellKeyed (e : Exchange) : Prop :=
  ∀ k record, isInflight k → e.record k = some record →
    k.v5 = decide (mqttVersion5 ≤ e.mqttVersion) ∧ Files k record

namespace WellKeyed

variable {e e' : Exchange} {record : Record}

theorem form (wellKeyed : e.WellKeyed) {k : PersistenceKey} (inflight : isInflight k)
    (stored : e.record k = some record) : k.v5 = decide (mqttVersion5 ≤ e.mqttVersion) :=
  (wellKeyed k record inflight stored).1

theorem publishSent (wellKeyed : e.WellKeyed) {v5 : Bool} {id : Nat}
    (stored : e.record ⟨.publishSent, v5, id⟩ = some record) :
    ∃ publish : Publish, record = .publish publish ∧ publish.msgId = id := by
  have files := (wellKeyed _ record rfl stored).2
  cases record <;> simp_all [Files]

theorem pubrel (wellKeyed : e.WellKeyed) {v5 : Bool} {id : Nat}
    (stored : e.record ⟨.pubrel, v5, id⟩ = some record) : record = .pubrel id := by
  have files := (wellKeyed _ record rfl stored).2
  cases record <;> simp_all [Files]

theorem publishReceived (wellKeyed : e.WellKeyed) {v5 : Bool} {id : Nat}
    (stored : e.record ⟨.publishReceived, v5, id⟩ = some record) :
    ∃ publish : Publish, record = .publish publish ∧ publish.msgId = id ∧ publish.qos = 2 := by
  have files := (wellKeyed _ record rfl stored).2
  cases record <;> simp_all [Files]

/-- Removing records keeps the others well filed. -/
theorem of_subset (wellKeyed : e.WellKeyed) (version : e'.mqttVersion = e.mqttVersion)
    (subset : ∀ k record, e'.record k = some record → e.record k = some record) :
    e'.WellKeyed := by
  intro k record inflight stored
  rw [version]
  exact wellKeyed k record inflight (subset k record stored)

theorem erase (wellKeyed : e.WellKeyed) (keys : List PersistenceKey) :
    (e.erase keys).WellKeyed := by
  refine wellKeyed.of_subset rfl fun k record stored => ?_
  rw [erase_record] at stored
  split at stored
  · cases stored
  · exact stored

theorem put (wellKeyed : e.WellKeyed) {stem : Stem} {id : Nat}
    (files : Files (key stem e.mqttVersion id) record) :
    (e.put (key stem e.mqttVersion id) record).WellKeyed := by
  intro k stored inflight found
  rw [put_record] at found
  split at found
  next isKey =>
    cases found
    rw [isKey.2]
    exact ⟨rfl, files⟩
  next => exact wellKeyed k stored inflight found

end WellKeyed

/-- The store is filed for the protocol version, which is that of the messages in flight. -/
structure Filed (e : Exchange) : Prop where
  wellKeyed : e.WellKeyed
  version : ∀ m ∈ e.outbound, m.mqttVersion = e.mqttVersion

namespace Filed

variable {e e' : Exchange} {msgid : Nat}

/-- Filing depends on the version, the outbound messages and the records. -/
theorem of_same (filed : e.Filed) (version : e'.mqttVersion = e.mqttVersion)
    (outbound : e'.outbound = e.outbound) (record : e'.record = e.record) : e'.Filed where
  wellKeyed := by
    refine filed.wellKeyed.of_subset version fun k stored found => ?_
    rwa [record] at found
  version := outbound ▸ version ▸ filed.version

theorem log (filed : e.Filed) (event : Event) : (e.log event).Filed :=
  ⟨filed.wellKeyed, filed.version⟩

theorem put (filed : e.Filed) {stem : Stem} {id : Nat} {record : Record}
    (files : Files (key stem e.mqttVersion id) record) :
    (e.put (key stem e.mqttVersion id) record).Filed :=
  ⟨filed.wellKeyed.put files, filed.version⟩

theorem sendAck (filed : e.Filed) (type : PacketType) (rc : CompletionCode) :
    (e.sendAck e.mqttVersion type msgid rc).Filed := by
  unfold Exchange.sendAck putAck
  split
  · exact (filed.put (files_pubrel _ _)).log _
  · exact filed.log _

theorem acknowledges (filed : e.Filed) {type : PacketType}
    (acknowledges : Acknowledges e type msgid e') : e'.Filed := by
  cases acknowledges with
  | sent rc => exact filed.sendAck type rc
  | queued => exact ⟨filed.wellKeyed, filed.version⟩

theorem finishOutbound (filed : e.Filed) (msgId : Nat) : (e.finishOutbound msgId).Filed where
  wellKeyed := filed.wellKeyed.erase _
  version := fun m mem => filed.version m (mem_of_mem_removeMessage mem)

theorem finishInbound (filed : e.Filed) (msgId : Nat) : (e.finishInbound msgId).Filed where
  wellKeyed := filed.wellKeyed.erase _
  version := filed.version

theorem clean (filed : e.Filed) : e.clean.Filed where
  wellKeyed := by
    refine filed.wellKeyed.of_subset rfl fun k record stored => ?_
    rw [clean_record] at stored
    split at stored
    · cases stored
    · exact stored
  version := fun _ mem => absurd mem List.not_mem_nil

theorem acceptPubrec (filed : e.Filed) (msgId : Nat) : (e.acceptPubrec msgId).Filed where
  wellKeyed := filed.wellKeyed
  version := by
    intro m mem
    rcases exists_of_mem_updateMessage mem with ⟨old, oldMem, rfl | ⟨_, rfl⟩⟩
    · exact filed.version m oldMem
    · exact filed.version old oldMem

theorem persistReceived (filed : e.Filed) {publish : Publish}
    (version : publish.mqttVersion = e.mqttVersion) (qos : publish.qos = 2) :
    (e.persistReceived publish).Filed := by
  unfold Exchange.persistReceived
  rw [version]
  exact filed.put (files_publishReceived _ qos)

theorem storeInbound (filed : e.Filed) (m : Messages) : (e.storeInbound m).Filed :=
  filed.of_same (by simp) (by simp) (funext (by simp))

theorem retryPublish (filed : e.Filed) {m : Messages} (mem : m ∈ e.outbound)
    (rc : CompletionCode) : (e.sendPublish (MQTTProtocol.retryPublish m) rc).Filed := by
  have version : (MQTTProtocol.retryPublish m).mqttVersion = e.mqttVersion :=
    filed.version m mem
  unfold Exchange.sendPublish
  rw [version]
  exact (filed.put (files_publishSent _ (MQTTProtocol.retryPublish m))).log _

end Filed

section Steps

variable {e e' : Exchange}

theorem internals_mqttVersion (internals : ReflTransGen Internal e e') :
    e'.mqttVersion = e.mqttVersion := by
  induction internals with
  | refl => rfl
  | tail _ internal ih =>
      rw [← ih]
      cases internal <;> simp

theorem acknowledges_mqttVersion {type : PacketType} {msgId : Nat}
    (acknowledges : Acknowledges e type msgId e') : e'.mqttVersion = e.mqttVersion := by
  cases acknowledges <;> simp

theorem starts_mqttVersion {message : Session.Message} {msgId : Nat}
    (starts : Starts e message msgId e') : e'.mqttVersion = e.mqttVersion := by
  cases starts <;> simp

theorem handles_mqttVersion {packet : Session.Packet} (handles : Handles e packet e') :
    e'.mqttVersion = e.mqttVersion := by
  cases handles with
  | pubrecUnexpected _ acknowledges => exact (acknowledges_mqttVersion acknowledges).trans rfl
  | pubrec _ _ acknowledges => exact (acknowledges_mqttVersion acknowledges).trans rfl
  | publish1 _ acknowledges => exact (acknowledges_mqttVersion acknowledges).trans rfl
  | publishDelivered _ _ _ acknowledges =>
      exact (acknowledges_mqttVersion acknowledges).trans (by simp)
  | publishKept _ _ acknowledges => exact (acknowledges_mqttVersion acknowledges).trans (by simp)
  | pubrelUnexpected _ acknowledges => exact (acknowledges_mqttVersion acknowledges).trans rfl
  | pubrel _ _ acknowledges =>
      refine (acknowledges_mqttVersion acknowledges).trans ?_
      rw [finishInbound_mqttVersion]
      split <;> rfl
  | pubackIgnored | puback | pubrecError | pubcompUnexpected | pubcomp | publish0 | publishOther =>
      rfl

theorem internal_filed (internal : Internal e e') (filed : e.Filed) : e'.Filed := by
  cases internal with
  | retryPublish mem awaits rc => exact filed.retryPublish mem rc
  | retryPubrel mem awaits rc =>
      rw [filed.version _ mem]
      exact filed.sendAck .pubrel rc
  | sendQueued mem rc => exact filed.sendAck _ rc
  | resent => exact filed.log _
  | dropQueue => exact ⟨filed.wellKeyed, filed.version⟩
  | clean => exact filed.clean
  | connect => exact filed.log _

theorem starts_filed {message : Session.Message} {msgId : Nat}
    (starts : Starts e message msgId e') (filed : e.Filed) : e'.Filed := by
  cases starts with
  | unacknowledged qos => exact filed.log _
  | @start _ rc positive unused qos =>
      have started : (e.start (MQTTProtocol.createMessage
          (Session.publishPacket e.mqttVersion message false msgId) message.qos message.retained
          0)).Filed := by
        refine ⟨filed.wellKeyed, fun m mem => ?_⟩
        rcases List.mem_append.mp mem with old | new
        · exact filed.version m old
        · rw [List.mem_singleton.mp new]
          rfl
      exact (started.put (files_publishSent _ (Session.publishPacket e.mqttVersion message false
        msgId))).log _

end Steps

end Exchange

end Paho
