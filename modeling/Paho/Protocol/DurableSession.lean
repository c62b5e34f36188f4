import Paho.Protocol.Restoring

/-!
# Durable sessions

What a process restores after a restart against what the ended process had exchanged. The
store knows only message ids, and PUBREL is sent and recorded for ids that no message in
flight has, so a restored message is right about PUBREC as long as no publication is started
under an id for which a PUBREL is still recorded or queued.
-/

namespace Paho

open Relation

/-- What happened since the last publication with this id was started, newest first. -/
def sinceStarted (msgid : Nat) (trace : List Event) : List Event :=
  trace.takeWhile fun event => !event.starts msgid

theorem sinceStarted_cons {msgid : Nat} {event : Event} {trace : List Event} :
    sinceStarted msgid (event :: trace) =
      if event.starts msgid then [] else event :: sinceStarted msgid trace := by
  by_cases starts : event.starts msgid <;> simp [sinceStarted, starts]

namespace Exchange

open MQTTPersistence

/-- PUBREC was received for the publication that now has this id. -/
def Acknowledged (e : Exchange) (msgid : Nat) : Prop :=
  .received .pubrec msgid ∈ sinceStarted msgid e.trace

/-- PUBREL was sent for the publication that now has this id. -/
def Released (e : Exchange) (msgid : Nat) : Prop :=
  ∃ rc, .sentAck .pubrel msgid rc ∈ sinceStarted msgid e.trace

/-- The store, the messages in flight and the queued acknowledgements agree about PUBREC. -/
structure Durable (e : Exchange) : Prop extends Filed e where
  persistent : e.persistent = true
  distinct : (ids e.outbound).Nodup
  sent : ∀ m ∈ e.outbound, ∃ publish : Publish,
    e.record (key .publishSent e.mqttVersion m.msgid) = some (.publish publish) ∧
      publish.qos = m.qos
  inFlight : ∀ id, e.record (key .publishSent e.mqttVersion id) ≠ none → id ∈ ids e.outbound
  awaitsPubcomp : ∀ m ∈ e.outbound, AwaitsPubcomp m → e.Acknowledged m.msgid
  pubrelRecord : ∀ m ∈ e.outbound, m.qos = 2 →
    e.record (key .pubrel e.mqttVersion m.msgid) ≠ none → e.Acknowledged m.msgid
  released : ∀ m ∈ e.outbound, m.qos = 2 → e.Released m.msgid →
    e.record (key .pubrel e.mqttVersion m.msgid) ≠ none
  queued : ∀ m ∈ e.outbound, m.qos = 2 → ⟨m.msgid, .pubrel⟩ ∈ e.queue → e.Acknowledged m.msgid

variable {e e' : Exchange} {msgid : Nat}

theorem key_mem_removedKeys {stem : Stem} {version id msgId : Nat} :
    key stem version id ∈ removedKeys .publishSent msgId ↔
      (stem = .publishSent ∨ stem = .pubrel) ∧ id = msgId := by
  unfold key removedKeys
  generalize decide (mqttVersion5 ≤ version) = v5
  cases stem <;> cases v5 <;> simp

theorem acknowledged_log {event : Event} (starts : event.starts msgid = false)
    (acknowledged : e.Acknowledged msgid) : (e.log event).Acknowledged msgid := by
  unfold Acknowledged
  rw [log_trace, sinceStarted_cons]
  simp only [starts, Bool.false_eq_true, if_false]
  exact List.mem_cons_of_mem _ acknowledged

theorem acknowledged_received (e : Exchange) (msgid : Nat) :
    (e.log (.received .pubrec msgid)).Acknowledged msgid := by
  unfold Acknowledged
  rw [log_trace, sinceStarted_cons]
  simp [Event.starts]

theorem released_log {event : Event} (starts : event.starts msgid = false)
    (other : ∀ rc, event ≠ .sentAck .pubrel msgid rc)
    (released : (e.log event).Released msgid) : e.Released msgid := by
  obtain ⟨rc, mem⟩ := released
  rw [log_trace, sinceStarted_cons] at mem
  simp only [starts, Bool.false_eq_true, if_false, List.mem_cons] at mem
  rcases mem with same | mem
  · exact absurd same.symm (other rc)
  · exact ⟨rc, mem⟩

/-- An exchange that differs in its inbound side only. -/
theorem Durable.of_frame (durable : e.Durable) (version : e'.mqttVersion = e.mqttVersion)
    (persistent : e'.persistent = e.persistent) (outbound : e'.outbound = e.outbound)
    (queue : e'.queue = e.queue) (trace : e'.trace = e.trace) (filed : e'.Filed)
    (sent : ∀ id, e'.record (key .publishSent e.mqttVersion id) =
      e.record (key .publishSent e.mqttVersion id))
    (pubrel : ∀ id, e'.record (key .pubrel e.mqttVersion id) =
      e.record (key .pubrel e.mqttVersion id)) : e'.Durable := by
  have acknowledged : ∀ id, e'.Acknowledged id ↔ e.Acknowledged id := by
    simp [Acknowledged, trace]
  have released : ∀ id, e'.Released id ↔ e.Released id := by simp [Released, trace]
  constructor
  · exact filed
  · exact persistent.trans durable.persistent
  · exact outbound ▸ durable.distinct
  · simpa only [outbound, version, sent] using durable.sent
  · simpa only [outbound, version, sent] using durable.inFlight
  · simpa only [outbound, acknowledged] using durable.awaitsPubcomp
  · simpa only [outbound, version, pubrel, acknowledged] using durable.pubrelRecord
  · simpa only [outbound, version, pubrel, released] using durable.released
  · simpa only [outbound, queue, acknowledged] using durable.queued

/-- An event that is neither the start of a publication nor the sending of PUBREL. -/
theorem Durable.log (durable : e.Durable) {event : Event}
    (starts : ∀ id, event.starts id = false)
    (other : ∀ id rc, event ≠ .sentAck .pubrel id rc) : (e.log event).Durable where
  toFiled := durable.toFiled.log event
  persistent := durable.persistent
  distinct := durable.distinct
  sent := durable.sent
  inFlight := durable.inFlight
  awaitsPubcomp := fun m mem awaits =>
    acknowledged_log (starts _) (durable.awaitsPubcomp m mem awaits)
  pubrelRecord := fun m mem qos present =>
    acknowledged_log (starts _) (durable.pubrelRecord m mem qos present)
  released := fun m mem qos released =>
    durable.released m mem qos (released_log (starts _) (other _) released)
  queued := fun m mem qos queued => acknowledged_log (starts _) (durable.queued m mem qos queued)

/-- PUBREL is put in the store and sent, for an id whose publication, if there is one in
flight, was acknowledged with PUBREC. -/
theorem Durable.sendPubrel (durable : e.Durable) {rc : CompletionCode}
    (acknowledged : ∀ m ∈ e.outbound, m.msgid = msgid → m.qos = 2 → e.Acknowledged msgid) :
    (e.sendAck e.mqttVersion .pubrel msgid rc).Durable := by
  have put : e.sendAck e.mqttVersion .pubrel msgid rc =
      (e.put (key .pubrel e.mqttVersion msgid) (.pubrel msgid)).log (.sentAck .pubrel msgid rc) :=
    rfl
  rw [put]
  have record (k : PersistenceKey) :
      (e.put (key .pubrel e.mqttVersion msgid) (.pubrel msgid)).record k =
        if k = key .pubrel e.mqttVersion msgid then some (.pubrel msgid) else e.record k := by
    simp [durable.persistent]
  have sent (id : Nat) : (e.put (key .pubrel e.mqttVersion msgid) (.pubrel msgid)).record
      (key .publishSent e.mqttVersion id) = e.record (key .publishSent e.mqttVersion id) := by
    rw [record, if_neg (by simp [key_inj])]
  constructor
  · exact (durable.put (files_pubrel _ _)).log _
  · exact durable.persistent
  · exact durable.distinct
  · intro m mem
    obtain ⟨publish, stored, qos⟩ := durable.sent m mem
    exact ⟨publish, (sent m.msgid).trans stored, qos⟩
  · intro id present
    exact durable.inFlight id fun absent => present ((sent id).trans absent)
  · intro m mem awaits
    exact acknowledged_log rfl (durable.awaitsPubcomp m mem awaits)
  · intro m mem qos present
    refine acknowledged_log rfl ?_
    by_cases same : m.msgid = msgid
    · exact same ▸ acknowledged m mem same qos
    · refine durable.pubrelRecord m mem qos fun absent => present ?_
      exact (record _).trans ((if_neg (by simp [key_inj, same])).trans absent)
  · intro m mem qos released
    change (e.put (key .pubrel e.mqttVersion msgid) (.pubrel msgid)).record
      (key .pubrel e.mqttVersion m.msgid) ≠ none
    rw [record]
    by_cases same : m.msgid = msgid
    · simp [same]
    · rw [if_neg (by simp [key_inj, same])]
      refine durable.released m mem qos (released_log rfl ?_ released)
      intro rc' sent
      exact same (Event.sentAck.inj sent).2.1.symm
  · intro m mem qos queued
    exact acknowledged_log rfl (durable.queued m mem qos queued)

theorem Durable.sendAck (durable : e.Durable) {type : PacketType} {rc : CompletionCode}
    (acknowledged : type = .pubrel →
      ∀ m ∈ e.outbound, m.msgid = msgid → m.qos = 2 → e.Acknowledged msgid) :
    (e.sendAck e.mqttVersion type msgid rc).Durable := by
  by_cases pubrel : type = .pubrel
  · subst pubrel
    exact durable.sendPubrel (acknowledged rfl)
  · have unrecorded : e.sendAck e.mqttVersion type msgid rc = e.log (.sentAck type msgid rc) := by
      simp [Exchange.sendAck, putAck, pubrel]
    rw [unrecorded]
    refine durable.log (fun _ => rfl) fun id rc' same => pubrel (Event.sentAck.inj same).1

theorem Durable.queueAck (durable : e.Durable) {type : PacketType}
    (acknowledged : type = .pubrel →
      ∀ m ∈ e.outbound, m.msgid = msgid → m.qos = 2 → e.Acknowledged msgid) :
    (e.queueAck type msgid).Durable := by
  have logged : (e.log (.queuedAck type msgid)).Durable := durable.log (fun _ => rfl) (by simp)
  refine { logged with queued := fun m mem qos queued => ?_ }
  rcases List.mem_append.mp queued with old | new
  · exact acknowledged_log rfl (durable.queued m mem qos old)
  · have same := AckRequest.mk.inj (List.mem_singleton.mp new)
    exact acknowledged_log rfl (same.1 ▸ acknowledged same.2.symm m mem same.1 qos)

theorem Acknowledges.durable {type : PacketType} (acknowledges : Acknowledges e type msgid e')
    (durable : e.Durable)
    (acknowledged : type = .pubrel →
      ∀ m ∈ e.outbound, m.msgid = msgid → m.qos = 2 → e.Acknowledged msgid) : e'.Durable := by
  cases acknowledges with
  | sent rc => exact durable.sendAck acknowledged
  | queued => exact durable.queueAck acknowledged

theorem Durable.finishOutbound (durable : e.Durable) (msgId : Nat) :
    (e.finishOutbound msgId).Durable := by
  have sent {id : Nat} (different : id ≠ msgId) :
      (e.finishOutbound msgId).record (key .publishSent e.mqttVersion id) =
        e.record (key .publishSent e.mqttVersion id) := by
    rw [finishOutbound_record, if_neg (by simp [key_mem_removedKeys, different])]
  have pubrel {id : Nat} (different : id ≠ msgId) :
      (e.finishOutbound msgId).record (key .pubrel e.mqttVersion id) =
        e.record (key .pubrel e.mqttVersion id) := by
    rw [finishOutbound_record, if_neg (by simp [key_mem_removedKeys, different])]
  have mem_outbound (m : Messages) :
      m ∈ (e.finishOutbound msgId).outbound ↔ m ∈ e.outbound ∧ m.msgid ≠ msgId :=
    mem_removeMessage durable.distinct
  constructor
  · exact durable.toFiled.finishOutbound msgId
  · exact durable.persistent
  · exact ids_removeMessage_nodup durable.distinct
  · intro m mem
    obtain ⟨mem, different⟩ := (mem_outbound m).mp mem
    exact (sent different).symm ▸ durable.sent m mem
  · intro id present
    have different : id ≠ msgId := by
      rintro rfl
      refine present ?_
      rw [finishOutbound_record, if_pos (by simp [key_mem_removedKeys])]
    refine (mem_ids_removeMessage durable.distinct).mpr ⟨?_, different⟩
    exact durable.inFlight id fun absent => present ((sent different).trans absent)
  · intro m mem awaits
    exact durable.awaitsPubcomp m ((mem_outbound m).mp mem).1 awaits
  · intro m mem qos present
    obtain ⟨mem, different⟩ := (mem_outbound m).mp mem
    exact durable.pubrelRecord m mem qos fun absent => present ((pubrel different).trans absent)
  · intro m mem qos released
    obtain ⟨mem, different⟩ := (mem_outbound m).mp mem
    exact fun absent => durable.released m mem qos released ((pubrel different).symm.trans absent)
  · exact fun m mem qos queued => durable.queued m ((mem_outbound m).mp mem).1 qos queued

theorem Durable.acceptPubrec (durable : e.Durable) (acknowledged : e.Acknowledged msgid) :
    (e.acceptPubrec msgid).Durable := by
  have sameIds : ids (e.acceptPubrec msgid).outbound = ids e.outbound :=
    ids_updateMessage fun _ same => same
  have original {m : Messages} (mem : m ∈ (e.acceptPubrec msgid).outbound) :
      ∃ old ∈ e.outbound, old.msgid = m.msgid ∧ old.qos = m.qos ∧
        (m = old ∨ m.msgid = msgid) := by
    rcases (mem_updateMessage durable.distinct).mp mem with kept | ⟨old, oldMem, oldId, rfl⟩
    · exact ⟨m, kept.1, rfl, rfl, .inl rfl⟩
    · exact ⟨old, oldMem, rfl, rfl, .inr oldId⟩
  constructor
  · exact durable.toFiled.acceptPubrec msgid
  · exact durable.persistent
  · exact sameIds ▸ durable.distinct
  · intro m mem
    obtain ⟨old, oldMem, id, qos, _⟩ := original mem
    exact id ▸ qos ▸ durable.sent old oldMem
  · exact fun id present => sameIds ▸ durable.inFlight id present
  · intro m mem awaits
    obtain ⟨old, oldMem, _, _, same | isId⟩ := original mem
    · exact durable.awaitsPubcomp m (same ▸ oldMem) awaits
    · exact isId ▸ acknowledged
  · intro m mem qos present
    obtain ⟨old, oldMem, id, sameQos, _⟩ := original mem
    exact id ▸ durable.pubrelRecord old oldMem (sameQos.trans qos) (id ▸ present)
  · intro m mem qos released
    obtain ⟨old, oldMem, id, sameQos, _⟩ := original mem
    have present := durable.released old oldMem (sameQos.trans qos) (id ▸ released)
    exact id ▸ present
  · intro m mem qos queued
    obtain ⟨old, oldMem, id, sameQos, _⟩ := original mem
    exact id ▸ durable.queued old oldMem (sameQos.trans qos) (id ▸ queued)

/-- A PUBLISH is sent again for a message in flight. -/
theorem Durable.retryPublish (durable : e.Durable) {m : Messages} (mem : m ∈ e.outbound)
    {rc : CompletionCode} : (e.sendPublish (MQTTProtocol.retryPublish m) rc).Durable := by
  have version : (MQTTProtocol.retryPublish m).mqttVersion = e.mqttVersion :=
    durable.version m mem
  have put : e.sendPublish (MQTTProtocol.retryPublish m) rc =
      (e.put (key .publishSent e.mqttVersion m.msgid)
        (.publish (MQTTProtocol.retryPublish m))).log (.sentPublish m.msgid true rc) := by
    rw [sendPublish, version]
    rfl
  rw [put]
  refine Durable.log ?_ (fun _ => rfl) (by simp)
  have record (k : PersistenceKey) :
      (e.put (key .publishSent e.mqttVersion m.msgid)
        (.publish (MQTTProtocol.retryPublish m))).record k =
        if k = key .publishSent e.mqttVersion m.msgid
          then some (.publish (MQTTProtocol.retryPublish m)) else e.record k := by
    simp [durable.persistent]
  have pubrel (id : Nat) : (e.put (key .publishSent e.mqttVersion m.msgid)
      (.publish (MQTTProtocol.retryPublish m))).record (key .pubrel e.mqttVersion id) =
        e.record (key .pubrel e.mqttVersion id) := by
    rw [record, if_neg (by simp [key_inj])]
  constructor
  · exact durable.put (files_publishSent _ (MQTTProtocol.retryPublish m))
  · exact durable.persistent
  · exact durable.distinct
  · intro other otherMem
    by_cases same : other.msgid = m.msgid
    · have isM := eq_of_mem_of_nodup durable.distinct otherMem mem same
      exact ⟨_, (record _).trans (if_pos (by rw [isM]; rfl)), by rw [isM]; rfl⟩
    · obtain ⟨publish, stored, qos⟩ := durable.sent other otherMem
      exact ⟨publish, (record _).trans ((if_neg (by simp [key_inj, same])).trans stored), qos⟩
  · intro id present
    by_cases same : id = m.msgid
    · exact same ▸ mem_ids_of_mem mem
    · refine durable.inFlight id fun absent => present ?_
      exact (record _).trans ((if_neg (by simp [key_inj, same])).trans absent)
  · exact durable.awaitsPubcomp
  · exact fun other otherMem qos present =>
      durable.pubrelRecord other otherMem qos fun absent => present ((pubrel _).trans absent)
  · exact fun other otherMem qos released absent =>
      durable.released other otherMem qos released ((pubrel _).symm.trans absent)
  · exact durable.queued

/-- No PUBREL is recorded or queued for this id. -/
def Unreleased (e : Exchange) (msgid : Nat) : Prop :=
  e.record (key .pubrel e.mqttVersion msgid) = none ∧ ⟨msgid, .pubrel⟩ ∉ e.queue

section Starting

variable {message : Session.Message}

theorem mem_sinceStarted_start {m : Messages} {msgId qos : Nat} {rc : CompletionCode}
    (different : m.msgid ≠ msgId) (event : Event) (trace : List Event) :
    event ∈ sinceStarted m.msgid (.sentPublish msgId false rc :: .started msgId qos :: trace) ↔
      event = .sentPublish msgId false rc ∨ event = .started msgId qos ∨
        event ∈ sinceStarted m.msgid trace := by
  rw [sinceStarted_cons, sinceStarted_cons]
  simp [Event.starts, different.symm]

/-- A publication starts, under an id for which no PUBREL is recorded or queued if it is of
QoS 2. -/
theorem starts_durable (starts : Starts e message msgid e') (durable : e.Durable)
    (unreleased : message.qos = 2 → e.Unreleased msgid) : e'.Durable := by
  cases starts with
  | unacknowledged qos => exact durable.log (fun _ => rfl) (by simp)
  | @start _ rc positive unused qos =>
      set publish := Session.publishPacket e.mqttVersion message false msgid with publish_def
      set started := (e.start (MQTTProtocol.createMessage publish message.qos message.retained
        0)).sendPublish publish rc with started_def
      have record (k : PersistenceKey) : started.record k =
          if k = key .publishSent e.mqttVersion msgid then some (.publish publish)
          else e.record k := by
        simp [started_def, durable.persistent, publish_def, Session.publishPacket]
      have trace : started.trace =
          .sentPublish msgid false rc :: .started msgid message.qos :: e.trace := by
        simp [started_def, publish_def, Session.publishPacket]
      have old {m : Messages} (mem : m ∈ e.outbound) : m.msgid ≠ msgid :=
        fun same => unused (same ▸ mem_ids_of_mem mem)
      have acknowledged {m : Messages} (mem : m ∈ e.outbound) (before : e.Acknowledged m.msgid) :
          started.Acknowledged m.msgid := by
        unfold Acknowledged
        rw [trace, mem_sinceStarted_start (old mem)]
        exact .inr (.inr before)
      have released {m : Messages} (mem : m ∈ e.outbound) (after : started.Released m.msgid) :
          e.Released m.msgid := by
        obtain ⟨rc', sent⟩ := after
        rw [trace, mem_sinceStarted_start (old mem)] at sent
        rcases sent with impossible | impossible | sent
        · cases impossible
        · cases impossible
        · exact ⟨rc', sent⟩
      have mem_outbound {m : Messages} (mem : m ∈ started.outbound) : m ∈ e.outbound ∨
          m = MQTTProtocol.createMessage publish message.qos message.retained 0 :=
        (List.mem_append.mp mem).imp_right List.mem_singleton.mp
      have pubrel (id : Nat) : started.record (key .pubrel e.mqttVersion id) =
          e.record (key .pubrel e.mqttVersion id) := by
        rw [record, if_neg (by simp [key_inj])]
      constructor
      · exact starts_filed (.start positive unused qos) durable.toFiled
      · exact durable.persistent
      · have fresh : (ids (e.outbound ++ [MQTTProtocol.createMessage publish message.qos
            message.retained 0])).Nodup := by
          rw [ids_append]
          refine List.nodup_append.mpr ⟨durable.distinct, List.nodup_singleton _, ?_⟩
          rintro id mem other new rfl
          have same : id = msgid := List.mem_singleton.mp new
          exact unused (same ▸ mem)
        exact fresh
      · intro m mem
        rcases mem_outbound mem with mem | rfl
        · obtain ⟨sent, stored, qos⟩ := durable.sent m mem
          have other := record (key .publishSent e.mqttVersion m.msgid)
          simp only [key_inj, old mem, and_false, if_false] at other
          exact ⟨sent, other.trans stored, qos⟩
        · exact ⟨publish, (record _).trans (if_pos rfl), rfl⟩
      · intro id present
        change started.record (key .publishSent e.mqttVersion id) ≠ none at present
        have outbound : ids started.outbound = ids e.outbound ++ [msgid] := ids_append _ _
        rw [outbound, List.mem_append, List.mem_singleton]
        by_cases same : id = msgid
        · exact .inr same
        · rw [record, if_neg (by simp [key_inj, same])] at present
          exact .inl (durable.inFlight id present)
      · intro m mem awaits
        rcases mem_outbound mem with mem | rfl
        · exact acknowledged mem (durable.awaitsPubcomp m mem awaits)
        · exact absurd awaits.2 (MQTTProtocol.createMessage_nextMessageType_ne _ _ _ _)
      · intro m mem qos present
        rcases mem_outbound mem with mem | rfl
        · exact acknowledged mem
            (durable.pubrelRecord m mem qos fun absent => present ((pubrel _).trans absent))
        · exact absurd ((pubrel _).trans (unreleased qos).1) present
      · intro m mem qos after
        rcases mem_outbound mem with mem | rfl
        · exact fun absent => durable.released m mem qos (released mem after)
            ((pubrel _).symm.trans absent)
        · obtain ⟨rc', sent⟩ := after
          have sent : Event.sentAck .pubrel msgid rc' ∈ sinceStarted msgid started.trace := sent
          rw [trace, sinceStarted_cons, sinceStarted_cons] at sent
          simp [Event.starts] at sent
      · intro m mem qos queued
        rcases mem_outbound mem with mem | rfl
        · exact acknowledged mem (durable.queued m mem qos queued)
        · exact absurd queued (unreleased qos).2

end Starting

theorem Durable.clean (durable : e.Durable) : e.clean.Durable where
  toFiled := durable.toFiled.clean
  persistent := durable.persistent
  distinct := List.nodup_nil
  sent := fun _ mem => absurd mem List.not_mem_nil
  inFlight := fun id present => absurd (by rw [clean_record]; exact if_pos rfl) present
  awaitsPubcomp := fun _ mem => absurd mem List.not_mem_nil
  pubrelRecord := fun _ mem => absurd mem List.not_mem_nil
  released := fun _ mem => absurd mem List.not_mem_nil
  queued := fun _ mem => absurd mem List.not_mem_nil

theorem Durable.persistReceived (durable : e.Durable) {publish : Publish}
    (version : publish.mqttVersion = e.mqttVersion) (qos : publish.qos = 2) :
    (e.persistReceived publish).Durable := by
  have other {stem : Stem} (different : stem ≠ .publishReceived) (id : Nat) :
      (e.persistReceived publish).record (key stem e.mqttVersion id) =
        e.record (key stem e.mqttVersion id) := by
    rw [persistReceived_record, if_neg]
    rintro ⟨_, same⟩
    exact different (PersistenceKey.mk.inj same).1
  exact durable.of_frame rfl rfl rfl rfl rfl (durable.toFiled.persistReceived version qos)
    (other Stem.noConfusion) (other Stem.noConfusion)

theorem Durable.storeInbound (durable : e.Durable) (m : Messages) :
    (e.storeInbound m).Durable :=
  durable.of_frame (by simp) (by simp) (by simp) (by simp) (by simp)
    (durable.toFiled.storeInbound m) (by simp) (by simp)

theorem Durable.finishInbound (durable : e.Durable) (msgId : Nat) :
    (e.finishInbound msgId).Durable := by
  have other {stem : Stem} (different : stem ≠ .publishReceived) (id : Nat) :
      (e.finishInbound msgId).record (key stem e.mqttVersion id) =
        e.record (key stem e.mqttVersion id) := by
    rw [finishInbound_record, if_neg]
    simp [removedKeys, key, different]
  exact durable.of_frame rfl rfl rfl rfl rfl (durable.toFiled.finishInbound msgId)
    (other Stem.noConfusion) (other Stem.noConfusion)

theorem internal_durable (internal : Internal e e') (durable : e.Durable) : e'.Durable := by
  cases internal with
  | retryPublish mem awaits rc => exact durable.retryPublish mem
  | @retryPubrel m mem awaits rc =>
      rw [durable.version m mem]
      refine durable.sendPubrel fun other otherMem same qos => ?_
      have isM := eq_of_mem_of_nodup durable.distinct otherMem mem same
      exact durable.awaitsPubcomp m mem ⟨isM ▸ qos, awaits.2⟩
  | @sendQueued ackReq mem rc =>
      refine durable.sendAck fun pubrel m otherMem same qos => ?_
      have queued : ⟨m.msgid, .pubrel⟩ ∈ e.queue := by
        rw [same, ← pubrel]
        exact mem
      exact same ▸ durable.queued m otherMem qos queued
  | resent => exact durable.log (fun _ => rfl) (by simp)
  | dropQueue =>
      exact { durable with queued := fun _ _ _ queued => absurd queued List.not_mem_nil }
  | clean => exact durable.clean
  | connect => exact durable.log (fun _ => rfl) (by simp)

theorem internals_durable (internals : ReflTransGen Internal e e') (durable : e.Durable) :
    e'.Durable := by
  induction internals with
  | refl => exact durable
  | tail _ internal ih => exact internal_durable internal ih

theorem handles_durable {packet : Session.Packet} (handles : Handles e packet e')
    (durable : e.Durable) : e'.Durable := by
  have received (type : PacketType) (id : Nat) : (e.log (.received type id)).Durable :=
    durable.log (fun _ => rfl) (by simp)
  have receivedPublish (publish : Publish) : (e.log (.receivedPublish publish)).Durable :=
    durable.log (fun _ => rfl) (by simp)
  cases handles with
  | pubackIgnored ignored => exact received _ _
  | puback found qos => exact (received _ _).finishOutbound _
  | pubrecUnexpected unexpected acknowledges =>
      exact acknowledges.durable (received _ _) fun _ _ _ _ _ => acknowledged_received e _
  | pubrecError found awaits version error => exact (received _ _).finishOutbound _
  | pubrec found awaits acknowledges =>
      exact acknowledges.durable ((received _ _).acceptPubrec (acknowledged_received e _))
        fun _ _ _ _ _ => acknowledged_received e _
  | pubcompUnexpected unexpected => exact received _ _
  | pubcomp found awaits => exact (received _ _).finishOutbound _
  | publish0 qos => exact (receivedPublish _).log (fun _ => rfl) (by simp)
  | publish1 qos acknowledges =>
      exact acknowledges.durable ((receivedPublish _).log (fun _ => rfl) (by simp)) (by simp)
  | publishDelivered qos version new acknowledges =>
      refine acknowledges.durable ?_ (by simp)
      exact (((durable.persistReceived rfl qos).log (fun _ => rfl) (by simp)).storeInbound _).log
        (fun _ => rfl) (by simp)
  | publishKept qos kept acknowledges =>
      refine acknowledges.durable ?_ (by simp)
      exact ((durable.persistReceived rfl qos).log (fun _ => rfl) (by simp)).storeInbound _
  | publishOther qos => exact receivedPublish _
  | pubrelUnexpected unexpected acknowledges =>
      exact acknowledges.durable (received _ _) (by simp)
  | @pubrel msgId m _ found awaits acknowledges =>
      refine acknowledges.durable (Durable.finishInbound ?_ msgId) (by simp)
      split
      · exact received _ _
      · exact (received _ _).log (fun _ => rfl) (by simp)

/-- The message in flight that a publish-sent record belongs to. -/
theorem Durable.message_of_record (durable : e.Durable) {publish : Publish}
    (stored : e.record (key .publishSent e.mqttVersion publish.msgId) = some (.publish publish)) :
    ∃ m ∈ e.outbound, m.msgid = publish.msgId ∧ m.qos = publish.qos := by
  obtain ⟨m, mem, same⟩ := mem_ids.mp (durable.inFlight publish.msgId (by simp [stored]))
  obtain ⟨sent, stored', qos⟩ := durable.sent m mem
  rw [same, stored] at stored'
  cases stored'
  exact ⟨m, mem, same, qos.symm⟩

/-- A restored message waits for PUBCOMP exactly when its PUBREL is recorded. -/
theorem restoredSent_nextMessageType {publish : Publish} (qos : publish.qos = 2) :
    (e.restoredSent publish).nextMessageType =
      if (e.record (key .pubrel e.mqttVersion publish.msgId)).isSome then some .pubcomp
      else some .pubrec := by
  simp [restoredSent, MQTTProtocol.createMessage, qos]

theorem Restores.acknowledged (restores : Restores e e') (durable : e.Durable) {m : Messages}
    (mem : m ∈ e'.outbound) (awaits : AwaitsPubcomp m) : e.Acknowledged m.msgid := by
  obtain ⟨publish, stored, rfl⟩ := (restores.outbound m).mp mem
  obtain ⟨old, oldMem, same, qos⟩ := durable.message_of_record stored
  have recorded : e.record (key .pubrel e.mqttVersion publish.msgId) ≠ none := by
    have next := awaits.2
    rw [restoredSent_nextMessageType awaits.1] at next
    intro absent
    simp [absent] at next
  have acknowledged := durable.pubrelRecord old oldMem (qos.trans awaits.1) (same ▸ recorded)
  rw [same] at acknowledged
  exact acknowledged

theorem Restores.unreleased (restores : Restores e e') (durable : e.Durable) {m : Messages}
    (mem : m ∈ e'.outbound) (awaits : AwaitsPubrec m) : ¬e.Released m.msgid := by
  obtain ⟨publish, stored, rfl⟩ := (restores.outbound m).mp mem
  obtain ⟨old, oldMem, same, qos⟩ := durable.message_of_record stored
  intro released
  have recorded := durable.released old oldMem (qos.trans awaits.1) (same ▸ released)
  have next := awaits.2
  rw [restoredSent_nextMessageType awaits.1] at next
  rw [same] at recorded
  simp [Option.isSome_iff_ne_none, recorded] at next

theorem restores_durable (restores : Restores e e') (durable : e.Durable) : e'.Durable := by
  have acknowledged {id : Nat} (before : e.Acknowledged id) : e'.Acknowledged id := by
    have logged : (e.log .restarted).Acknowledged id := acknowledged_log rfl before
    unfold Acknowledged at logged ⊢
    rw [restores.trace]
    exact logged
  have released {id : Nat} (after : e'.Released id) : e.Released id := by
    unfold Released at after
    rw [restores.trace] at after
    exact released_log (rfl : Event.starts _ .restarted = false) (by simp) after
  have sent (id : Nat) : e'.record (key .publishSent e.mqttVersion id) =
      e.record (key .publishSent e.mqttVersion id) :=
    restores.record _ fun orphan => Stem.noConfusion orphan.1
  have recorded {id : Nat} (present : e'.record (key .pubrel e.mqttVersion id) ≠ none) :
      e.record (key .pubrel e.mqttVersion id) ≠ none := by
    obtain ⟨record, stored⟩ := Option.ne_none_iff_exists'.mp present
    simp [restores.subset stored]
  constructor
  · exact restores.filed durable.toFiled
  · exact restores.persistent.trans durable.persistent
  · exact restores.distinctOutbound
  · intro m mem
    obtain ⟨publish, stored, rfl⟩ := (restores.outbound m).mp mem
    rw [restores.mqttVersion]
    exact ⟨publish, (sent _).trans stored, rfl⟩
  · intro id present
    rw [restores.mqttVersion, sent] at present
    obtain ⟨m, mem, rfl⟩ := mem_ids.mp (durable.inFlight id present)
    obtain ⟨publish, stored, _⟩ := durable.sent m mem
    obtain ⟨_, same, id⟩ := durable.wellKeyed.publishSent stored
    cases same
    rw [← id] at stored ⊢
    exact mem_ids_of_mem ((restores.outbound _).mpr ⟨publish, stored, rfl⟩)
  · exact fun m mem awaits => acknowledged (restores.acknowledged durable mem awaits)
  · intro m mem qos present
    obtain ⟨publish, stored, rfl⟩ := (restores.outbound m).mp mem
    obtain ⟨old, oldMem, same, sameQos⟩ := durable.message_of_record stored
    rw [restores.mqttVersion] at present
    have before := durable.pubrelRecord old oldMem (sameQos.trans qos) (same ▸ recorded present)
    rw [same] at before
    exact acknowledged before
  · intro m mem qos after
    obtain ⟨publish, stored, rfl⟩ := (restores.outbound m).mp mem
    obtain ⟨old, oldMem, same, sameQos⟩ := durable.message_of_record stored
    have before := durable.released old oldMem (sameQos.trans qos) (same ▸ released after)
    have owned : ¬e.Orphan (key .pubrel e.mqttVersion publish.msgId) := by
      rintro ⟨_, absent⟩
      have absent : e.record (key .publishSent e.mqttVersion publish.msgId) = none := absent
      simp [stored] at absent
    rw [restores.mqttVersion]
    exact fun absent => before (same ▸ (restores.record _ owned).symm.trans absent)
  · intro m mem qos queued
    rw [restores.queue] at queued
    exact absurd queued List.not_mem_nil

end Exchange

namespace Session

open Machine MQTTPersistence

/-- A publication of QoS 2 starts under an id for which no PUBREL is recorded or queued. -/
def StartsUnreleased (c : Clients) (input : Input) : Prop :=
  match input.action, nextId c with
  | .publish message, some msgId =>
      c.connected = true → message.qos = 2 →
        c.record (key .pubrel c.mqttVersion msgId) = none ∧
          ⟨msgId, .pubrel⟩ ∉ c.outboundQueue
  | _, _ => True

instance decidableStartsUnreleased (c : Clients) (input : Input) :
    Decidable (StartsUnreleased c input) := by
  unfold StartsUnreleased
  split <;> infer_instance

/-- Every message of QoS 2 restored by a restart is right about what the ended process
exchanged for the publication that last started with its id: one that waits for PUBCOMP had
its PUBREC received or its PUBREL sent, and for one that waits for PUBREC no PUBREL was
sent. -/
def RestoresRightly (before after : Clients) : Prop :=
  ∀ m ∈ after.outboundMsgs, m.qos = 2 →
    (m.nextMessageType = some .pubcomp →
      .received .pubrec m.msgid ∈ sinceStarted m.msgid before.trace ∨
        ∃ rc, .sentAck .pubrel m.msgid rc ∈ sinceStarted m.msgid before.trace) ∧
    (m.nextMessageType = some .pubrec →
      ∀ rc, .sentAck .pubrel m.msgid rc ∉ sinceStarted m.msgid before.trace)

theorem create_durable (mqttVersion : Nat) (cleansession : Bool) :
    (create mqttVersion cleansession (some ∅)).exchange.Durable := by
  have empty (k : PersistenceKey) :
      (create mqttVersion cleansession (some ∅)).exchange.record k = none := by
    simp [Clients.exchange, Clients.record, create]
  have noMessage (m : Messages) :
      m ∉ (create mqttVersion cleansession (some ∅)).exchange.outbound := List.not_mem_nil
  constructor
  · exact create_filed mqttVersion cleansession
  · rfl
  · exact List.nodup_nil
  · exact fun m mem => absurd mem (noMessage m)
  · exact fun id present => absurd (empty _) present
  · exact fun m mem => absurd mem (noMessage m)
  · exact fun m mem => absurd mem (noMessage m)
  · exact fun m mem => absurd mem (noMessage m)
  · exact fun m mem => absurd mem (noMessage m)

/-- One step of a durable session. -/
theorem step_durable (c : Clients) (input : Input) (durable : c.exchange.Durable)
    (guard : ListsKeys c input ∧ StartsUnreleased c input) :
    (step c input).exchange.Durable := by
  by_cases restarts : ∃ keys, input.action = .restart keys
  · obtain ⟨keys, action⟩ := restarts
    have restores := step_restores durable.toFiled action guard.1
    exact Exchange.restores_durable restores durable
  · have running : ∀ keys, input.action ≠ .restart keys :=
      fun keys action => restarts ⟨keys, action⟩
    rcases step_refines (c := c) running with
      internals | ⟨message, msgId, action, starts, connected, next⟩ | ⟨packet, _, handles⟩
    · exact Exchange.internals_durable internals durable
    · refine Exchange.starts_durable starts durable fun qos => ?_
      have unreleased := guard.2
      simp only [StartsUnreleased, action, next (by omega)] at unreleased
      exact unreleased connected qos
    · exact Exchange.handles_durable handles durable

theorem restart_restoresRightly {c : Clients} {input : Input} {keys : List PersistenceKey}
    (durable : c.exchange.Durable) (action : input.action = .restart keys)
    (listed : ListsKeys c input) : RestoresRightly c (step c input) := by
  have restores := step_restores durable.toFiled action listed
  intro m mem qos
  have mem' : m.untouched ∈ (step c input).exchange.outbound := List.mem_map_of_mem mem
  constructor
  · intro next
    have acknowledged := restores.acknowledged durable mem' ⟨qos, next⟩
    exact .inl acknowledged
  · intro next rc released
    have unreleased := restores.unreleased durable mem' ⟨qos, next⟩
    exact unreleased ⟨rc, released⟩

/-- Durable sessions. If in a run every publication of QoS 2 starts under an id for which no
PUBREL is recorded or queued, every restart restores the messages of QoS 2 rightly. -/
theorem durable_session {mqttVersion : Nat} {cleansession : Bool} {inputs : List Input}
    (listed : Guarded step ListsKeys (create mqttVersion cleansession (some ∅)) inputs)
    (unreleased :
      Guarded step StartsUnreleased (create mqttVersion cleansession (some ∅)) inputs)
    {before after : List Input} {input : Input} {keys : List PersistenceKey}
    (split : inputs = before ++ input :: after) (action : input.action = .restart keys) :
    let c := run step (create mqttVersion cleansession (some ∅)) before
    RestoresRightly c (step c input) := by
  have listed := guarded_append.mp (split ▸ listed)
  have unreleased := guarded_append.mp (split ▸ unreleased)
  have durable := invariant_of_guarded step_durable (create_durable mqttVersion cleansession)
    (listed.1.and unreleased.1)
  exact restart_restoresRightly durable action listed.2.1

/-- A run that meets the condition: the message waits for PUBCOMP after the restart. -/
theorem durable_session_pubrec :
    let before : List Input :=
      [{ action := .connect true }, { action := .publish ⟨[], [], 2, false, []⟩ },
        { action := .receive (.pubrec 1 0) }]
    let input : Input :=
      { action := .restart [⟨.pubrel, false, 1⟩, ⟨.publishSent, false, 1⟩] }
    let c := run step (create 4 false (some ∅)) before
    RestoresRightly c (step c input) := by
  intro before input
  have listed : Guarded step ListsKeys (create 4 false (some ∅)) (before ++ [input]) := by decide
  have unreleased : Guarded step StartsUnreleased (create 4 false (some ∅))
    (before ++ [input]) := by
    decide
  exact durable_session listed unreleased rfl rfl

/-- The server acknowledges an id that the client does not know. The PUBREL that answers it is
recorded, and a publication that then gets the id is restored as if it had been received. -/
theorem durable_session_unknown_pubrec :
    let before : List Input :=
      [{ action := .connect true }, { action := .receive (.pubrec 1 0) },
        { action := .publish ⟨[], [], 2, false, []⟩ }]
    let input : Input :=
      { action := .restart [⟨.publishSent, false, 1⟩, ⟨.pubrel, false, 1⟩] }
    let c := run step (create 4 false (some ∅)) before
    Guarded step ListsKeys (create 4 false (some ∅)) (before ++ [input]) ∧
      ¬RestoresRightly c (step c input) := by
  intro before input c
  refine ⟨by decide, fun rightly => ?_⟩
  have restored : (⟨2, false, 1, 4, [], some ⟨some [], some []⟩, 0, some .pubcomp⟩ : Messages) ∈
      (step c input).outboundMsgs := by decide
  rcases (rightly _ restored rfl).1 rfl with received | ⟨rc, released⟩
  · exact absurd received (by decide)
  · cases rc <;> exact absurd released (by decide)

end Session

end Paho
