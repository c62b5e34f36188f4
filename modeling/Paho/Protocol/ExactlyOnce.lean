import Paho.Protocol.Restoring

/-!
# Inbound publications of QoS 2

Exactly-once delivery as a property of the trace. Before version 5 a publication is passed on
when it is released by PUBREL, and it is the last one received under its id; from version 5 on
it is passed on when it is first received. In every run, with restarts anywhere, what was
passed on is what the received packets require.
-/

namespace Paho

open Relation

/-- The publication of QoS 2 that was last received with this id and not released since. -/
def pending (msgid : Nat) : List Event → Option Publish
  | [] => none
  | .receivedPublish publish :: older =>
      if publish.qos = 2 ∧ publish.msgId = msgid then some publish else pending msgid older
  | .received type id :: older =>
      if type = .pubrel ∧ id = msgid then none else pending msgid older
  | .sessionCleaned :: _ => none
  | .started _ _ :: older => pending msgid older
  | .sentPublish _ _ _ :: older => pending msgid older
  | .sentAck _ _ _ :: older => pending msgid older
  | .queuedAck _ _ :: older => pending msgid older
  | .resent _ _ :: older => pending msgid older
  | .processed _ :: older => pending msgid older
  | .connected :: older => pending msgid older
  | .restarted :: older => pending msgid older

/-- The publications of QoS 2 that the received packets require to be passed on, newest
first. -/
def expected (mqttVersion : Nat) : List Event → List Publish
  | [] => []
  | .receivedPublish publish :: older =>
      if publish.qos = 2 ∧ mqttVersion5 ≤ mqttVersion ∧ pending publish.msgId older = none then
        publish.content :: expected mqttVersion older
      else expected mqttVersion older
  | .received type id :: older =>
      match type, pending id older with
      | .pubrel, some publish =>
          if mqttVersion5 ≤ mqttVersion then expected mqttVersion older
          else publish.content :: expected mqttVersion older
      | _, _ => expected mqttVersion older
  | _ :: older => expected mqttVersion older

/-- The publications of QoS 2 that were passed on, newest first. -/
def passedOn (trace : List Event) : List Publish :=
  trace.filterMap fun
    | .processed publish => if publish.qos = 2 then some publish else none
    | _ => none

theorem passedOn_processed {publish : Publish} (qos : publish.qos = 2) (trace : List Event) :
    passedOn (.processed publish :: trace) = publish :: passedOn trace := by
  simp [passedOn, qos]

@[simp]
theorem passedOn_received (type : PacketType) (id : Nat) (trace : List Event) :
    passedOn (.received type id :: trace) = passedOn trace :=
  rfl

@[simp]
theorem passedOn_receivedPublish (publish : Publish) (trace : List Event) :
    passedOn (.receivedPublish publish :: trace) = passedOn trace :=
  rfl

theorem pending_receivedPublish {publish : Publish} (qos : publish.qos = 2) (msgid : Nat)
    (trace : List Event) :
    pending msgid (.receivedPublish publish :: trace) =
      if msgid = publish.msgId then some publish else pending msgid trace := by
  by_cases same : msgid = publish.msgId
  · simp [pending, qos, same]
  · simp [pending, same, Ne.symm same]

/-- Events without a part in the inbound exchanges of QoS 2. -/
def Event.OutsideInbound : Event → Prop
  | .receivedPublish publish => publish.qos ≠ 2
  | .processed publish => publish.qos ≠ 2
  | .received type _ => type ≠ .pubrel
  | .sessionCleaned => False
  | _ => True

theorem pending_outside {event : Event} (outside : event.OutsideInbound) (msgid : Nat)
    (trace : List Event) : pending msgid (event :: trace) = pending msgid trace := by
  cases event <;> simp_all [Event.OutsideInbound, pending]

theorem expected_outside {event : Event} (outside : event.OutsideInbound) (mqttVersion : Nat)
    (trace : List Event) : expected mqttVersion (event :: trace) = expected mqttVersion trace := by
  cases event <;> simp_all [Event.OutsideInbound, expected]

theorem passedOn_outside {event : Event} (outside : event.OutsideInbound) (trace : List Event) :
    passedOn (event :: trace) = passedOn trace := by
  cases event <;> simp_all [Event.OutsideInbound, passedOn]

namespace MQTTProtocol

/-- The handlers pass on the content of a packet from the server. -/
theorem publicationOf_receivedMessage (mqttVersion : Nat) (message : Session.Message) (dup : Bool)
    (msgId : Nat) :
    publicationOf (receivedMessage (Session.publishPacket mqttVersion message dup msgId)) =
      (Session.publishPacket mqttVersion message dup msgId).content := by
  by_cases new : mqttVersion5 ≤ mqttVersion <;>
    simp [publicationOf, receivedMessage, Session.publishPacket, storePublication,
      Publish.content, new]

end MQTTProtocol

namespace Exchange

open MQTTPersistence

/-- The messages kept for PUBREL, their records and the trace agree. -/
structure ReceivesOnce (e : Exchange) : Prop extends Filed e where
  persistent : e.persistent = true
  distinct : (ids e.inbound).Nodup
  awaits : ∀ m ∈ e.inbound, AwaitsInboundPubrel m ∧ m.mqttVersion = e.mqttVersion
  content : ∀ m ∈ e.inbound, ∃ publish : Publish,
    pending m.msgid e.trace = some publish ∧
      e.record (key .publishReceived e.mqttVersion m.msgid) = some (.publish publish) ∧
      (e.mqttVersion < mqttVersion5 → MQTTProtocol.publicationOf m = publish.content)
  kept : ∀ id, pending id e.trace ≠ none → id ∈ ids e.inbound
  recorded : ∀ id, e.record (key .publishReceived e.mqttVersion id) ≠ none → id ∈ ids e.inbound
  once : passedOn e.trace = expected e.mqttVersion e.trace

variable {e e' : Exchange} {msgid : Nat}

theorem receivedKey_mem_removedKeys {stem : Stem} {version id msgId : Nat} :
    key stem version id ∈ removedKeys .publishReceived msgId ↔
      stem = .publishReceived ∧ id = msgId := by
  unfold key removedKeys
  generalize decide (mqttVersion5 ≤ version) = v5
  cases stem <;> cases v5 <;> simp

theorem persistReceived_receivedKey {publish : Publish} (persistent : e.persistent = true)
    (id : Nat) :
    (e.persistReceived publish).record (key .publishReceived publish.mqttVersion id) =
      if id = publish.msgId then some (.publish publish)
      else e.record (key .publishReceived publish.mqttVersion id) := by
  by_cases same : id = publish.msgId <;> simp [persistent, key_inj, same]

theorem receivedKey_not_mem_removedKeys {version id msgId : Nat} :
    key .publishReceived version id ∉ removedKeys .publishSent msgId := by
  simp [key, removedKeys]

theorem mem_storeInbound {m other : Messages} (distinct : (ids e.inbound).Nodup) :
    other ∈ (e.storeInbound m).inbound ↔
      (other ∈ e.inbound ∧ other.msgid ≠ m.msgid) ∨ other = m := by
  unfold storeInbound
  cases found : findMessage e.inbound m.msgid with
  | none =>
      have new : m.msgid ∉ ids e.inbound := findMessage_eq_none.mp found
      have different : ∀ other ∈ e.inbound, other.msgid ≠ m.msgid :=
        fun other mem same => new (same ▸ mem_ids_of_mem mem)
      simp only [Option.isSome_none, Bool.false_eq_true, if_false, List.mem_append,
        List.mem_singleton]
      grind
  | some old =>
      have oldMem := findMessage_mem found
      simp only [Option.isSome_some, if_true, mem_updateMessage distinct]
      grind

theorem storeInbound_inbound {m : Messages} (same : e'.inbound = e.inbound) :
    (e'.storeInbound m).inbound = (e.storeInbound m).inbound := by
  unfold storeInbound
  rw [same]
  split <;> simp

theorem storeInbound_nodup {m : Messages} (distinct : (ids e.inbound).Nodup) :
    (ids (e.storeInbound m).inbound).Nodup := by
  unfold storeInbound
  split
  next =>
    dsimp only
    rwa [ids_updateMessage fun _ _ => rfl]
  next absent =>
    have new : m.msgid ∉ ids e.inbound :=
      findMessage_eq_none.mp (Option.not_isSome_iff_eq_none.mp absent)
    simp only [ids_append, ids_cons, ids_nil]
    exact List.nodup_append_comm.mp (List.nodup_cons.mpr ⟨new, distinct⟩)

namespace ReceivesOnce

/-- An exchange in which the inbound side is as it was. -/
theorem of_frame (receives : e.ReceivesOnce) (filed : e'.Filed)
    (version : e'.mqttVersion = e.mqttVersion) (persistent : e'.persistent = e.persistent)
    (inbound : e'.inbound = e.inbound)
    (record : ∀ id, e'.record (key .publishReceived e.mqttVersion id) =
      e.record (key .publishReceived e.mqttVersion id))
    (pends : ∀ id, pending id e'.trace = pending id e.trace)
    (once : passedOn e'.trace = expected e.mqttVersion e'.trace) : e'.ReceivesOnce := by
  constructor
  · exact filed
  · exact persistent.trans receives.persistent
  · exact inbound ▸ receives.distinct
  · simpa only [inbound, version] using receives.awaits
  · simpa only [inbound, version, record, pends] using receives.content
  · simpa only [inbound, pends] using receives.kept
  · simpa only [inbound, version, record] using receives.recorded
  · exact version ▸ once

/-- An exchange that differs in an event outside the inbound side. -/
theorem of_outside (receives : e.ReceivesOnce) (event : Event) (outside : event.OutsideInbound)
    (filed : e'.Filed) (version : e'.mqttVersion = e.mqttVersion)
    (persistent : e'.persistent = e.persistent) (inbound : e'.inbound = e.inbound)
    (record : ∀ id, e'.record (key .publishReceived e.mqttVersion id) =
      e.record (key .publishReceived e.mqttVersion id))
    (trace : e'.trace = event :: e.trace) : e'.ReceivesOnce := by
  refine receives.of_frame filed version persistent inbound record (fun id => ?_) ?_
  · rw [trace, pending_outside outside]
  · rw [trace, passedOn_outside outside, expected_outside outside, receives.once]

theorem log (receives : e.ReceivesOnce) {event : Event} (outside : event.OutsideInbound) :
    (e.log event).ReceivesOnce :=
  receives.of_outside event outside (receives.toFiled.log event) rfl rfl rfl (fun _ => rfl) rfl

theorem logAck (receives : e.ReceivesOnce) {type : PacketType} (other : type ≠ .pubrel) :
    (e.log (.received type msgid)).ReceivesOnce :=
  receives.log other

theorem logPublish (receives : e.ReceivesOnce) {publish : Publish} (other : publish.qos ≠ 2) :
    (e.log (.receivedPublish publish)).ReceivesOnce :=
  receives.log other

theorem logProcessed (receives : e.ReceivesOnce) {publish : Publish} (other : publish.qos ≠ 2) :
    (e.log (.processed publish)).ReceivesOnce :=
  receives.log other

theorem sendAck (receives : e.ReceivesOnce) (type : PacketType) (rc : CompletionCode) :
    (e.sendAck e.mqttVersion type msgid rc).ReceivesOnce := by
  refine receives.of_outside (.sentAck type msgid rc) trivial
    (receives.toFiled.sendAck type rc) (by simp) (by simp) (by simp) (fun id => ?_) (by simp)
  rw [sendAck_record, if_neg]
  rintro ⟨_, _, same⟩
  exact Stem.noConfusion (key_inj.mp same).1

theorem acknowledges (receives : e.ReceivesOnce) {type : PacketType}
    (acknowledges : Acknowledges e type msgid e') : e'.ReceivesOnce := by
  cases acknowledges with
  | sent rc => exact receives.sendAck type rc
  | queued =>
      exact receives.of_outside (.queuedAck type msgid) trivial
        ⟨receives.wellKeyed, receives.version⟩ rfl rfl rfl (fun _ => rfl) rfl

theorem finishOutbound (receives : e.ReceivesOnce) (msgId : Nat) :
    (e.finishOutbound msgId).ReceivesOnce := by
  refine receives.of_frame (receives.toFiled.finishOutbound msgId) rfl rfl rfl (fun id => ?_)
    (fun _ => rfl) receives.once
  rw [finishOutbound_record, if_neg receivedKey_not_mem_removedKeys]

theorem acceptPubrec (receives : e.ReceivesOnce) (msgId : Nat) :
    (e.acceptPubrec msgId).ReceivesOnce :=
  receives.of_frame (receives.toFiled.acceptPubrec msgId) rfl rfl rfl (fun _ => rfl)
    (fun _ => rfl) receives.once

theorem sendPublish (receives : e.ReceivesOnce) {publish : Publish} {rc : CompletionCode}
    (filed : (e.sendPublish publish rc).Filed) : (e.sendPublish publish rc).ReceivesOnce := by
  refine receives.of_outside (.sentPublish publish.msgId publish.dup rc) trivial filed
    rfl rfl rfl (fun id => ?_) rfl
  rw [sendPublish_record, if_neg]
  rintro ⟨_, same⟩
  exact Stem.noConfusion (congrArg PersistenceKey.stem same)

theorem clean (receives : e.ReceivesOnce) : e.clean.ReceivesOnce where
  toFiled := receives.toFiled.clean
  persistent := receives.persistent
  distinct := List.nodup_nil
  awaits := fun _ mem => absurd mem List.not_mem_nil
  content := fun _ mem => absurd mem List.not_mem_nil
  kept := fun id pends => absurd rfl pends
  recorded := fun id present => by simp [key, isInflight] at present
  once := receives.once

/-- A PUBLISH of QoS 2 is recorded and a message for it is kept. -/
theorem keep (receives : e.ReceivesOnce) {publish : Publish} {m : Messages} (filed : e'.Filed)
    (id : m.msgid = publish.msgId) (awaits : AwaitsInboundPubrel m ∧ m.mqttVersion = e.mqttVersion)
    (content : e.mqttVersion < mqttVersion5 → MQTTProtocol.publicationOf m = publish.content)
    (version : e'.mqttVersion = e.mqttVersion) (persistent : e'.persistent = e.persistent)
    (inbound : e'.inbound = (e.storeInbound m).inbound)
    (record : ∀ id, e'.record (key .publishReceived e.mqttVersion id) =
      if id = publish.msgId then some (.publish publish)
      else e.record (key .publishReceived e.mqttVersion id))
    (pends : ∀ id, pending id e'.trace =
      if id = publish.msgId then some publish else pending id e.trace)
    (once : passedOn e'.trace = expected e.mqttVersion e'.trace) : e'.ReceivesOnce := by
  have mem (other : Messages) : other ∈ e'.inbound ↔
      (other ∈ e.inbound ∧ other.msgid ≠ publish.msgId) ∨ other = m := by
    rw [inbound, mem_storeInbound receives.distinct, id]
  have mem_id (other : Nat) : other ∈ ids e'.inbound ↔
      other ∈ ids e.inbound ∨ other = publish.msgId := by
    simp only [mem_ids, mem]
    grind
  constructor
  · exact filed
  · exact persistent.trans receives.persistent
  · exact inbound ▸ storeInbound_nodup receives.distinct
  · intro other otherMem
    rw [version]
    rcases (mem other).mp otherMem with ⟨old, _⟩ | rfl
    · exact receives.awaits other old
    · exact awaits
  · intro other otherMem
    rw [version, record, pends]
    rcases (mem other).mp otherMem with ⟨old, different⟩ | rfl
    · rw [if_neg different, if_neg different]
      exact receives.content other old
    · rw [if_pos id, if_pos id]
      exact ⟨publish, rfl, rfl, content⟩
  · intro other pending
    rw [pends] at pending
    rw [mem_id]
    split at pending
    next same => exact .inr same
    next => exact .inl (receives.kept other pending)
  · intro other present
    rw [version, record] at present
    rw [mem_id]
    split at present
    next same => exact .inr same
    next => exact .inl (receives.recorded other present)
  · exact version ▸ once

/-- The message kept for an id goes, with its record. -/
theorem finish (receives : e.ReceivesOnce) (filed : e'.Filed)
    (version : e'.mqttVersion = e.mqttVersion) (persistent : e'.persistent = e.persistent)
    (inbound : e'.inbound = removeMessage e.inbound msgid)
    (record : ∀ id, e'.record (key .publishReceived e.mqttVersion id) =
      if id = msgid then none else e.record (key .publishReceived e.mqttVersion id))
    (pends : ∀ id, pending id e'.trace = if id = msgid then none else pending id e.trace)
    (once : passedOn e'.trace = expected e.mqttVersion e'.trace) : e'.ReceivesOnce := by
  constructor
  · exact filed
  · exact persistent.trans receives.persistent
  · exact inbound ▸ ids_removeMessage_nodup receives.distinct
  · intro other otherMem
    rw [version]
    exact receives.awaits other (mem_of_mem_removeMessage (inbound ▸ otherMem))
  · intro other otherMem
    obtain ⟨old, different⟩ := (mem_removeMessage receives.distinct).mp (inbound ▸ otherMem)
    rw [version, record, pends, if_neg different, if_neg different]
    exact receives.content other old
  · intro id pending
    rw [pends] at pending
    rw [inbound, mem_ids_removeMessage receives.distinct]
    split at pending
    next => exact absurd rfl pending
    next different => exact ⟨receives.kept id pending, different⟩
  · intro id present
    rw [version, record] at present
    rw [inbound, mem_ids_removeMessage receives.distinct]
    split at present
    next => exact absurd rfl present
    next different => exact ⟨receives.recorded id present, different⟩
  · exact version ▸ once

theorem pending_eq_none (receives : e.ReceivesOnce) {id : Nat}
    (absent : findMessage e.inbound id = none) : pending id e.trace = none := by
  by_contra pends
  exact findMessage_eq_none.mp absent (receives.kept id pends)

theorem pending_ne_none (receives : e.ReceivesOnce) {id : Nat}
    (present : findMessage e.inbound id ≠ none) : pending id e.trace ≠ none := by
  obtain ⟨m, found⟩ := Option.ne_none_iff_exists'.mp present
  obtain ⟨mem, rfl⟩ := findMessage_mem found
  obtain ⟨publish, pends, _⟩ := receives.content m mem
  simp [pends]

/-- PUBREL for a message that is kept. -/
theorem release (receives : e.ReceivesOnce) {m : Messages}
    (found : findMessage e.inbound msgid = some m) :
    ((if mqttVersion5 ≤ m.mqttVersion then e.log (.received .pubrel msgid)
      else (e.log (.received .pubrel msgid)).log
        (.processed (MQTTProtocol.publicationOf m))).finishInbound msgid).ReceivesOnce := by
  obtain ⟨mem, rfl⟩ := findMessage_mem found
  obtain ⟨awaits, version⟩ := receives.awaits m mem
  obtain ⟨publish, pends, _, content⟩ := receives.content m mem
  have once := receives.once
  have record (id : Nat) : (if key .publishReceived e.mqttVersion id ∈
      removedKeys .publishReceived m.msgid then none
      else e.record (key .publishReceived e.mqttVersion id)) =
        if id = m.msgid then none else e.record (key .publishReceived e.mqttVersion id) := by
    simp [receivedKey_mem_removedKeys]
  have released (id : Nat) : pending id (.received .pubrel m.msgid :: e.trace) =
      if id = m.msgid then none else pending id e.trace := by
    simp [pending, eq_comm]
  rw [version]
  split
  next new =>
    refine receives.finish ((receives.toFiled.log _).finishInbound _) rfl rfl rfl record released ?_
    simpa [expected, pends, new] using once
  next old =>
    have same := content (Nat.lt_of_not_le old)
    have qos : (MQTTProtocol.publicationOf m).qos = 2 := awaits.1
    refine receives.finish (((receives.toFiled.log _).log _).finishInbound _) rfl rfl rfl record
      released ?_
    simp only [finishInbound_trace, log_trace, passedOn_processed qos]
    simpa [expected, pends, old, same] using once

/-- PUBREL for an id for which no message is kept. -/
theorem releaseUnknown (receives : e.ReceivesOnce)
    (unexpected : ∀ m, findMessage e.inbound msgid = some m → ¬AwaitsInboundPubrel m) :
    (e.log (.received .pubrel msgid)).ReceivesOnce := by
  have absent : pending msgid e.trace = none := by
    refine receives.pending_eq_none (Option.eq_none_iff_forall_ne_some.mpr fun m found => ?_)
    exact unexpected m found (receives.awaits m (findMessage_mem found).1).1
  refine receives.of_frame (receives.toFiled.log _) rfl rfl rfl (fun _ => rfl) (fun id => ?_) ?_
  · by_cases same : msgid = id
    · subst same
      simp [pending, absent]
    · simp [pending, same]
  · simpa [expected, absent] using receives.once

end ReceivesOnce

theorem internal_receivesOnce (internal : Internal e e') (receives : e.ReceivesOnce) :
    e'.ReceivesOnce := by
  have filed := internal_filed internal receives.toFiled
  cases internal with
  | retryPublish mem awaits rc => exact receives.sendPublish filed
  | retryPubrel mem awaits rc =>
      rw [receives.version _ mem]
      exact receives.sendAck .pubrel rc
  | sendQueued mem rc => exact receives.sendAck _ rc
  | resent => exact receives.log trivial
  | dropQueue =>
      exact receives.of_frame filed rfl rfl rfl (fun _ => rfl) (fun _ => rfl) receives.once
  | clean => exact receives.clean
  | connect => exact receives.log trivial

theorem internals_receivesOnce (internals : ReflTransGen Internal e e')
    (receives : e.ReceivesOnce) : e'.ReceivesOnce := by
  induction internals with
  | refl => exact receives
  | tail _ internal ih => exact internal_receivesOnce internal ih

theorem starts_receivesOnce {message : Session.Message} (starts : Starts e message msgid e')
    (receives : e.ReceivesOnce) : e'.ReceivesOnce := by
  have filed := starts_filed starts receives.toFiled
  cases starts with
  | unacknowledged qos => exact receives.log trivial
  | @start _ rc positive unused qos =>
      refine receives.of_frame filed rfl rfl rfl (fun id => ?_) (fun _ => rfl) receives.once
      rw [sendPublish_record, if_neg]
      · rfl
      · rintro ⟨_, same⟩
        exact Stem.noConfusion (congrArg PersistenceKey.stem same)

section Publish

variable {dup : Bool} {message : Session.Message}

/-- From version 5 on, the first PUBLISH of an exchange is passed on. -/
theorem ReceivesOnce.deliver (receives : e.ReceivesOnce) (qos : message.qos = 2)
    (version : mqttVersion5 ≤ e.mqttVersion) (new : findMessage e.inbound msgid = none) :
    let publish := Session.publishPacket e.mqttVersion message dup msgid
    let m := MQTTProtocol.receivedMessage publish
    ((((e.persistReceived publish).log (.receivedPublish publish)).storeInbound
        { m with publish := none }).log
          (.processed (MQTTProtocol.publicationOf m))).ReceivesOnce := by
  intro publish m
  have sameQos : publish.qos = 2 := qos
  have filed : (e.persistReceived publish).Filed := receives.toFiled.persistReceived rfl sameQos
  have passes : MQTTProtocol.publicationOf m = publish.content :=
    MQTTProtocol.publicationOf_receivedMessage e.mqttVersion message dup msgid
  have absent : pending publish.msgId e.trace = none := receives.pending_eq_none new
  refine receives.keep
    (((filed.log _).storeInbound _).log _) rfl ⟨⟨sameQos, rfl⟩, rfl⟩ ?_ ?_ ?_
    (storeInbound_inbound rfl) ?_ ?_ ?_
  · exact fun old => absurd version (Nat.not_le_of_lt old)
  · simp
  · simp
  · intro id
    rw [log_record, storeInbound_record, log_record]
    exact persistReceived_receivedKey receives.persistent id
  · intro id
    rw [log_trace, storeInbound_trace, log_trace]
    exact pending_receivedPublish sameQos id e.trace
  · have passesQos : (MQTTProtocol.publicationOf m).qos = 2 := sameQos
    simp only [log_trace, storeInbound_trace, passedOn_processed passesQos]
    simp [expected, sameQos, version, absent, passes, receives.once]

/-- A PUBLISH that is kept for PUBREL, or repeated. -/
theorem ReceivesOnce.store (receives : e.ReceivesOnce) (qos : message.qos = 2)
    (kept : mqttVersion5 ≤ e.mqttVersion → findMessage e.inbound msgid ≠ none) :
    let publish := Session.publishPacket e.mqttVersion message dup msgid
    (((e.persistReceived publish).log (.receivedPublish publish)).storeInbound
      (MQTTProtocol.receivedMessage publish)).ReceivesOnce := by
  intro publish
  have sameQos : publish.qos = 2 := qos
  have filed : (e.persistReceived publish).Filed := receives.toFiled.persistReceived rfl sameQos
  have repeated : mqttVersion5 ≤ e.mqttVersion → pending publish.msgId e.trace ≠ none :=
    fun version => receives.pending_ne_none (kept version)
  refine receives.keep ((filed.log _).storeInbound _) rfl ⟨⟨sameQos, rfl⟩, rfl⟩ ?_ ?_ ?_
    (storeInbound_inbound rfl) ?_ ?_ ?_
  · exact fun _ => MQTTProtocol.publicationOf_receivedMessage e.mqttVersion message dup msgid
  · simp
  · simp
  · intro id
    rw [storeInbound_record, log_record]
    exact persistReceived_receivedKey receives.persistent id
  · intro id
    rw [storeInbound_trace, log_trace]
    exact pending_receivedPublish sameQos id e.trace
  · have unexpected : ¬(publish.qos = 2 ∧ mqttVersion5 ≤ e.mqttVersion ∧
        pending publish.msgId e.trace = none) := fun first => repeated first.2.1 first.2.2
    rw [storeInbound_trace, log_trace, persistReceived_trace, passedOn_receivedPublish, expected,
      if_neg unexpected]
    exact receives.once

end Publish

theorem handles_receivesOnce {packet : Session.Packet} (handles : Handles e packet e')
    (receives : e.ReceivesOnce) : e'.ReceivesOnce := by
  cases handles with
  | pubackIgnored ignored => exact receives.logAck PacketType.noConfusion
  | puback found qos => exact (receives.logAck PacketType.noConfusion).finishOutbound _
  | pubrecUnexpected unexpected acknowledges =>
      exact (receives.logAck PacketType.noConfusion).acknowledges acknowledges
  | pubrecError found awaits version error =>
      exact (receives.logAck PacketType.noConfusion).finishOutbound _
  | pubrec found awaits acknowledges =>
      exact ((receives.logAck PacketType.noConfusion).acceptPubrec _).acknowledges acknowledges
  | pubcompUnexpected unexpected => exact receives.logAck PacketType.noConfusion
  | pubcomp found awaits => exact (receives.logAck PacketType.noConfusion).finishOutbound _
  | @publish0 dup message msgId qos =>
      have outside : message.qos ≠ 2 := by omega
      exact (receives.logPublish outside).logProcessed outside
  | @publish1 dup message msgId _ qos acknowledges =>
      have outside : message.qos ≠ 2 := by omega
      exact ((receives.logPublish outside).logProcessed outside).acknowledges acknowledges
  | publishDelivered qos version new acknowledges =>
      exact (receives.deliver qos version new).acknowledges acknowledges
  | publishKept qos kept acknowledges => exact (receives.store qos kept).acknowledges acknowledges
  | @publishOther dup message msgId qos =>
      have outside : message.qos ≠ 2 := by omega
      exact receives.logPublish outside
  | pubrelUnexpected unexpected acknowledges =>
      exact (receives.releaseUnknown unexpected).acknowledges acknowledges
  | pubrel found awaits acknowledges => exact (receives.release found).acknowledges acknowledges

/-- A restored message passes on what the kept one would have. -/
theorem publicationOf_restoredReceived {publish : Publish} {m : Messages}
    (old : e.mqttVersion < mqttVersion5) (version : m.mqttVersion = e.mqttVersion)
    (content : MQTTProtocol.publicationOf m = publish.content) :
    MQTTProtocol.publicationOf (e.restoredReceived publish) = publish.content := by
  have notNew : ¬mqttVersion5 ≤ e.mqttVersion := Nat.not_le_of_lt old
  have sameVersion : publish.mqttVersion = e.mqttVersion := by
    rw [← version]
    exact (congrArg Publish.mqttVersion content).symm
  have noProperties : publish.properties = [] := by
    have same := congrArg Publish.properties content
    simp only [MQTTProtocol.publicationOf, version, notNew, if_false, Publish.content] at same
    exact same.symm
  simp [MQTTProtocol.publicationOf, restoredReceived, MQTTProtocol.createMessage,
    MQTTProtocol.storePublication, Publish.content, notNew, sameVersion, noProperties]

theorem restores_receivesOnce (restores : Restores e e') (receives : e.ReceivesOnce) :
    e'.ReceivesOnce := by
  have received (id : Nat) : e'.record (key .publishReceived e.mqttVersion id) =
      e.record (key .publishReceived e.mqttVersion id) :=
    restores.record _ fun orphan => Stem.noConfusion orphan.1
  have pends (id : Nat) : pending id e'.trace = pending id e.trace := by
    rw [restores.trace]
    exact pending_outside (by trivial) id e.trace
  -- a record is that of the message which was kept for its id
  have old {publish : Publish} (stored : e.record (key .publishReceived e.mqttVersion
      publish.msgId) = some (.publish publish)) :
      ∃ m ∈ e.inbound, m.msgid = publish.msgId ∧ pending publish.msgId e.trace = some publish ∧
        (e.mqttVersion < mqttVersion5 → MQTTProtocol.publicationOf m = publish.content) := by
    obtain ⟨m, mem, id⟩ := mem_ids.mp (receives.recorded publish.msgId (by simp [stored]))
    obtain ⟨kept, pends, same, content⟩ := receives.content m mem
    rw [id] at same pends
    obtain rfl : kept = publish := by simpa [stored] using same.symm
    exact ⟨m, mem, id, pends, content⟩
  have restored {id : Nat} (mem : id ∈ ids e.inbound) : id ∈ ids e'.inbound := by
    obtain ⟨m, kept, rfl⟩ := mem_ids.mp mem
    obtain ⟨_, _, stored, _⟩ := receives.content m kept
    obtain ⟨publish, same, id, _⟩ := receives.wellKeyed.publishReceived stored
    rw [same, ← id] at stored
    rw [← id]
    exact mem_ids_of_mem ((restores.inbound _).mpr ⟨publish, stored, rfl⟩)
  constructor
  · exact restores.filed receives.toFiled
  · exact restores.persistent.trans receives.persistent
  · exact restores.distinctInbound
  · intro m mem
    obtain ⟨publish, stored, rfl⟩ := (restores.inbound m).mp mem
    obtain ⟨_, same, _, qos⟩ := receives.wellKeyed.publishReceived stored
    cases same
    exact ⟨⟨qos, rfl⟩, restores.mqttVersion.symm⟩
  · intro m mem
    obtain ⟨publish, stored, rfl⟩ := (restores.inbound m).mp mem
    obtain ⟨m, mem, _, pending, content⟩ := old stored
    rw [restores.mqttVersion]
    refine ⟨publish, (pends _).trans pending, (received _).trans stored, fun before => ?_⟩
    exact publicationOf_restoredReceived before (receives.awaits m mem).2 (content before)
  · intro id pending
    rw [pends] at pending
    exact restored (receives.kept id pending)
  · intro id present
    rw [restores.mqttVersion, received] at present
    exact restored (receives.recorded id present)
  · rw [restores.trace, restores.mqttVersion]
    exact receives.once

end Exchange

namespace Session

open Machine MQTTPersistence

theorem create_receivesOnce (mqttVersion : Nat) (cleansession : Bool) :
    (create mqttVersion cleansession (some ∅)).exchange.ReceivesOnce where
  toFiled := create_filed mqttVersion cleansession
  persistent := rfl
  distinct := List.nodup_nil
  awaits := fun _ mem => absurd mem List.not_mem_nil
  content := fun _ mem => absurd mem List.not_mem_nil
  kept := fun _ pends => absurd rfl pends
  recorded := fun id present => by simp [Clients.exchange, Clients.record, create] at present
  once := rfl

/-- One step of a session. -/
theorem step_receivesOnce (c : Clients) (input : Input) (receives : c.exchange.ReceivesOnce)
    (listed : ListsKeys c input) : (step c input).exchange.ReceivesOnce := by
  by_cases restarts : ∃ keys, input.action = .restart keys
  · obtain ⟨keys, action⟩ := restarts
    exact Exchange.restores_receivesOnce (step_restores receives.toFiled action listed) receives
  · have running : ∀ keys, input.action ≠ .restart keys :=
      fun keys action => restarts ⟨keys, action⟩
    rcases step_refines (c := c) running with internals | ⟨_, _, _, starts, _⟩ | ⟨_, _, handles⟩
    · exact Exchange.internals_receivesOnce internals receives
    · exact Exchange.starts_receivesOnce starts receives
    · exact Exchange.handles_receivesOnce handles receives

/-- The acknowledgement that an inbound packet of QoS 2 asks for. -/
def answer : Packet → Option (PacketType × Nat)
  | .publish _ message msgId => if message.qos = 2 then some (.pubrec, msgId) else none
  | .pubrel msgId => some (.pubcomp, msgId)
  | .puback _ | .pubrec _ _ | .pubcomp _ => none

/-- In a step an acknowledgement was handed to the socket, or it was queued and waits for the
socket. -/
def Answers (c c' : Clients) (type : PacketType) (msgId : Nat) : Prop :=
  ∃ events, c'.trace = events ++ c.trace ∧
    ((∃ rc, .sentAck type msgId rc ∈ events) ∨
      (.queuedAck type msgId ∈ events ∧ ⟨msgId, type⟩ ∈ c'.outboundQueue))

/-- An acknowledgement after other events. -/
theorem answers_of_acknowledges {c c' : Clients} {e : Exchange} {type : PacketType} {msgId : Nat}
    (older : c.trace <:+ e.trace)
    (acknowledges : Exchange.Acknowledges e type msgId c'.exchange) : Answers c c' type msgId := by
  obtain ⟨events, trace⟩ := older
  generalize after : c'.exchange = e' at acknowledges
  cases acknowledges with
  | sent rc =>
      have traced : c'.trace = _ :=
        (congrArg Exchange.trace after).trans (Exchange.sendAck_trace ..)
      exact ⟨.sentAck type msgId rc :: events, by simpa [← trace] using traced,
        .inl ⟨rc, List.mem_cons_self⟩⟩
  | queued =>
      have traced : c'.trace = _ :=
        (congrArg Exchange.trace after).trans (Exchange.queueAck_trace ..)
      have queue : c'.outboundQueue = _ :=
        (congrArg Exchange.queue after).trans (Exchange.queueAck_queue ..)
      exact ⟨.queuedAck type msgId :: events, by simpa [← trace] using traced,
        .inr ⟨List.mem_cons_self, by simp [queue]⟩⟩

theorem receive_answers {c : Clients} {input : Input} {packet : Packet} {type : PacketType}
    {msgId : Nat} (action : input.action = .receive packet) (connected : c.connected = true)
    (asks : answer packet = some (type, msgId)) : Answers c (step c input) type msgId := by
  have received : step c input = receive (provide c input) packet := by
    simp [step, act, action, provide, connected]
  have handles := handles_receive (c := provide c input) packet
  rw [exchange_provide] at handles
  rw [received]
  cases packet with
  | puback => cases asks
  | pubrec => cases asks
  | pubcomp => cases asks
  | publish dup message id =>
      simp only [answer, Option.ite_none_right_eq_some, Option.some.injEq, Prod.mk.injEq] at asks
      obtain ⟨qos, rfl, rfl⟩ := asks
      generalize after : (receive (provide c input) (.publish dup message id)).exchange = e'
        at handles
      cases handles with
      | publish0 other => omega
      | publish1 other => omega
      | publishOther other => omega
      | publishDelivered _ _ _ acknowledges =>
          subst after
          refine answers_of_acknowledges ?_ acknowledges
          simp only [Exchange.log_trace, Exchange.storeInbound_trace]
          exact (List.suffix_cons _ _).trans (List.suffix_cons _ _)
      | publishKept _ _ acknowledges =>
          subst after
          refine answers_of_acknowledges ?_ acknowledges
          simp only [Exchange.log_trace, Exchange.storeInbound_trace]
          exact List.suffix_cons _ _
  | pubrel released =>
      cases asks
      generalize after : (receive (provide c input) (.pubrel msgId)).exchange = e' at handles
      cases handles with
      | pubrelUnexpected _ acknowledges =>
          subst after
          exact answers_of_acknowledges (List.suffix_cons _ _) acknowledges
      | pubrel _ _ acknowledges =>
          subst after
          refine answers_of_acknowledges ?_ acknowledges
          rw [Exchange.finishInbound_trace]
          split
          · exact List.suffix_cons _ _
          · exact (List.suffix_cons _ _).trans (List.suffix_cons _ _)

/-- Inbound exactly once. In every run of a session with a store, in which every restart lists
the keys of the store, the publications of QoS 2 that were passed on are those that the received
packets require; the messages kept for PUBREL have distinct ids, which are those of the
publish-received records; and every PUBLISH of QoS 2 and every PUBREL is acknowledged. -/
theorem exactly_once {mqttVersion : Nat} {cleansession : Bool} {inputs : List Input}
    (listed : Guarded step ListsKeys (create mqttVersion cleansession (some ∅)) inputs) :
    let c := run step (create mqttVersion cleansession (some ∅)) inputs
    passedOn c.trace = expected mqttVersion c.trace ∧
      (ids c.inboundMsgs).Nodup ∧
      (∀ id, id ∈ ids c.inboundMsgs ↔
        ∃ v5 record, c.record ⟨.publishReceived, v5, id⟩ = some record) ∧
      ∀ input packet type msgId, input.action = .receive packet → c.connected = true →
        answer packet = some (type, msgId) → Answers c (step c input) type msgId := by
  intro c
  have keeps (c : Clients) (input : Input)
      (holds : c.exchange.ReceivesOnce ∧ c.mqttVersion = mqttVersion) (listed : ListsKeys c input) :
      (step c input).exchange.ReceivesOnce ∧ (step c input).mqttVersion = mqttVersion :=
    ⟨step_receivesOnce c input holds.1 listed,
      (step_mqttVersion holds.1.toFiled listed).trans holds.2⟩
  obtain ⟨receives, version⟩ := invariant_of_guarded keeps
    ⟨create_receivesOnce mqttVersion cleansession, rfl⟩ listed
  have distinct := receives.distinct
  rw [Clients.exchange, ids_map_untouched] at distinct
  have sameIds : ids c.exchange.inbound = ids c.inboundMsgs := ids_map_untouched
  refine ⟨version ▸ receives.once, distinct, fun id => ⟨fun mem => ?_, ?_⟩,
    fun input packet type msgId action connected asks => receive_answers action connected asks⟩
  · obtain ⟨m, kept, rfl⟩ := mem_ids.mp (sameIds ▸ mem)
    obtain ⟨publish, _, stored, _⟩ := receives.content m kept
    exact ⟨_, _, stored⟩
  · rintro ⟨v5, record, stored⟩
    have isKey := key_of_record (k := ⟨.publishReceived, v5, id⟩) receives.wellKeyed rfl stored
    refine sameIds ▸ receives.recorded id fun absent => ?_
    exact Option.some_ne_none _ (stored.symm.trans (isKey ▸ absent))

/-- A publication is received twice, the session is restored, and the publication is released
twice: its second content is passed on once. -/
theorem exactly_once_restart :
    let inputs : List Input :=
      [{ action := .connect true },
        { action := .receive (.publish false ⟨[1], [2], 2, false, []⟩ 7) },
        { action := .receive (.publish true ⟨[1], [3], 2, false, []⟩ 7) },
        { action := .restart [⟨.publishReceived, false, 7⟩] }, { action := .connect true },
        { action := .receive (.pubrel 7) }, { action := .receive (.pubrel 7) }]
    let c := run step (create 4 false (some ∅)) inputs
    passedOn c.trace = expected 4 c.trace ∧
      passedOn c.trace = [⟨false, 2, false, some [1], 7, some [3], 4, []⟩] := by
  intro inputs c
  have listed : Guarded step ListsKeys (create 4 false (some ∅)) inputs := by decide
  exact ⟨(exactly_once listed).1, by decide⟩

end Session

end Paho
