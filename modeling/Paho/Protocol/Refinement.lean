import Paho.Protocol.Exchange

/-!
# The session refines its exchanges

Every step of the session is, on what it exchanges, one of the changes of
`Paho.Protocol.Exchange`.
-/

namespace Paho

open Relation

section Lists

variable {messages : List Messages} {m : Messages} {msgid : Nat}

@[simp]
theorem ids_map_untouched : ids (messages.map Messages.untouched) = ids messages := by
  simp [ids, Messages.untouched]

theorem findMessage_map_untouched :
    findMessage (messages.map Messages.untouched) msgid =
      (findMessage messages msgid).map Messages.untouched := by
  simp [findMessage, List.find?_map, Function.comp_def, Messages.untouched]

theorem removeMessage_map_untouched :
    removeMessage (messages.map Messages.untouched) msgid =
      (removeMessage messages msgid).map Messages.untouched := by
  simp [removeMessage, List.eraseP_map, Function.comp_def, Messages.untouched]

/-- An update that commutes with erasing the time of last sending. -/
theorem map_untouched_updateMessage {update erased : Messages → Messages}
    (commutes : ∀ m, (update m).untouched = erased m.untouched) :
    (updateMessage messages msgid update).map Messages.untouched =
      updateMessage (messages.map Messages.untouched) msgid erased := by
  induction messages with
  | nil => rfl
  | cons first rest ih =>
      have sameId : first.untouched.msgid = first.msgid := rfl
      by_cases same : first.msgid = msgid <;>
        simp [updateMessage, same, sameId, commutes, ih]

theorem updateMessage_id : updateMessage messages msgid (fun m => m) = messages := by
  induction messages with
  | nil => rfl
  | cons first rest ih => by_cases same : first.msgid = msgid <;> simp [updateMessage, same, ih]

end Lists

namespace Clients

/-- What the exchanges of a session see of a client. -/
def exchange (c : Clients) : Exchange :=
  { mqttVersion := c.mqttVersion
    outbound := c.outboundMsgs.map Messages.untouched
    inbound := c.inboundMsgs.map Messages.untouched
    queue := c.outboundQueue
    persistent := c.persistence.isSome
    record := c.record
    trace := c.trace }

variable (c : Clients)

@[simp]
theorem exchange_log (event : Event) : (c.log event).exchange = c.exchange.log event :=
  rfl

theorem record_putRecord (key other : PersistenceKey) (record : Record) :
    (c.putRecord key record).record other =
      if c.persistence.isSome ∧ other = key then some record else c.record other := by
  cases store : c.persistence with
  | none => simp [Clients.record, putRecord, store]
  | some records =>
      by_cases same : other = key
      · subst same
        simp [Clients.record, putRecord, store]
      · simp [Clients.record, putRecord, store, same, AList.lookup_insert_ne]

theorem record_removeRecords (keys : List PersistenceKey) (other : PersistenceKey) :
    (c.removeRecords keys).record other = if other ∈ keys then none else c.record other := by
  cases store : c.persistence with
  | none => simp [Clients.record, removeRecords, store]
  | some records => simp [Clients.record, removeRecords, store, lookup_foldl_erase]

@[simp]
theorem exchange_putRecord (key : PersistenceKey) (record : Record) :
    (c.putRecord key record).exchange = c.exchange.put key record := by
  refine Exchange.ext rfl rfl rfl rfl ?_ (funext (record_putRecord c key · record)) rfl
  simp [exchange, Exchange.put, putRecord]

@[simp]
theorem exchange_removeRecords (keys : List PersistenceKey) :
    (c.removeRecords keys).exchange = c.exchange.erase keys := by
  refine Exchange.ext rfl rfl rfl rfl ?_ (funext (record_removeRecords c keys)) rfl
  simp [exchange, Exchange.erase, removeRecords]

theorem mem_recordKeys (key : PersistenceKey) : key ∈ c.recordKeys ↔ (c.record key).isSome := by
  cases store : c.persistence with
  | none => simp [recordKeys, Clients.record, store]
  | some records =>
      simp [recordKeys, Clients.record, store, AList.lookup_isSome, AList.mem_keys]

end Clients

section Sending

variable (c : Clients)

theorem exchange_write (event : CompletionCode → Event) :
    (MQTTPacket.write c event).2.exchange = c.exchange.log (event (MQTTPacket.write c event).1) :=
  rfl

theorem exchange_putPacket_pubrel (mqttVersion msgid : Nat) :
    (MQTTPersistence.putPacket c (.pubrel msgid) .pubrel msgid 0 mqttVersion).exchange =
      c.exchange.put (MQTTPersistence.key .pubrel mqttVersion msgid) (.pubrel msgid) := by
  simp [MQTTPersistence.putPacket]

/-- Sending an acknowledgement. -/
theorem exchange_send_ack (mqttVersion : Nat) (type : PacketType) (msgid : Nat) :
    (MQTTPacket.send_ack c mqttVersion type msgid).2.exchange =
      c.exchange.sendAck mqttVersion type msgid
        (MQTTPacket.send_ack c mqttVersion type msgid).1 := by
  unfold MQTTPacket.send_ack Exchange.sendAck Exchange.putAck
  by_cases pubrel : type = .pubrel
  · subst pubrel
    simp only [if_true, exchange_write, exchange_putPacket_pubrel]
  · simp only [pubrel, if_false, exchange_write]

/-- Sending a PUBLISH of QoS 1 or 2. -/
theorem exchange_send_publish (publish : Publish) (dup : Bool) (qos : Nat) (retained : Bool)
    (positive : qos ≠ 0) :
    (MQTTPacket.send_publish c publish dup qos retained).2.exchange =
      c.exchange.sendPublish { publish with dup := dup, qos := qos, retain := retained }
        (MQTTPacket.send_publish c publish dup qos retained).1 := by
  unfold MQTTPacket.send_publish Exchange.sendPublish
  simp [positive, exchange_write, MQTTPersistence.putPacket]

theorem exchange_send_publish_qos0 (publish : Publish) (dup retained : Bool) :
    (MQTTPacket.send_publish c publish dup 0 retained).2.exchange =
      c.exchange.log (.sentPublish publish.msgId dup
        (MQTTPacket.send_publish c publish dup 0 retained).1) :=
  rfl

@[simp]
theorem exchange_touch (type : PacketType) (msgid : Nat) :
    (MQTTProtocol.touch c type msgid).exchange = c.exchange.log (.resent type msgid) := by
  have erased : ∀ m : Messages, { m with lastTouch := c.clock }.untouched = m.untouched :=
    fun m => rfl
  refine Exchange.ext rfl ?_ rfl rfl rfl rfl rfl
  exact (map_untouched_updateMessage erased).trans updateMessage_id

/-- An acknowledgement is sent or queued. -/
theorem acknowledge_acknowledges (mqttVersion : Nat) (type : PacketType) (msgId : Nat)
    (version : mqttVersion = c.mqttVersion) :
    Exchange.Acknowledges c.exchange type msgId
      (MQTTProtocol.acknowledge c mqttVersion type msgId).2.exchange := by
  subst version
  unfold MQTTProtocol.acknowledge
  by_cases idle : Socket.noPendingWrites c.net
  · rw [if_pos idle, exchange_send_ack]
    exact .sent _
  · rw [if_neg idle]
    exact .queued

theorem acknowledges_of_exchange {e : Exchange} (same : c.exchange = e) {mqttVersion : Nat}
    (version : mqttVersion = e.mqttVersion) (type : PacketType) (msgId : Nat) :
    Exchange.Acknowledges e type msgId
      (MQTTProtocol.acknowledge c mqttVersion type msgId).2.exchange := by
  subst same
  exact acknowledge_acknowledges c mqttVersion type msgId version

end Sending

section Loops

variable {c : Clients}

theorem exchange_closeOnly : (MQTTAsync.closeOnly c).exchange = c.exchange :=
  rfl

theorem exchange_unpersistInflightMessages :
    (MQTTPersistence.unpersistInflightMessages c).exchange =
      { c.exchange with
        record := fun key => if MQTTPersistence.isInflight key then none else c.record key } := by
  unfold MQTTPersistence.unpersistInflightMessages
  rw [Clients.exchange_removeRecords]
  refine Exchange.ext rfl rfl rfl rfl rfl ?_ rfl
  funext key
  by_cases inflight : MQTTPersistence.isInflight key
  · by_cases present : (c.record key).isSome
    · simp [Exchange.erase, Clients.mem_recordKeys, inflight, present]
    · simp [Exchange.erase, Clients.exchange, Option.not_isSome_iff_eq_none.mp present]
  · simp [Exchange.erase, Clients.exchange, inflight]

theorem exchange_cleanSession : (MQTTAsync.cleanSession c).exchange = c.exchange.clean := by
  have unpersisted := congrArg Exchange.record (exchange_unpersistInflightMessages (c := c))
  have persistent := congrArg Exchange.persistent (exchange_unpersistInflightMessages (c := c))
  exact Exchange.ext rfl rfl rfl rfl persistent unpersisted rfl

/-- Closing a session discards it or leaves its exchanges as they are. -/
theorem exchange_closeSession :
    (MQTTProtocol.closeSession c).exchange = c.exchange ∨
      (MQTTProtocol.closeSession c).exchange = c.exchange.clean := by
  unfold MQTTProtocol.closeSession MQTTAsync.nextOrClose MQTTAsync.closeSession
  split
  · exact .inl rfl
  · dsimp only
    split
    · exact .inr (exchange_cleanSession.trans (congrArg Exchange.clean exchange_closeOnly))
    · exact .inl rfl

theorem internal_closeSession :
    ReflTransGen Exchange.Internal c.exchange (MQTTProtocol.closeSession c).exchange := by
  rcases exchange_closeSession (c := c) with same | cleaned
  · rw [same]
  · rw [cleaned]
    exact .single (.clean _)

theorem internal_sendQueuedAcks (requests : List AckRequest)
    (queued : ∀ ackReq ∈ requests, ackReq ∈ c.outboundQueue) :
    ReflTransGen Exchange.Internal c.exchange
      (MQTTProtocol.sendQueuedAcks c requests).exchange := by
  induction requests generalizing c with
  | nil => exact .refl
  | cons ackReq rest ih =>
      have step : Exchange.Internal c.exchange
          (MQTTPacket.send_ack c c.mqttVersion ackReq.ackType ackReq.messageId).2.exchange := by
        rw [exchange_send_ack]
        exact .sendQueued (queued ackReq List.mem_cons_self) _
      have queue : (MQTTPacket.send_ack c c.mqttVersion ackReq.ackType
          ackReq.messageId).2.outboundQueue = c.outboundQueue :=
        (congrArg Exchange.queue (exchange_send_ack c c.mqttVersion ackReq.ackType
          ackReq.messageId)).trans (Exchange.sendAck_queue ..)
      unfold MQTTProtocol.sendQueuedAcks
      rcases result : MQTTPacket.send_ack c c.mqttVersion ackReq.ackType ackReq.messageId
        with ⟨rc, sent⟩
      rw [result] at step queue
      cases rc with
      | complete =>
          refine .head step (ih fun other mem => ?_)
          rw [queue]
          exact queued other (List.mem_cons_of_mem _ mem)
      | interrupted => exact .single step
      | socketError => exact .single step

theorem internal_writeAvailable :
    ReflTransGen Exchange.Internal c.exchange (MQTTProtocol.writeAvailable c).exchange :=
  (internal_sendQueuedAcks c.outboundQueue fun _ mem => mem).tail (.dropQueue _)

theorem exchange_countSent (regardless : Bool) :
    (MQTTProtocol.countSent c regardless).exchange = c.exchange := by
  unfold MQTTProtocol.countSent
  split <;> rfl

/-- The retry of a message in flight sends what is due for it. Unless the session is closed,
the messages in flight stay. -/
theorem internal_retryMessage {m : Messages} (inFlight : m.untouched ∈ c.exchange.outbound) :
    ReflTransGen Exchange.Internal c.exchange (MQTTProtocol.retryMessage c m).2.exchange ∧
      ((MQTTProtocol.retryMessage c m).1 = true →
        (MQTTProtocol.retryMessage c m).2.exchange.outbound = c.exchange.outbound) := by
  unfold MQTTProtocol.retryMessage
  split
  next awaits =>
    have positive : m.qos ≠ 0 := by
      rcases awaits with one | two <;> omega
    have sent := exchange_send_publish c (MQTTProtocol.retryPublish m) true m.qos m.retain positive
    rcases result : MQTTPacket.send_publish c (MQTTProtocol.retryPublish m) true m.qos m.retain
      with ⟨rc, after⟩
    rw [result] at sent
    have step : Exchange.Internal c.exchange after.exchange := by
      rw [sent]
      exact .retryPublish inFlight awaits rc
    have kept : after.exchange.outbound = c.exchange.outbound := by rw [sent]; rfl
    have resent : ReflTransGen Exchange.Internal c.exchange
        (MQTTProtocol.touch after .publish m.msgid).exchange := by
      rw [exchange_touch]
      exact (ReflTransGen.single step).tail (.resent _ _ _)
    cases rc with
    | complete => exact ⟨resent, fun _ => by simpa using kept⟩
    | interrupted => exact ⟨resent, fun _ => by simpa using kept⟩
    | socketError => exact ⟨.head step internal_closeSession,
        fun impossible => by simp at impossible⟩
  next =>
    split
    next awaits =>
      have sent := exchange_send_ack c m.mqttVersion .pubrel m.msgid
      rcases result : MQTTPacket.send_ack c m.mqttVersion .pubrel m.msgid with ⟨rc, after⟩
      rw [result] at sent
      have step : Exchange.Internal c.exchange after.exchange := by
        rw [sent]
        exact .retryPubrel inFlight awaits rc
      have kept : after.exchange.outbound = c.exchange.outbound := by
        rw [sent, Exchange.sendAck_outbound]
      have resent : ReflTransGen Exchange.Internal c.exchange
          (MQTTProtocol.touch after .pubrel m.msgid).exchange := by
        rw [exchange_touch]
        exact (ReflTransGen.single step).tail (.resent _ _ _)
      cases rc with
      | complete => exact ⟨resent, fun _ => by simpa using kept⟩
      | interrupted =>
          exact ⟨.head step internal_closeSession, fun impossible => by simp at impossible⟩
      | socketError =>
          exact ⟨.head step internal_closeSession, fun impossible => by simp at impossible⟩
    next => exact ⟨.refl, fun _ => rfl⟩

/-- The loop of `MQTTProtocol_retries` sends what is due for messages in flight. -/
theorem internal_retryLoop (now : Nat) (regardless : Bool) (remaining : List Messages)
    (inFlight : ∀ m ∈ remaining, m.untouched ∈ c.exchange.outbound) :
    ReflTransGen Exchange.Internal c.exchange
      (MQTTProtocol.retryLoop now regardless c remaining).exchange := by
  induction remaining generalizing c with
  | nil => exact .refl
  | cons m rest ih =>
      have restInFlight : ∀ m ∈ rest, m.untouched ∈ c.exchange.outbound :=
        fun other mem => inFlight other (List.mem_cons_of_mem _ mem)
      unfold MQTTProtocol.retryLoop
      split
      · split
        · have counted := exchange_countSent (c := c) regardless
          have step := internal_retryMessage (c := MQTTProtocol.countSent c regardless) (m := m)
            (counted ▸ inFlight m List.mem_cons_self)
          rw [counted] at step
          rcases result : MQTTProtocol.retryMessage (MQTTProtocol.countSent c regardless) m
            with ⟨going, after⟩
          rw [result] at step
          cases going with
          | true => exact step.1.trans (ih fun other mem => step.2 rfl ▸ restInFlight other mem)
          | false => exact step.1
        · exact ih restInFlight
      · exact .refl

theorem internal_retries (now : Nat) (regardless : Bool) :
    ReflTransGen Exchange.Internal c.exchange (MQTTProtocol.retries now c regardless).exchange := by
  have inFlight : ∀ m ∈ c.outboundMsgs, m.untouched ∈ c.exchange.outbound :=
    fun m mem => List.mem_map_of_mem mem
  unfold MQTTProtocol.retries
  split
  · exact .refl
  · split
    · exact internal_retryLoop (c := { c with connectCount := c.outboundMsgs.length }) now true _
        inFlight
    · exact internal_retryLoop now _ _ inFlight

theorem internal_retry (now : Nat) (doRetry regardless : Bool) :
    ReflTransGen Exchange.Internal c.exchange
      (MQTTProtocol.retry now doRetry regardless c).exchange := by
  unfold MQTTProtocol.retry
  split
  · exact .refl
  · split
    · exact internal_closeSession
    · split
      · exact .refl
      · split
        · exact internal_retries now regardless
        · exact .refl

end Loops

section Handlers

variable {c : Clients}

theorem findMessage_outbound {msgId : Nat} {m : Messages}
    (found : findMessage c.outboundMsgs msgId = some m) :
    findMessage c.exchange.outbound msgId = some m.untouched := by
  simp [Clients.exchange, findMessage_map_untouched, found]

theorem of_findMessage_outbound {msgId : Nat} {m : Messages}
    (found : findMessage c.exchange.outbound msgId = some m) :
    ∃ original, findMessage c.outboundMsgs msgId = some original ∧ original.untouched = m := by
  simpa [Clients.exchange, findMessage_map_untouched] using found

theorem findMessage_inbound (msgId : Nat) :
    findMessage c.exchange.inbound msgId =
      (findMessage c.inboundMsgs msgId).map Messages.untouched :=
  findMessage_map_untouched

theorem exchange_removeOutbound (msgId : Nat) :
    ({ MQTTPersistence.remove c .publishSent msgId with
      outboundMsgs := removeMessage c.outboundMsgs msgId } : Clients).exchange =
      c.exchange.finishOutbound msgId := by
  have removed := Clients.exchange_removeRecords c
    (MQTTPersistence.removedKeys .publishSent msgId)
  have persistent := congrArg Exchange.persistent removed
  have record := congrArg Exchange.record removed
  exact Exchange.ext rfl removeMessage_map_untouched.symm rfl rfl persistent record rfl

theorem exchange_removeInbound (msgId : Nat) :
    ({ MQTTPersistence.remove c .publishReceived msgId with
      inboundMsgs := removeMessage c.inboundMsgs msgId } : Clients).exchange =
      c.exchange.finishInbound msgId := by
  have removed := Clients.exchange_removeRecords c
    (MQTTPersistence.removedKeys .publishReceived msgId)
  have persistent := congrArg Exchange.persistent removed
  have record := congrArg Exchange.record removed
  exact Exchange.ext rfl rfl removeMessage_map_untouched.symm rfl persistent record rfl

/-- A property that no message of this id has. -/
theorem unexpected_of_findMessage {msgId : Nat} {expected : Messages → Prop}
    (other : ∀ m, findMessage c.outboundMsgs msgId = some m → ¬expected m.untouched) :
    ∀ m, findMessage c.exchange.outbound msgId = some m → ¬expected m := by
  intro m found
  obtain ⟨original, foundOriginal, rfl⟩ := of_findMessage_outbound found
  exact other original foundOriginal

theorem handles_handlePubacks (msgId : Nat) :
    Exchange.Handles c.exchange (.puback msgId)
      (MQTTProtocol.handlePubacks c msgId).2.exchange := by
  unfold MQTTProtocol.handlePubacks
  simp only [Clients.log]
  cases found : findMessage c.outboundMsgs msgId with
  | none => exact .pubackIgnored (unexpected_of_findMessage (by simp [found]))
  | some m =>
      dsimp only
      split
      next other =>
        refine .pubackIgnored (unexpected_of_findMessage fun m' found' => ?_)
        cases found.symm.trans found'
        exact other
      next one =>
        have removed := exchange_removeOutbound (c := c.log (.received .puback msgId)) msgId
        exact removed ▸ .puback (findMessage_outbound found) (not_not.mp one)

theorem handles_handlePubcomps (msgId : Nat) :
    Exchange.Handles c.exchange (.pubcomp msgId)
      (MQTTProtocol.handlePubcomps c msgId).2.exchange := by
  unfold MQTTProtocol.handlePubcomps
  simp only [Clients.log]
  cases found : findMessage c.outboundMsgs msgId with
  | none => exact .pubcompUnexpected (unexpected_of_findMessage (by simp [found]))
  | some m =>
      have unexpected (other : ¬Exchange.AwaitsPubcomp m.untouched) :
          ∀ m', findMessage c.exchange.outbound msgId = some m' → ¬Exchange.AwaitsPubcomp m' := by
        refine unexpected_of_findMessage fun m' found' => ?_
        cases found.symm.trans found'
        exact other
      dsimp only
      split
      next other => exact .pubcompUnexpected (unexpected fun awaits => other awaits.1)
      next two =>
        split
        next other => exact .pubcompUnexpected (unexpected fun awaits => other awaits.2)
        next awaits =>
          have removed := exchange_removeOutbound (c := c.log (.received .pubcomp msgId)) msgId
          exact removed ▸
            .pubcomp (findMessage_outbound found) ⟨not_not.mp two, not_not.mp awaits⟩

theorem exchange_acceptPubrec (msgId : Nat) :
    ({ c with
      outboundMsgs := updateMessage c.outboundMsgs msgId fun m =>
        { m with nextMessageType := some .pubcomp, lastTouch := c.clock } } : Clients).exchange =
      c.exchange.acceptPubrec msgId := by
  refine Exchange.ext rfl ?_ rfl rfl rfl rfl rfl
  exact map_untouched_updateMessage fun m => rfl

theorem handles_handlePubrecs (msgId rc : Nat) :
    Exchange.Handles c.exchange (.pubrec msgId rc)
      (MQTTProtocol.handlePubrecs c msgId rc).2.exchange := by
  have acknowledges := acknowledge_acknowledges (c.log (.received .pubrec msgId)) c.mqttVersion
    .pubrel msgId rfl
  unfold MQTTProtocol.handlePubrecs
  dsimp only
  cases found : findMessage (c.log (.received .pubrec msgId)).outboundMsgs msgId with
  | none =>
      have absent : findMessage c.outboundMsgs msgId = none := found
      exact .pubrecUnexpected (unexpected_of_findMessage (by simp [absent])) acknowledges
  | some m =>
      have found : findMessage c.outboundMsgs msgId = some m := found
      have unexpected (other : ¬Exchange.AwaitsPubrec m.untouched) :
          ∀ m', findMessage c.exchange.outbound msgId = some m' → ¬Exchange.AwaitsPubrec m' := by
        refine unexpected_of_findMessage fun m' found' => ?_
        cases found.symm.trans found'
        exact other
      dsimp only
      split
      next other => exact .pubrecUnexpected (unexpected fun awaits => other awaits.1) acknowledges
      next two =>
        split
        next other =>
          exact .pubrecUnexpected (unexpected fun awaits => other awaits.2) acknowledges
        next awaits =>
          have awaits' : Exchange.AwaitsPubrec m.untouched := ⟨not_not.mp two, not_not.mp awaits⟩
          split
          next error =>
            have removed := exchange_removeOutbound (c := c.log (.received .pubrec msgId)) msgId
            exact removed ▸
              .pubrecError (findMessage_outbound found) awaits' error.1 error.2
          next =>
            refine .pubrec (findMessage_outbound found) awaits' ?_
            have accepted := exchange_acceptPubrec (c := c.log (.received .pubrec msgId)) msgId
            rw [← Clients.exchange_log, ← accepted]
            exact acknowledge_acknowledges _ _ _ _ rfl

theorem exchange_storeInbound (m : Messages) :
    (MQTTProtocol.storeInbound c m).exchange = c.exchange.storeInbound m.untouched := by
  have found := findMessage_inbound (c := c) m.msgid
  unfold MQTTProtocol.storeInbound Exchange.storeInbound
  have sameId : m.untouched.msgid = m.msgid := rfl
  rw [sameId, found, Option.isSome_map]
  split
  · exact Exchange.ext rfl rfl (map_untouched_updateMessage fun _ => rfl) rfl rfl rfl rfl
  · refine Exchange.ext rfl rfl ?_ rfl rfl rfl rfl
    exact List.map_append

theorem exchange_persistReceived {publish : Publish} (qos : publish.qos = 2) :
    (MQTTPacket.persistReceived c publish).exchange = c.exchange.persistReceived publish := by
  simp [MQTTPacket.persistReceived, qos, MQTTPersistence.putPacket, Exchange.persistReceived]

/-- A PUBLISH of QoS 2. -/
theorem handles_handlePublishes_qos2 (dup : Bool) (message : Session.Message) (msgId : Nat)
    (qos : message.qos = 2) :
    let publish := Session.publishPacket c.mqttVersion message dup msgId
    Exchange.Handles c.exchange (.publish dup message msgId)
      (MQTTProtocol.handlePublishes (MQTTPacket.persistReceived c publish) publish).2.exchange := by
  intro publish
  have qos' : publish.qos = 2 := qos
  have persisted := exchange_persistReceived (c := c) qos'
  have inbound : (findMessage (MQTTPacket.persistReceived c publish).inboundMsgs msgId).map
      Messages.untouched = findMessage c.exchange.inbound msgId := by
    rw [← findMessage_inbound, persisted]
    rfl
  have stored (m : Messages) :
      (MQTTProtocol.storeInbound
        ((MQTTPacket.persistReceived c publish).log (.receivedPublish publish)) m).exchange =
      ((c.exchange.persistReceived publish).log (.receivedPublish publish)).storeInbound
        m.untouched := by
    rw [exchange_storeInbound, Clients.exchange_log, persisted]
  unfold MQTTProtocol.handlePublishes
  simp only [qos']
  split
  next delivered =>
    have new := Option.isSome_eq_false_iff.mp delivered.2
    refine .publishDelivered qos delivered.1 ?_ ?_
    · rw [← inbound, Option.map_eq_none_iff]
      exact Option.isNone_iff_eq_none.mp new
    · refine acknowledges_of_exchange _ ?_ ?_ _ _
      · rw [MQTTProtocol.processPublication, Clients.exchange_log, stored]
        rfl
      · simp [publish, Session.publishPacket, Clients.exchange]
  next kept =>
    refine .publishKept qos ?_ ?_
    · intro version absent
      rw [← inbound, Option.map_eq_none_iff] at absent
      exact kept ⟨version, Option.isSome_eq_false_iff.mpr (Option.isNone_iff_eq_none.mpr absent)⟩
    · have version : publish.mqttVersion = (((c.exchange.persistReceived publish).log
          (.receivedPublish publish)).storeInbound
            (MQTTProtocol.receivedMessage publish)).mqttVersion := by
        simp [publish, Session.publishPacket, Clients.exchange]
      exact acknowledges_of_exchange _ (stored (MQTTProtocol.receivedMessage publish)) version
        .pubrec msgId

theorem handles_handlePublishes (dup : Bool) (message : Session.Message) (msgId : Nat) :
    let publish := Session.publishPacket c.mqttVersion message dup msgId
    Exchange.Handles c.exchange (.publish dup message msgId)
      (MQTTProtocol.handlePublishes (MQTTPacket.persistReceived c publish) publish).2.exchange := by
  intro publish
  by_cases qos2 : message.qos = 2
  · exact handles_handlePublishes_qos2 dup message msgId qos2
  · have unpersisted : MQTTPacket.persistReceived c publish = c := if_neg qos2
    rw [unpersisted]
    unfold MQTTProtocol.handlePublishes
    dsimp only
    split
    next qos => exact .publish0 qos
    next qos =>
      have same : (MQTTProtocol.processPublication (c.log (.receivedPublish publish))
          publish).exchange = _ := rfl
      exact .publish1 qos (acknowledges_of_exchange _ same rfl _ _)
    next qos => exact absurd qos qos2
    next not0 not1 not2 =>
      refine .publishOther ?_
      have : message.qos ≠ 0 := not0
      have : message.qos ≠ 1 := not1
      omega

theorem exchange_releaseInbound (m : Messages) (msgId : Nat) :
    (MQTTProtocol.releaseInbound c m msgId).exchange =
      (if mqttVersion5 ≤ m.mqttVersion then c.exchange
        else c.exchange.log (.processed (MQTTProtocol.publicationOf m))).finishInbound msgId := by
  unfold MQTTProtocol.releaseInbound
  split <;> exact exchange_removeInbound msgId

theorem handles_handlePubrels (msgId : Nat) :
    Exchange.Handles c.exchange (.pubrel msgId)
      (MQTTProtocol.handlePubrels c msgId).2.exchange := by
  have inbound := findMessage_inbound (c := c) msgId
  have acknowledges := acknowledge_acknowledges (c.log (.received .pubrel msgId)) c.mqttVersion
    .pubcomp msgId rfl
  unfold MQTTProtocol.handlePubrels
  dsimp only
  cases found : findMessage (c.log (.received .pubrel msgId)).inboundMsgs msgId with
  | none =>
      have absent : findMessage c.inboundMsgs msgId = none := found
      rw [absent] at inbound
      exact .pubrelUnexpected (by simp [inbound]) acknowledges
  | some m =>
      have found : findMessage c.inboundMsgs msgId = some m := found
      rw [found] at inbound
      have unexpected (other : ¬Exchange.AwaitsInboundPubrel m.untouched) :
          ∀ m', findMessage c.exchange.inbound msgId = some m' →
            ¬Exchange.AwaitsInboundPubrel m' := by
        intro m' found'
        cases inbound.symm.trans found'
        exact other
      dsimp only
      split
      next other => exact .pubrelUnexpected (unexpected fun awaits => other awaits.1) acknowledges
      next two =>
        split
        next other =>
          exact .pubrelUnexpected (unexpected fun awaits => other awaits.2) acknowledges
        next awaits =>
          refine .pubrel inbound ⟨not_not.mp two, not_not.mp awaits⟩ ?_
          have released := exchange_releaseInbound (c := c.log (.received .pubrel msgId)) m msgId
          have version : c.mqttVersion =
              (MQTTProtocol.releaseInbound (c.log (.received .pubrel msgId)) m
                msgId).exchange.mqttVersion := by
            rw [released]
            split <;> rfl
          exact acknowledges_of_exchange _ released (version.trans (by rw [released]))
            .pubcomp msgId

end Handlers

section Starting

variable {c : Clients}

theorem nextMsgId_pos (msgid : Nat) : 0 < MQTTProtocol.nextMsgId msgid := by
  unfold MQTTProtocol.nextMsgId
  split <;> omega

/-- The search ends at 0 or at an id that is not used. -/
theorem searchMsgId_spec {used : List Nat} {start fuel msgid result : Nat} (positive : 0 < msgid)
    (found : MQTTProtocol.searchMsgId used start fuel msgid = some result) :
    result = 0 ∨ (0 < result ∧ result ∉ used) := by
  induction fuel generalizing msgid with
  | zero => cases found
  | succ fuel ih =>
      unfold MQTTProtocol.searchMsgId at found
      split at found
      · split at found
        · exact .inl (Option.some.inj found).symm
        · exact ih (nextMsgId_pos msgid) found
      next unused => exact .inr (Option.some.inj found ▸ ⟨positive, unused⟩)

/-- An assigned id is 0 or not used by a message in flight; only `msgID` changes. -/
theorem assignMsgId_spec {msgId : Nat} {after : Clients}
    (assigned : MQTTProtocol.assignMsgId c = some (msgId, after)) :
    after.exchange = c.exchange ∧ (msgId ≠ 0 → msgId ∉ ids c.outboundMsgs) := by
  unfold MQTTProtocol.assignMsgId at assigned
  cases found : MQTTProtocol.searchMsgId (ids c.outboundMsgs) c.msgID (maxMsgId + 1)
      (MQTTProtocol.nextMsgId c.msgID) with
  | none => simp [found] at assigned
  | some result =>
      simp only [found, Option.some.injEq, Prod.mk.injEq] at assigned
      obtain ⟨rfl, rfl⟩ := assigned
      constructor
      · split <;> rfl
      · intro assigned
        rcases searchMsgId_spec (nextMsgId_pos _) found with zero | unused
        · exact absurd zero assigned
        · exact unused.2

theorem exchange_startPublish {message : Session.Message} (msgId : Nat)
    (positive : 0 < message.qos) :
    let publish := Session.publishPacket c.mqttVersion message false msgId
    let result := MQTTProtocol.startPublish c publish message.qos message.retained
    result.2.exchange =
      (c.exchange.start
        (MQTTProtocol.createMessage publish message.qos message.retained 0)).sendPublish publish
        result.1 := by
  intro publish result
  have sameProperties : { publish with
      dup := false
      qos := message.qos
      retain := message.retained
      properties := (MQTTProtocol.createMessage publish message.qos message.retained
        c.clock).properties } = publish := by
    simp only [publish, Session.publishPacket, MQTTProtocol.createMessage]
    split <;> rfl
  have started : ({ c with
      outboundMsgs := c.outboundMsgs ++
        [MQTTProtocol.createMessage publish message.qos message.retained c.clock]
      trace := .started msgId message.qos :: c.trace } : Clients).exchange =
      c.exchange.start
        (MQTTProtocol.createMessage publish message.qos message.retained 0) :=
    Exchange.ext rfl List.map_append rfl rfl rfl rfl rfl
  have unfolded : result = MQTTPacket.send_publish
      { c with
        outboundMsgs := c.outboundMsgs ++
          [MQTTProtocol.createMessage publish message.qos message.retained c.clock]
        trace := .started msgId message.qos :: c.trace }
      { publish with
        properties := (MQTTProtocol.createMessage publish message.qos message.retained
          c.clock).properties }
      false message.qos message.retained := by
    simp only [result, MQTTProtocol.startPublish, positive, if_true]
    rfl
  rw [unfolded, exchange_send_publish _ _ _ _ _ (by omega), started]
  exact congrArg (Exchange.sendPublish _ · _) sameProperties

/-- Publishing has no effect on the exchanges, or starts one with the next id. -/
theorem starts_publish (message : Session.Message) :
    (Session.publish c message).exchange = c.exchange ∨
      ∃ msgId, Exchange.Starts c.exchange message msgId (Session.publish c message).exchange ∧
        (message.qos ≠ 0 → Session.nextId c = some msgId) := by
  unfold Session.publish
  split
  · exact .inl rfl
  next atMost2 =>
    split
    next qos0 => exact .inr ⟨0, .unacknowledged qos0, fun positive => absurd qos0 positive⟩
    next positive =>
      split
      · exact .inl rfl
      next msgId after assigned =>
        obtain ⟨same, unused⟩ := assignMsgId_spec assigned
        split
        · exact .inl same
        next nonzero =>
          have started := exchange_startPublish (c := after) msgId (Nat.pos_of_ne_zero positive)
          have version : after.mqttVersion = c.exchange.mqttVersion :=
            congrArg Exchange.mqttVersion same
          have free : msgId ∉ ids c.exchange.outbound := by
            simpa [Clients.exchange] using unused nonzero
          rw [same, version] at started
          rw [version, started]
          refine .inr ⟨msgId, .start (Nat.pos_of_ne_zero nonzero) free (by omega), fun _ => ?_⟩
          simp [Session.nextId, assigned]

end Starting

section Steps

variable {c : Clients}

theorem internal_completeConnection (sessionPresent : Bool) :
    ReflTransGen Exchange.Internal c.exchange
      (MQTTAsync.completeConnection c sessionPresent).exchange := by
  have connected : ReflTransGen Exchange.Internal c.exchange
      (({ c with connected := true, good := true } : Clients).log .connected).exchange :=
    .single (.connect _)
  have cleaned := connected.tail (.clean _)
  rw [← exchange_cleanSession] at cleaned
  have resent (after : Clients) (reached : ReflTransGen Exchange.Internal c.exchange
      after.exchange) :
      ReflTransGen Exchange.Internal c.exchange
        (if 0 < after.outboundMsgs.length then
          MQTTProtocol.retry 0 true true
            { after with outboundMsgs := after.outboundMsgs.map fun m => { m with lastTouch := 0 } }
        else after).exchange := by
    split
    · have erased : ({ after with
          outboundMsgs := after.outboundMsgs.map fun m => { m with lastTouch := 0 } } :
            Clients).exchange = after.exchange := by
        refine Exchange.ext rfl ?_ rfl rfl rfl rfl rfl
        simp [Clients.exchange, Function.comp_def, Messages.untouched]
      exact (erased ▸ reached).trans (internal_retry 0 true true)
    · exact reached
  unfold MQTTAsync.completeConnection
  dsimp only
  split
  · exact resent _ cleaned
  · split
    · exact resent _ cleaned
    · exact resent _ connected

/-- The actions other than publishing, receiving a packet and restarting. -/
def Session.Action.Internal : Session.Action → Prop
  | .publish _ | .receive _ | .restart _ => False
  | .retry _ | .continueWrite _ | .connectionLost | .connect _ => True

theorem internal_act {action : Session.Action} (internal : action.Internal) :
    ReflTransGen Exchange.Internal c.exchange (Session.act c action).exchange := by
  cases action with
  | publish message => exact internal.elim
  | receive packet => exact internal.elim
  | restart keys => exact internal.elim
  | retry doRetry => exact internal_retry c.clock doRetry false
  | continueWrite succeeded =>
      simp only [Session.act]
      split
      · split
        · exact internal_writeAvailable
            (c := { c with net := { c.net with pendingWrites := false } })
        · exact .refl
      · exact .refl
  | connectionLost =>
      simp only [Session.act]
      split
      · exact internal_closeSession
      · exact .refl
  | connect sessionPresent =>
      simp only [Session.act]
      split
      · exact .refl
      · exact internal_completeConnection sessionPresent

theorem handles_receive (packet : Session.Packet) :
    Exchange.Handles c.exchange packet (Session.receive c packet).exchange := by
  cases packet with
  | publish dup message msgId => exact handles_handlePublishes dup message msgId
  | puback msgId => exact handles_handlePubacks msgId
  | pubrec msgId rc => exact handles_handlePubrecs msgId rc
  | pubrel msgId => exact handles_handlePubrels msgId
  | pubcomp msgId => exact handles_handlePubcomps msgId

theorem exchange_provide (input : Session.Input) :
    (Session.provide c input).exchange = c.exchange :=
  rfl

theorem nextId_provide (input : Session.Input) :
    Session.nextId (Session.provide c input) = Session.nextId c := by
  have searched (c : Clients) : Session.nextId c = MQTTProtocol.searchMsgId (ids c.outboundMsgs)
      c.msgID (maxMsgId + 1) (MQTTProtocol.nextMsgId c.msgID) := by
    unfold Session.nextId MQTTProtocol.assignMsgId
    split <;> simp_all
  rw [searched, searched]
  rfl

/-- Restarting aside, a step of the session is made of the changes of its exchanges. -/
theorem step_refines {input : Session.Input} (running : ∀ keys, input.action ≠ .restart keys) :
    ReflTransGen Exchange.Internal c.exchange (Session.step c input).exchange ∨
      (∃ message msgId, input.action = .publish message ∧
        Exchange.Starts c.exchange message msgId (Session.step c input).exchange ∧
        c.connected = true ∧ (message.qos ≠ 0 → Session.nextId c = some msgId)) ∨
      (∃ packet, input.action = .receive packet ∧
        Exchange.Handles c.exchange packet (Session.step c input).exchange) := by
  have unchanged := exchange_provide (c := c) input
  have sameNext := nextId_provide (c := c) input
  have sameConnected : (Session.provide c input).connected = c.connected := rfl
  unfold Session.step
  rw [← unchanged, ← sameNext, ← sameConnected]
  generalize Session.provide c input = c
  cases action : input.action with
  | restart keys => exact absurd action (running keys)
  | publish message =>
      simp only [Session.act]
      split
      next connected =>
        rcases starts_publish (c := c) message with same | ⟨msgId, starts, next⟩
        · exact .inl (same ▸ .refl)
        · exact .inr (.inl ⟨message, msgId, rfl, starts, connected, next⟩)
      next => exact .inl .refl
  | receive packet =>
      simp only [Session.act]
      split
      · exact .inr (.inr ⟨packet, rfl, handles_receive packet⟩)
      · exact .inl .refl
  | retry doRetry => exact .inl (internal_act trivial)
  | continueWrite succeeded => exact .inl (internal_act trivial)
  | connectionLost => exact .inl (internal_act trivial)
  | connect sessionPresent => exact .inl (internal_act trivial)

end Steps

end Paho
