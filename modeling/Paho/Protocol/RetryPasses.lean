import Paho.Protocol.InFlight

/-!
# Retry passes

What one retry pass does: it visits the messages in flight from the first one on, sends a packet
for those that are due, and ends early when a write is interrupted or fails. The other operations
on an open connection leave what was sent again as it is.
-/

namespace Paho

/-- What happened on the present connection, newest first. -/
def sinceConnected (trace : List Event) : List Event :=
  trace.takeWhile fun event => event ≠ .connected

/-- The ids of the messages that retry passes sent again, newest first. -/
def resentIds (events : List Event) : List Nat :=
  events.filterMap fun
    | .resent _ msgid => some msgid
    | _ => none

theorem sinceConnected_append {events : List Event} (same : .connected ∉ events)
    (trace : List Event) : sinceConnected (events ++ trace) = events ++ sinceConnected trace := by
  apply List.takeWhile_append_of_pos
  intro event mem
  simp only [decide_eq_true_eq]
  rintro rfl
  exact same mem

theorem resentIds_append (newer older : List Event) :
    resentIds (newer ++ older) = resentIds newer ++ resentIds older :=
  List.filterMap_append

theorem mem_resentIds {msgid : Nat} {events : List Event} :
    msgid ∈ resentIds events ↔ ∃ type, .resent type msgid ∈ events := by
  unfold resentIds
  rw [List.mem_filterMap]
  constructor
  · rintro ⟨event, mem, same⟩
    cases event <;> simp_all
    exact ⟨_, mem⟩
  · rintro ⟨type, mem⟩
    exact ⟨_, mem, rfl⟩

namespace Clients

/-- The ids that were sent again on the present connection, newest first. -/
def resends (c : Clients) : List Nat :=
  resentIds (sinceConnected c.trace)

/-- No publication with this id was started on the present connection. -/
def LeftOver (c : Clients) (msgid : Nat) : Prop :=
  ∀ event ∈ sinceConnected c.trace, event.starts msgid = false

/-- No PUBREC with this id was received on the present connection. -/
def Unacknowledged (c : Clients) (msgid : Nat) : Prop :=
  .received .pubrec msgid ∉ sinceConnected c.trace

instance decidableLeftOver (c : Clients) (msgid : Nat) : Decidable (c.LeftOver msgid) :=
  inferInstanceAs (Decidable (∀ event ∈ _, _))

end Clients

/-- Events other than a connection, and other than the sending of a packet by a retry pass. -/
def Event.Quiet : Event → Prop
  | .connected => False
  | .resent _ _ => False
  | _ => True

/-- The changes of a session on one connection other than retry passes and publications. -/
structure Quiet (c c' : Clients) : Prop where
  sent : c'.connectSent = c.connectSent
  count : c'.connectCount = c.connectCount
  connected : c'.connected = c.connected
  good : c'.good = c.good
  trace : ∃ events, c'.trace = events ++ c.trace ∧ ∀ event ∈ events, event.Quiet
  order : (ids c'.outboundMsgs).Sublist (ids c.outboundMsgs)
  touched : ∀ m' ∈ c'.outboundMsgs, ∃ m ∈ c.outboundMsgs, m.msgid = m'.msgid ∧
    (m'.lastTouch = m.lastTouch ∨ .received .pubrec m.msgid ∈ sinceConnected c'.trace)

namespace Quiet

variable {c c' c'' : Clients}

theorem not_connected {events : List Event} (quiet : ∀ event ∈ events, event.Quiet) :
    .connected ∉ events :=
  fun mem => quiet _ mem

theorem resentIds_eq {events : List Event} (quiet : ∀ event ∈ events, event.Quiet) :
    resentIds events = [] := by
  rw [List.eq_nil_iff_forall_not_mem]
  intro msgid mem
  rcases mem_resentIds.mp mem with ⟨type, mem⟩
  exact quiet _ mem

theorem since (quiet : Quiet c c') :
    ∃ events, sinceConnected c'.trace = events ++ sinceConnected c.trace ∧
      ∀ event ∈ events, event.Quiet := by
  rcases quiet.trace with ⟨events, trace, quiet⟩
  refine ⟨events, ?_, quiet⟩
  rw [trace, sinceConnected_append (not_connected quiet)]

theorem resends (quiet : Quiet c c') : c'.resends = c.resends := by
  rcases quiet.since with ⟨events, since, quiet⟩
  unfold Clients.resends
  rw [since, resentIds_append, resentIds_eq quiet, List.nil_append]

theorem leftOver (quiet : Quiet c c') {msgid : Nat} (leftOver : c'.LeftOver msgid) :
    c.LeftOver msgid := by
  rcases quiet.since with ⟨events, since, _⟩
  intro event mem
  apply leftOver event
  rw [since]
  exact List.mem_append_right _ mem

theorem unacknowledged (quiet : Quiet c c') {msgid : Nat}
    (unacknowledged : c'.Unacknowledged msgid) : c.Unacknowledged msgid := by
  rcases quiet.since with ⟨events, since, _⟩
  intro mem
  apply unacknowledged
  rw [since]
  exact List.mem_append_right _ mem

/-- The messages in flight and the counters are as they were. -/
theorem of_events (sent : c'.connectSent = c.connectSent) (count : c'.connectCount = c.connectCount)
    (connected : c'.connected = c.connected) (good : c'.good = c.good)
    (outbound : c'.outboundMsgs = c.outboundMsgs) (events : List Event)
    (trace : c'.trace = events ++ c.trace) (quiet : ∀ event ∈ events, event.Quiet) :
    Quiet c c' where
  sent := sent
  count := count
  connected := connected
  good := good
  trace := ⟨events, trace, quiet⟩
  order := by rw [outbound]
  touched := fun m mem => ⟨m, outbound ▸ mem, rfl, .inl rfl⟩

theorem refl (c : Clients) : Quiet c c :=
  of_events rfl rfl rfl rfl rfl [] rfl (by simp)

theorem trans (first : Quiet c c') (second : Quiet c' c'') : Quiet c c'' where
  sent := second.sent.trans first.sent
  count := second.count.trans first.count
  connected := second.connected.trans first.connected
  good := second.good.trans first.good
  trace := by
    rcases first.trace with ⟨events, trace, quiet⟩
    rcases second.trace with ⟨events', trace', quiet'⟩
    refine ⟨events' ++ events, by rw [trace', trace, List.append_assoc], ?_⟩
    intro event mem
    rcases List.mem_append.mp mem with new | old
    · exact quiet' event new
    · exact quiet event old
  order := second.order.trans first.order
  touched := by
    intro m'' mem
    rcases second.touched m'' mem with ⟨m', mem', same', touched'⟩
    rcases first.touched m' mem' with ⟨m, mem, same, touched⟩
    refine ⟨m, mem, same.trans same', ?_⟩
    rcases touched' with kept' | received'
    · rcases touched with kept | received
      · exact .inl (kept'.trans kept)
      · right
        rcases second.since with ⟨events, since, _⟩
        rw [since]
        exact List.mem_append_right _ received
    · exact .inr (same ▸ received')

end Quiet

section Operations

variable (c : Clients)

theorem quiet_write {event : CompletionCode → Event} (quiet : ∀ rc, (event rc).Quiet) :
    Quiet c (MQTTPacket.write c event).2 := by
  refine .of_events rfl rfl rfl rfl rfl [event (Socket.putdatas c.net).1] rfl ?_
  intro event mem
  rw [List.mem_singleton.mp mem]
  exact quiet _

theorem quiet_log (event : Event) (quiet : event.Quiet) : Quiet c (c.log event) := by
  refine .of_events rfl rfl rfl rfl rfl [event] rfl ?_
  intro event mem
  rw [List.mem_singleton.mp mem]
  exact quiet

theorem quiet_putRecord (key : PersistenceKey) (record : Record) :
    Quiet c (c.putRecord key record) :=
  .of_events rfl rfl rfl rfl rfl [] rfl (by simp)

theorem quiet_removeRecords (keys : List PersistenceKey) : Quiet c (c.removeRecords keys) :=
  .of_events rfl rfl rfl rfl rfl [] rfl (by simp)

theorem quiet_putPacket (record : Record) (htype : PacketType) (msgId scr mqttVersion : Nat) :
    Quiet c (MQTTPersistence.putPacket c record htype msgId scr mqttVersion) := by
  unfold MQTTPersistence.putPacket
  split
  · split <;> exact quiet_putRecord c _ _
  · exact quiet_putRecord c _ _

theorem quiet_send_ack (mqttVersion : Nat) (type : PacketType) (msgid : Nat) :
    Quiet c (MQTTPacket.send_ack c mqttVersion type msgid).2 := by
  unfold MQTTPacket.send_ack
  split
  · exact (quiet_putPacket c _ _ _ _ _).trans (quiet_write _ fun _ => trivial)
  · exact quiet_write c fun _ => trivial

theorem quiet_send_publish (publish : Publish) (dup : Bool) (qos : Nat) (retained : Bool) :
    Quiet c (MQTTPacket.send_publish c publish dup qos retained).2 := by
  unfold MQTTPacket.send_publish
  split
  · exact quiet_write c fun _ => trivial
  · exact (quiet_putPacket c _ _ _ _ _).trans (quiet_write _ fun _ => trivial)

theorem quiet_acknowledge (mqttVersion : Nat) (type : PacketType) (msgId : Nat) :
    Quiet c (MQTTProtocol.acknowledge c mqttVersion type msgId).2 := by
  unfold MQTTProtocol.acknowledge
  split
  · exact quiet_send_ack c _ _ _
  · refine .of_events rfl rfl rfl rfl rfl [.queuedAck type msgId] rfl ?_
    intro event mem
    rw [List.mem_singleton.mp mem]
    trivial

theorem quiet_sendQueuedAcks (queue : List AckRequest) :
    Quiet c (MQTTProtocol.sendQueuedAcks c queue) := by
  induction queue generalizing c with
  | nil => exact .refl c
  | cons ackReq rest ih =>
      have sent := quiet_send_ack c c.mqttVersion ackReq.ackType ackReq.messageId
      unfold MQTTProtocol.sendQueuedAcks
      split
      next after result =>
        rw [result] at sent
        exact sent.trans (ih after)
      next result =>
        rw [result] at sent
        exact sent

theorem quiet_writeAvailable : Quiet c (MQTTProtocol.writeAvailable c) :=
  (quiet_sendQueuedAcks c c.outboundQueue).trans (.of_events rfl rfl rfl rfl rfl [] rfl (by simp))

/-- The exchange of a message ends. -/
theorem quiet_removeMessage (msgId : Nat) :
    Quiet c { c with outboundMsgs := removeMessage c.outboundMsgs msgId } where
  sent := rfl
  count := rfl
  connected := rfl
  good := rfl
  trace := ⟨[], rfl, by simp⟩
  order := removeMessage_sublist.map Messages.msgid
  touched := fun m mem => ⟨m, mem_of_mem_removeMessage mem, rfl, .inl rfl⟩

theorem quiet_handlePubacks (msgId : Nat) : Quiet c (MQTTProtocol.handlePubacks c msgId).2 := by
  have logged := quiet_log c (.received .puback msgId) trivial
  unfold MQTTProtocol.handlePubacks
  dsimp only
  split
  · exact logged
  · split
    · exact logged
    · exact (logged.trans (quiet_removeRecords _ _)).trans (quiet_removeMessage _ msgId)

theorem quiet_handlePubcomps (msgId : Nat) : Quiet c (MQTTProtocol.handlePubcomps c msgId).2 := by
  have logged := quiet_log c (.received .pubcomp msgId) trivial
  unfold MQTTProtocol.handlePubcomps
  dsimp only
  split
  · exact logged
  · split
    · exact logged
    · split
      · exact logged
      · exact (logged.trans (quiet_removeRecords _ _)).trans (quiet_removeMessage _ msgId)

/-- PUBREC is accepted after it was received. -/
theorem quiet_acceptPubrec {msgId : Nat}
    (received : .received .pubrec msgId ∈ sinceConnected c.trace) (lastTouch : Nat) :
    Quiet c
      { c with
        outboundMsgs := updateMessage c.outboundMsgs msgId fun m =>
          { m with nextMessageType := some .pubcomp, lastTouch := lastTouch } } where
  sent := rfl
  count := rfl
  connected := rfl
  good := rfl
  trace := ⟨[], rfl, by simp⟩
  order := by
    have same : ids (updateMessage c.outboundMsgs msgId fun m =>
        { m with nextMessageType := some .pubcomp, lastTouch := lastTouch }) =
          ids c.outboundMsgs := ids_updateMessage fun _ same => same
    rw [same]
  touched := by
    intro m' mem
    rcases exists_of_mem_updateMessage mem with ⟨m, oldMem, rfl | ⟨same, rfl⟩⟩
    · exact ⟨_, oldMem, rfl, .inl rfl⟩
    · exact ⟨m, oldMem, rfl, .inr (same ▸ received)⟩

theorem quiet_handlePubrecs (msgId rc : Nat) :
    Quiet c (MQTTProtocol.handlePubrecs c msgId rc).2 := by
  have logged := quiet_log c (.received .pubrec msgId) trivial
  have received : .received .pubrec msgId ∈
      sinceConnected (c.log (.received .pubrec msgId)).trace := List.mem_cons_self
  have unexpected := logged.trans (quiet_acknowledge _ c.mqttVersion .pubrel msgId)
  unfold MQTTProtocol.handlePubrecs
  dsimp only
  split
  · exact unexpected
  · split
    · exact unexpected
    · split
      · exact unexpected
      · split
        · exact (logged.trans (quiet_removeRecords _ _)).trans (quiet_removeMessage _ msgId)
        · exact (logged.trans (quiet_acceptPubrec _ received _)).trans
            (quiet_acknowledge _ _ _ _)

theorem quiet_storeInbound (m : Messages) : Quiet c (MQTTProtocol.storeInbound c m) := by
  unfold MQTTProtocol.storeInbound
  split <;> exact .of_events rfl rfl rfl rfl rfl [] rfl (by simp)

theorem quiet_processPublication (publish : Publish) :
    Quiet c (MQTTProtocol.processPublication c publish) :=
  quiet_log c (.processed publish) trivial

theorem quiet_handlePublishes (publish : Publish) :
    Quiet c (MQTTProtocol.handlePublishes c publish).2 := by
  have logged := quiet_log c (.receivedPublish publish) trivial
  unfold MQTTProtocol.handlePublishes
  dsimp only
  split
  · exact logged.trans (quiet_processPublication _ publish)
  · exact (logged.trans (quiet_processPublication _ publish)).trans (quiet_acknowledge _ _ _ _)
  · apply Quiet.trans _ (quiet_acknowledge _ _ _ _)
    split
    · exact (logged.trans (quiet_storeInbound _ _)).trans (quiet_processPublication _ _)
    · exact logged.trans (quiet_storeInbound _ _)
  · exact logged

theorem quiet_releaseInbound (m : Messages) (msgId : Nat) :
    Quiet c (MQTTProtocol.releaseInbound c m msgId) := by
  have removed (c : Clients) : Quiet c
      { MQTTPersistence.remove c .publishReceived msgId with
        inboundMsgs := removeMessage c.inboundMsgs msgId } :=
    .of_events rfl rfl rfl rfl rfl [] rfl (by simp)
  unfold MQTTProtocol.releaseInbound
  dsimp only
  split
  · exact removed c
  · exact (quiet_processPublication c _).trans (removed _)

theorem quiet_handlePubrels (msgId : Nat) : Quiet c (MQTTProtocol.handlePubrels c msgId).2 := by
  have logged := quiet_log c (.received .pubrel msgId) trivial
  have unexpected := logged.trans (quiet_acknowledge _ c.mqttVersion .pubcomp msgId)
  unfold MQTTProtocol.handlePubrels
  dsimp only
  split
  · exact unexpected
  · split
    · exact unexpected
    · split
      · exact unexpected
      · exact (logged.trans (quiet_releaseInbound _ _ _)).trans (quiet_acknowledge _ _ _ _)

theorem quiet_receive (packet : Session.Packet) : Quiet c (Session.receive c packet) := by
  cases packet with
  | publish dup message msgId =>
      apply Quiet.trans _ (quiet_handlePublishes _ _)
      unfold MQTTPacket.persistReceived
      split
      · exact quiet_putPacket c _ _ _ _ _
      · exact .refl c
  | puback msgId => exact quiet_handlePubacks c msgId
  | pubrec msgId rc => exact quiet_handlePubrecs c msgId rc
  | pubrel msgId => exact quiet_handlePubrels c msgId
  | pubcomp msgId => exact quiet_handlePubcomps c msgId

end Operations

/-- The connection is closed, and no write is pending. -/
def Closed (c : Clients) : Prop :=
  c.connected = false ∧ c.net.pendingWrites = false

theorem closed_closeSession (c : Clients) : Closed (MQTTProtocol.closeSession c) := by
  unfold MQTTProtocol.closeSession MQTTAsync.nextOrClose MQTTAsync.closeSession
  dsimp only
  split
  · exact ⟨rfl, rfl⟩
  · split <;> exact ⟨rfl, rfl⟩

section Passes

/-- Whether a pass of `MQTTProtocol_retries` sends a packet for a message it visits. -/
def isDue (now : Nat) (regardless : Bool) (retryInterval : Int) (m : Messages) : Bool :=
  regardless || decide ((now : Int) - m.lastTouch > max retryInterval 10 * 1000)

/-- A message that is not due when another one is was touched before. -/
theorem isDue_leftOut {now : Nat} {regardless : Bool} {retryInterval : Int} (m m' : Messages)
    (due : isDue now regardless retryInterval m = true)
    (notDue : isDue now regardless retryInterval m' = false) : m'.lastTouch ≠ 0 := by
  unfold isDue at due notDue
  cases regardless with
  | true => cases notDue
  | false =>
      simp only [Bool.false_or, decide_eq_true_eq, decide_eq_false_iff_not] at due notDue
      omega

/-- Events of a pass: neither a connection nor the start of a publication nor an arrival. -/
def Event.OfPass : Event → Prop
  | .sentPublish _ _ _ => True
  | .sentAck _ _ _ => True
  | .resent _ _ => True
  | _ => False

/-- A pass that visited some messages and left the connection open. -/
structure Passes (due : Messages → Bool) (regardless : Bool) (visited : List Messages)
    (c c' : Clients) : Prop where
  sent : c'.connectSent = c.connectSent + if regardless then visited.length else 0
  count : c'.connectCount = c.connectCount
  connected : c'.connected = true
  good : c'.good = true
  retryInterval : c'.retryInterval = c.retryInterval
  trace : ∃ events, c'.trace = events ++ c.trace ∧ (∀ event ∈ events, event.OfPass) ∧
    resentIds events = (ids (visited.filter due)).reverse
  order : ids c'.outboundMsgs = ids c.outboundMsgs
  touched : ∀ m' ∈ c'.outboundMsgs, (∃ m ∈ c.outboundMsgs, m.msgid = m'.msgid ∧
    m'.lastTouch = m.lastTouch) ∨ m'.msgid ∈ ids (visited.filter due)

namespace Passes

variable {due : Messages → Bool} {regardless : Bool} {left right : List Messages}
  {c c' c'' : Clients}

theorem nil (connected : c.connected = true) (good : c.good = true) :
    Passes due regardless [] c c where
  sent := by simp
  count := rfl
  connected := connected
  good := good
  retryInterval := rfl
  trace := ⟨[], rfl, by simp, rfl⟩
  order := rfl
  touched := fun m mem => .inl ⟨m, mem, rfl, rfl⟩

theorem append (first : Passes due regardless left c c')
    (second : Passes due regardless right c' c'') :
    Passes due regardless (left ++ right) c c'' where
  sent := by
    rw [second.sent, first.sent, List.length_append]
    split <;> omega
  count := second.count.trans first.count
  connected := second.connected
  good := second.good
  retryInterval := second.retryInterval.trans first.retryInterval
  trace := by
    rcases first.trace with ⟨events, trace, ofPass, resent⟩
    rcases second.trace with ⟨events', trace', ofPass', resent'⟩
    refine ⟨events' ++ events, by rw [trace', trace, List.append_assoc], ?_, ?_⟩
    · intro event mem
      rcases List.mem_append.mp mem with new | old
      · exact ofPass' event new
      · exact ofPass event old
    · rw [resentIds_append, resent, resent', List.filter_append, ids_append, List.reverse_append]
  order := second.order.trans first.order
  touched := by
    intro m'' mem
    rw [List.filter_append, ids_append, List.mem_append]
    rcases second.touched m'' mem with ⟨m', mem', same', kept'⟩ | sent
    · rcases first.touched m' mem' with ⟨m, mem, same, kept⟩ | sent
      · exact .inl ⟨m, mem, same.trans same', kept'.trans kept⟩
      · exact .inr (.inl (same' ▸ sent))
    · exact .inr (.inr sent)

/-- A message that is not due. -/
theorem skip {m : Messages} (connected : c.connected = true) (good : c.good = true)
    (notDue : due m = false) : Passes due false [m] c c where
  sent := rfl
  count := rfl
  connected := connected
  good := good
  retryInterval := rfl
  trace := ⟨[], rfl, by simp, by simp [notDue, resentIds]⟩
  order := rfl
  touched := fun m mem => .inl ⟨m, mem, rfl, rfl⟩

end Passes

/-- What a successful write of a retry leaves behind. -/
theorem passes_touch {due : Messages → Bool} {regardless : Bool} {c after : Clients}
    {m : Messages} {event : Event} {type : PacketType} (isDue : due m = true)
    (connected : c.connected = true) (good : c.good = true) (ofPass : event.OfPass)
    (other : resentIds [event] = [])
    (sent : after = { MQTTProtocol.countSent c regardless with
      net := after.net
      persistence := after.persistence
      trace := event :: c.trace }) :
    Passes due regardless [m] c (MQTTProtocol.touch after type m.msgid) := by
  have counted : (MQTTProtocol.countSent c regardless).connectSent =
      c.connectSent + if regardless then 1 else 0 := by
    unfold MQTTProtocol.countSent
    split <;> rfl
  have same : (MQTTProtocol.countSent c regardless).connectCount = c.connectCount ∧
      (MQTTProtocol.countSent c regardless).connected = c.connected ∧
      (MQTTProtocol.countSent c regardless).good = c.good ∧
      (MQTTProtocol.countSent c regardless).retryInterval = c.retryInterval ∧
      (MQTTProtocol.countSent c regardless).outboundMsgs = c.outboundMsgs := by
    unfold MQTTProtocol.countSent
    split <;> exact ⟨rfl, rfl, rfl, rfl, rfl⟩
  rcases same with ⟨count, sameConnected, sameGood, retryInterval, outbound⟩
  have outboundAfter : after.outboundMsgs = c.outboundMsgs := by
    rw [sent]
    exact outbound
  constructor
  · change after.connectSent = _
    rw [sent]
    exact counted
  · change after.connectCount = _
    rw [sent]
    exact count
  · change after.connected = _
    rw [sent]
    exact sameConnected.trans connected
  · change after.good = _
    rw [sent]
    exact sameGood.trans good
  · change after.retryInterval = _
    rw [sent]
    exact retryInterval
  · refine ⟨[.resent type m.msgid, event], ?_, ?_, ?_⟩
    · change .resent type m.msgid :: after.trace = _
      rw [sent]
      rfl
    · intro event' mem
      rcases List.mem_cons.mp mem with rfl | mem
      · trivial
      · rw [List.mem_singleton.mp mem]
        exact ofPass
    · have split : resentIds [.resent type m.msgid, event] = m.msgid :: resentIds [event] := rfl
      rw [split, other]
      simp [isDue]
  · have same : ids (MQTTProtocol.touch after type m.msgid).outboundMsgs =
        ids after.outboundMsgs := ids_updateMessage fun _ same => same
    rw [same, outboundAfter]
  · intro m' mem
    rcases exists_of_mem_updateMessage mem with ⟨old, oldMem, rfl | ⟨sameId, rfl⟩⟩
    · exact .inl ⟨_, outboundAfter ▸ oldMem, rfl, rfl⟩
    · right
      simp [isDue, sameId]

section Writes

variable (c : Clients)

theorem putPacket_result (record : Record) (htype : PacketType) (msgId scr mqttVersion : Nat) :
    ∃ persistence, MQTTPersistence.putPacket c record htype msgId scr mqttVersion =
      { c with persistence := persistence } := by
  unfold MQTTPersistence.putPacket
  split
  · split <;> exact ⟨_, rfl⟩
  · exact ⟨_, rfl⟩

theorem send_publish_result (publish : Publish) (dup : Bool) (qos : Nat) (retained : Bool) :
    ∃ persistence, MQTTPacket.send_publish c publish dup qos retained =
      ((Socket.putdatas c.net).1,
        { c with
          net := (Socket.putdatas c.net).2
          persistence := persistence
          trace := .sentPublish publish.msgId dup (Socket.putdatas c.net).1 :: c.trace }) := by
  unfold MQTTPacket.send_publish
  split
  · exact ⟨c.persistence, rfl⟩
  · rcases putPacket_result c (.publish { publish with dup := dup, qos := qos, retain := retained })
      .publish publish.msgId 0 publish.mqttVersion with ⟨persistence, stored⟩
    refine ⟨persistence, ?_⟩
    dsimp only
    rw [stored]
    rfl

theorem send_ack_result (mqttVersion : Nat) (type : PacketType) (msgid : Nat) :
    ∃ persistence, MQTTPacket.send_ack c mqttVersion type msgid =
      ((Socket.putdatas c.net).1,
        { c with
          net := (Socket.putdatas c.net).2
          persistence := persistence
          trace := .sentAck type msgid (Socket.putdatas c.net).1 :: c.trace }) := by
  unfold MQTTPacket.send_ack
  split
  · rcases putPacket_result c (.pubrel msgid) type msgid 0 mqttVersion with ⟨persistence, stored⟩
    refine ⟨persistence, ?_⟩
    dsimp only
    rw [stored]
    rfl
  · exact ⟨c.persistence, rfl⟩

end Writes

theorem countSent_keeps (c : Clients) (regardless : Bool) :
    (MQTTProtocol.countSent c regardless).net = c.net ∧
      (MQTTProtocol.countSent c regardless).trace = c.trace := by
  unfold MQTTProtocol.countSent
  split <;> exact ⟨rfl, rfl⟩

/-- The retry of a message of QoS 1 or 2 that is in flight. -/
theorem retryMessage_spec {due : Messages → Bool} (regardless : Bool) {c : Clients} {m : Messages}
    (awaits : m.Due) (isDue : due m = true) (connected : c.connected = true)
    (good : c.good = true) :
    let rc := (Socket.putdatas c.net).1
    let result := MQTTProtocol.retryMessage (MQTTProtocol.countSent c regardless) m
    (result.1 = true ∧ Passes due regardless [m] c result.2 ∧
        result.2.net = (Socket.putdatas c.net).2 ∧
        (rc = .complete ∨ (rc = .interrupted ∧ Exchange.AwaitsPublish m))) ∨
      (result.1 = false ∧ Closed result.2 ∧
        (rc = .socketError ∨ (rc = .interrupted ∧ ¬Exchange.AwaitsPublish m))) := by
  rcases countSent_keeps c regardless with ⟨net, trace⟩
  intro rc result
  rcases send_publish_result (MQTTProtocol.countSent c regardless) (MQTTProtocol.retryPublish m)
    true m.qos m.retain with ⟨published, publish⟩
  rcases send_ack_result (MQTTProtocol.countSent c regardless) m.mqttVersion .pubrel m.msgid
    with ⟨released, pubrel⟩
  have unfolded : result = MQTTProtocol.retryMessage (MQTTProtocol.countSent c regardless) m := rfl
  have written : rc = (Socket.putdatas c.net).1 := rfl
  unfold MQTTProtocol.retryMessage at unfolded
  rw [publish, pubrel, net, trace] at unfolded
  clear_value rc result
  generalize Socket.putdatas c.net = write at *
  rcases write with ⟨rc', after⟩
  cases written
  by_cases publishes : m.qos = 1 ∨ (m.qos = 2 ∧ m.nextMessageType = some .pubrec)
  · rw [if_pos publishes] at unfolded
    subst unfolded
    cases rc' with
    | complete =>
        left
        exact ⟨rfl, passes_touch isDue connected good (by trivial) rfl rfl, rfl, .inl rfl⟩
    | interrupted =>
        left
        exact ⟨rfl, passes_touch isDue connected good (by trivial) rfl rfl, rfl,
          .inr ⟨rfl, publishes⟩⟩
    | socketError =>
        right
        exact ⟨rfl, closed_closeSession _, .inl rfl⟩
  · have releases : m.qos ≠ 0 ∧ m.nextMessageType = some .pubcomp := awaits.resolve_left publishes
    rw [if_neg publishes, if_pos releases] at unfolded
    subst unfolded
    cases rc' with
    | complete =>
        left
        exact ⟨rfl, passes_touch isDue connected good (by trivial) rfl rfl, rfl, .inl rfl⟩
    | interrupted =>
        right
        exact ⟨rfl, closed_closeSession _, .inr ⟨rfl, publishes⟩⟩
    | socketError =>
        right
        exact ⟨rfl, closed_closeSession _, .inl rfl⟩

instance decidableAwaitsPublish (m : Messages) : Decidable (Exchange.AwaitsPublish m) :=
  inferInstanceAs (Decidable (_ ∨ _))

/-- How many messages a pass over these reaches when an interrupted PUBLISH ends it; `none` when
no PUBLISH does. -/
def interruptedAt : List CompletionCode → List Messages → Option Nat
  | .complete :: writes, _ :: rest => (interruptedAt writes rest).map (· + 1)
  | .interrupted :: _, m :: _ => if Exchange.AwaitsPublish m then some 1 else none
  | _, _ => none

/-- What an idle socket makes of the next write. -/
theorem putdatas_idle {net : NetworkHandles} (idle : net.pendingWrites = false) :
    Socket.putdatas net =
      (net.writes.head?.getD .complete,
        { pendingWrites := decide (net.writes.head?.getD .complete = .interrupted)
          writes := net.writes.tail }) := by
  rcases net with ⟨pending, writes⟩
  cases idle
  cases writes <;> rfl

theorem interruptedAt_nil (writes : List CompletionCode) : interruptedAt writes [] = none := by
  cases writes with
  | nil => rfl
  | cons rc writes => cases rc <;> rfl

/-- A pass ends when a write is pending. -/
theorem retryLoop_pending {now : Nat} {regardless : Bool} {messages : List Messages} {c : Clients}
    (pending : c.net.pendingWrites = true) :
    MQTTProtocol.retryLoop now regardless c messages = c := by
  cases messages with
  | nil => rfl
  | cons m rest => simp [MQTTProtocol.retryLoop, Socket.noPendingWrites, pending]

/-- How far a pass gets with these writes: to the end, or to the message whose PUBLISH is
interrupted. -/
def Reaches (due : Messages → Bool) (writes : List CompletionCode)
    (messages visited : List Messages) : Prop :=
  match interruptedAt writes (messages.filter due) with
  | none => visited = messages
  | some k => visited.filter due = (messages.filter due).take k

namespace Reaches

variable {due : Messages → Bool} {writes : List CompletionCode} {m : Messages}
  {rest visited : List Messages}

theorem nil : Reaches due writes [] [] := by
  unfold Reaches
  rw [List.filter_nil, interruptedAt_nil]

theorem skip (notDue : due m = false) (reaches : Reaches due writes rest visited) :
    Reaches due writes (m :: rest) (m :: visited) := by
  have skipped (messages : List Messages) : (m :: messages).filter due = messages.filter due :=
    List.filter_cons_of_neg (by simp [notDue])
  unfold Reaches at reaches ⊢
  rw [skipped, skipped]
  split at reaches
  next cut => exact congrArg (m :: ·) reaches
  next k cut => exact reaches

theorem step (isDue : due m = true) (complete : writes.head?.getD .complete = .complete)
    (reaches : Reaches due writes.tail rest visited) :
    Reaches due writes (m :: rest) (m :: visited) := by
  have sent (messages : List Messages) : (m :: messages).filter due = m :: messages.filter due :=
    List.filter_cons_of_pos isDue
  have next : interruptedAt writes (m :: rest.filter due) =
      (interruptedAt writes.tail (rest.filter due)).map (· + 1) := by
    cases writes with
    | nil => cases rest.filter due <;> rfl
    | cons rc writes =>
        cases complete
        rfl
  unfold Reaches at reaches ⊢
  rw [sent, sent, next]
  split at reaches
  next cut =>
    rw [cut]
    exact congrArg (m :: ·) reaches
  next k cut =>
    rw [cut]
    change m :: visited.filter due = (m :: rest.filter due).take (k + 1)
    rw [List.take_succ_cons, reaches]

theorem cut (isDue : due m = true) (interrupted : writes.head?.getD .complete = .interrupted)
    (publishes : Exchange.AwaitsPublish m) : Reaches due writes (m :: rest) [m] := by
  cases writes with
  | nil => cases interrupted
  | cons rc writes =>
      cases interrupted
      simp [Reaches, interruptedAt, publishes, isDue]

end Reaches

theorem head_complete {writes : List CompletionCode} (completes : ∀ rc ∈ writes, rc = .complete) :
    writes.head?.getD .complete = .complete := by
  cases writes with
  | nil => rfl
  | cons rc writes => exact completes rc List.mem_cons_self

theorem interruptedAt_complete {writes : List CompletionCode}
    (completes : ∀ rc ∈ writes, rc = .complete) (messages : List Messages) :
    interruptedAt writes messages = none := by
  induction writes generalizing messages with
  | nil => rfl
  | cons rc writes ih =>
      cases messages with
      | nil => exact interruptedAt_nil _
      | cons m rest =>
          rw [completes rc List.mem_cons_self, interruptedAt,
            ih (fun rc mem => completes rc (List.mem_cons_of_mem _ mem))]
          rfl

theorem Reaches.all {due : Messages → Bool} {writes : List CompletionCode}
    {messages visited : List Messages} (completes : ∀ rc ∈ writes, rc = .complete)
    (reaches : Reaches due writes messages visited) : visited = messages := by
  unfold Reaches at reaches
  rw [interruptedAt_complete completes] at reaches
  exact reaches

/-- The pass goes on as long as the connection is good and no write is pending. -/
theorem retryLoop_cons {now : Nat} {regardless : Bool} {m : Messages} {rest : List Messages}
    {c : Clients} (connected : c.connected = true) (good : c.good = true)
    (idle : c.net.pendingWrites = false) :
    MQTTProtocol.retryLoop now regardless c (m :: rest) =
      if isDue now regardless c.retryInterval m then
        match MQTTProtocol.retryMessage (MQTTProtocol.countSent c regardless) m with
        | (true, c) => MQTTProtocol.retryLoop now regardless c rest
        | (false, c) => c
      else MQTTProtocol.retryLoop now regardless c rest := by
  simp only [MQTTProtocol.retryLoop, connected, good, Socket.noPendingWrites, idle,
    Bool.not_false, Bool.and_self, if_true]
  rfl

/-- The loop of `MQTTProtocol_retries`. -/
theorem retryLoop_spec (now : Nat) (regardless : Bool) {messages : List Messages} {c : Clients}
    (awaits : ∀ m ∈ messages, m.Due) (connected : c.connected = true) (good : c.good = true)
    (idle : c.net.pendingWrites = false) :
    let due := isDue now regardless c.retryInterval
    let c' := MQTTProtocol.retryLoop now regardless c messages
    (Closed c' ∧ ¬∀ rc ∈ c.net.writes, rc = .complete) ∨
      ∃ visited, Passes due regardless visited c c' ∧ visited <+: messages ∧
        Reaches due c.net.writes messages visited := by
  induction messages generalizing c with
  | nil =>
      right
      exact ⟨[], .nil connected good, List.prefix_rfl, .nil⟩
  | cons m rest ih =>
      intro due c'
      have restAwaits : ∀ m ∈ rest, m.Due := fun m mem => awaits m (List.mem_cons_of_mem _ mem)
      have unfolded : c' = _ := retryLoop_cons connected good idle
      change c' = if due m then _ else _ at unfolded
      clear_value c'
      cases isDue : due m with
      | false =>
          have timed : regardless = false := by
            cases regardless with
            | false => rfl
            | true => cases isDue
          subst timed
          rw [isDue, if_neg Bool.false_ne_true] at unfolded
          subst unfolded
          rcases ih restAwaits connected good idle with closed
            | ⟨visited, passes, isPrefix, reaches⟩
          · left
            exact closed
          · right
            exact ⟨m :: visited, (Passes.skip connected good isDue).append passes,
              (List.prefix_cons_inj m).mpr isPrefix, reaches.skip isDue⟩
      | true =>
          rw [isDue, if_pos rfl] at unfolded
          have written := retryMessage_spec regardless (awaits m List.mem_cons_self) isDue connected
            good
          rcases result : MQTTProtocol.retryMessage (MQTTProtocol.countSent c regardless) m
            with ⟨going, after⟩
          rw [result, putdatas_idle idle] at written
          rw [result] at unfolded
          rcases written with ⟨rfl, passes, net, written⟩ | ⟨rfl, closed, failed⟩
          · change Passes due regardless [m] c after at passes
            change after.net = _ at net
            change c' = MQTTProtocol.retryLoop now regardless after rest at unfolded
            subst unfolded
            rcases written with complete | ⟨interrupted, publishes⟩
            · change c.net.writes.head?.getD .complete = .complete at complete
              have idleAfter : after.net.pendingWrites = false := by
                rw [net]
                simp [complete]
              have rested := ih restAwaits passes.connected passes.good idleAfter
              rw [passes.retryInterval] at rested
              rcases rested with ⟨closed, fails⟩ | ⟨visited, restPasses, isPrefix, reaches⟩
              · left
                refine ⟨closed, fun completes => fails ?_⟩
                rw [net]
                exact fun rc mem => completes rc (List.mem_of_mem_tail mem)
              · right
                refine ⟨m :: visited, passes.append restPasses,
                  (List.prefix_cons_inj m).mpr isPrefix, ?_⟩
                rw [net] at reaches
                exact reaches.step isDue complete
            · change c.net.writes.head?.getD .complete = .interrupted at interrupted
              have pending : after.net.pendingWrites = true := by
                rw [net]
                simp [interrupted]
              right
              rw [retryLoop_pending pending]
              exact ⟨[m], passes, ⟨rest, rfl⟩, .cut isDue interrupted publishes⟩
          · left
            change c' = after at unfolded
            refine ⟨unfolded ▸ closed, fun completes => ?_⟩
            have complete := head_complete completes
            rcases failed with error | ⟨interrupted, _⟩
            · cases complete.symm.trans error
            · cases complete.symm.trans interrupted

end Passes

end Paho
