import Paho.Protocol.Resend

/-!
# The acknowledgements of a connection

Every PUBLISH of QoS 1 or 2, PUBREC and PUBREL that is handled asks for an acknowledgement, which
is handed to the socket or, while a write is pending, put in `outboundQueue`. A ledger next to the
client keeps, for the present connection, what the packets asked for and what was handed to the
socket. `MQTTProtocol_writeAvailable` empties the queue even when it stopped early, and no function
empties it when a connection is closed.
-/

namespace Paho

namespace Acks

/-- A call into the session code; a connection is made with the version `mqttVersion`. -/
structure Call where
  input : Session.Input
  mqttVersion : Nat
  deriving DecidableEq, Repr

/--
One step of a client. When a continued write fails, `Socket_continueWrites` returns the error and
the session is closed.
-/
def clientStep (c : Clients) (call : Call) : Clients :=
  match call.input.action with
  | .connect _ =>
      Session.step (if c.connected then c else { c with mqttVersion := call.mqttVersion })
        call.input
  | .continueWrite false =>
      if c.net.pendingWrites then MQTTProtocol.closeSession (Session.step c call.input)
      else Session.step c call.input
  | _ => Session.step c call.input

/-- The acknowledgement that an event hands to the socket. -/
def ack? : Event → Option AckRequest
  | .sentAck type msgid _ => some ⟨msgid, type⟩
  | _ => none

/-- The acknowledgements that were handed to the socket, in order. -/
def sentAcks (c : Clients) : List AckRequest :=
  (c.trace.filterMap ack?).reverse

/-- The acknowledgements that are handed to the socket between two states. -/
def newAcks (c c' : Clients) : List AckRequest :=
  (sentAcks c').drop (sentAcks c).length

/-- A PUBREC with an error for a publication that waits for it, which ends the publication. -/
def endsPublication (c : Clients) (msgId rc : Nat) : Bool :=
  match findMessage c.outboundMsgs msgId with
  | none => false
  | some m =>
      decide (m.qos = 2) && decide (m.nextMessageType = some .pubrec) &&
        decide (mqttVersion5 ≤ c.mqttVersion ∧ reasonCodeUnspecifiedError ≤ rc)

/-- The acknowledgement that an action asks for. -/
def asked (c : Clients) : Session.Action → List AckRequest
  | .receive (.publish _ message msgId) =>
      if message.qos = 1 then [⟨msgId, .puback⟩]
      else if message.qos = 2 then [⟨msgId, .pubrec⟩]
      else []
  | .receive (.pubrec msgId rc) => if endsPublication c msgId rc then [] else [⟨msgId, .pubrel⟩]
  | .receive (.pubrel msgId) => [⟨msgId, .pubcomp⟩]
  | _ => []

/-- A client, and the acknowledgements of its present connection. -/
structure Ledger where
  client : Clients
  /-- The version that the connection was made with. -/
  mqttVersion : Nat
  /-- The number of queued acknowledgements that are older than the connection. -/
  leftOver : Nat
  /-- What the packets of the connection asked for. -/
  due : List AckRequest
  /-- What was handed to the socket for them, without the PUBRELs of retry passes. -/
  handed : List AckRequest
  /-- What was handed to the socket although it is older than the connection. -/
  foreign : List AckRequest
  deriving DecidableEq

namespace Ledger

/-- The ledger of a client at the start of a connection, or without one. -/
def start (c : Clients) (mqttVersion : Nat) : Ledger :=
  { client := c
    mqttVersion := mqttVersion
    leftOver := c.outboundQueue.length
    due := []
    handed := []
    foreign := [] }

def step (l : Ledger) (call : Call) : Ledger :=
  let c := clientStep l.client call
  if !c.connected || !l.client.connected then start c call.mqttVersion
  else
    match call.input.action with
    | .retry _ => { l with client := c }
    | .continueWrite _ =>
        if l.client.net.pendingWrites then
          { l with
            client := c
            leftOver := 0
            handed := l.handed ++ (newAcks l.client c).drop l.leftOver
            foreign := l.foreign ++ (newAcks l.client c).take l.leftOver }
        else { l with client := c }
    | action =>
        { l with
          client := c
          due := l.due ++ asked l.client action
          handed := l.handed ++ newAcks l.client c }

end Ledger

/-! ## What the operations do to acknowledgements -/

/-- An operation leaves the queue and the socket as they are, and sends no acknowledgement. -/
structure Untouched (c c' : Clients) : Prop where
  queue : c'.outboundQueue = c.outboundQueue
  mqttVersion : c'.mqttVersion = c.mqttVersion
  connected : c'.connected = c.connected
  net : c'.net = c.net
  acks : sentAcks c' = sentAcks c

namespace Untouched

variable {c c' c'' : Clients}

theorem refl (c : Clients) : Untouched c c :=
  ⟨rfl, rfl, rfl, rfl, rfl⟩

theorem trans (first : Untouched c c') (second : Untouched c' c'') : Untouched c c'' :=
  ⟨second.queue.trans first.queue, second.mqttVersion.trans first.mqttVersion,
    second.connected.trans first.connected, second.net.trans first.net,
    second.acks.trans first.acks⟩

theorem log (c : Clients) {event : Event} (other : ack? event = none) :
    Untouched c (c.log event) :=
  ⟨rfl, rfl, rfl, rfl, congrArg List.reverse (List.filterMap_cons_none other)⟩

theorem putPacket (c : Clients) (record : Record) (type : PacketType)
    (msgId scr mqttVersion : Nat) :
    Untouched c (MQTTPersistence.putPacket c record type msgId scr mqttVersion) := by
  have put : ∀ key, Untouched c (c.putRecord key record) :=
    fun key => ⟨rfl, rfl, rfl, rfl, rfl⟩
  unfold MQTTPersistence.putPacket
  split
  · cases type <;> exact put _
  · exact put _

theorem remove (c : Clients) (stem : Stem) (msgId : Nat) :
    Untouched c (MQTTPersistence.remove c stem msgId) :=
  ⟨rfl, rfl, rfl, rfl, rfl⟩

theorem storeInbound (c : Clients)
    (m : Messages) : Untouched c (MQTTProtocol.storeInbound c m) := by
  unfold MQTTProtocol.storeInbound
  split <;> exact ⟨rfl, rfl, rfl, rfl, rfl⟩

end Untouched

/-- An operation leaves the queue as it is; a pending write ends with the connection only. -/
structure Steady (c c' : Clients) : Prop where
  queue : c'.outboundQueue = c.outboundQueue
  mqttVersion : c'.mqttVersion = c.mqttVersion
  connected : c'.connected = true → c.connected = true
  pending : c'.connected = true → c.net.pendingWrites = true → c'.net.pendingWrites = true

namespace Steady

variable {c c' c'' : Clients}

theorem refl (c : Clients) : Steady c c :=
  ⟨rfl, rfl, id, fun _ => id⟩

theorem trans (first : Steady c c') (second : Steady c' c'') : Steady c c'' where
  queue := second.queue.trans first.queue
  mqttVersion := second.mqttVersion.trans first.mqttVersion
  connected := fun connected => first.connected (second.connected connected)
  pending := fun connected pending =>
    second.pending connected (first.pending (second.connected connected) pending)

theorem of_untouched (untouched : Untouched c c') : Steady c c' where
  queue := untouched.queue
  mqttVersion := untouched.mqttVersion
  connected := fun connected => untouched.connected ▸ connected
  pending := fun _ pending => untouched.net ▸ pending

end Steady

section

variable (c : Clients)

theorem putdatas_pending {net : NetworkHandles} (pending : net.pendingWrites = true) :
    (Socket.putdatas net).2.pendingWrites = true := by
  rw [Socket.putdatas_of_pending pending]
  exact pending

theorem steady_write (event : CompletionCode → Event) :
    Steady c (MQTTPacket.write c event).2 :=
  ⟨rfl, rfl, id, fun _ pending => putdatas_pending pending⟩

theorem steady_send_publish (publish : Publish) (dup : Bool) (qos : Nat) (retained : Bool) :
    Steady c (MQTTPacket.send_publish c publish dup qos retained).2 := by
  unfold MQTTPacket.send_publish
  split
  · exact steady_write c _
  · exact (Steady.of_untouched (.putPacket c _ _ _ _ _)).trans (steady_write _ _)

theorem sentAcks_write {event : CompletionCode → Event} (other : ∀ rc, ack? (event rc) = none) :
    sentAcks (MQTTPacket.write c event).2 = sentAcks c :=
  congrArg List.reverse (List.filterMap_cons_none (other _))

theorem sentAcks_send_publish (publish : Publish) (dup : Bool) (qos : Nat) (retained : Bool) :
    sentAcks (MQTTPacket.send_publish c publish dup qos retained).2 = sentAcks c := by
  unfold MQTTPacket.send_publish
  split
  · exact sentAcks_write c fun _ => rfl
  · exact (sentAcks_write _ fun _ => rfl).trans (Untouched.putPacket c _ _ _ _ _).acks

theorem steady_send_ack (mqttVersion : Nat) (type : PacketType) (msgid : Nat) :
    Steady c (MQTTPacket.send_ack c mqttVersion type msgid).2 := by
  unfold MQTTPacket.send_ack
  split
  · exact (Steady.of_untouched (.putPacket c _ _ _ _ _)).trans (steady_write _ _)
  · exact steady_write c _

theorem sentAcks_send_ack (mqttVersion : Nat) (type : PacketType) (msgid : Nat) :
    sentAcks (MQTTPacket.send_ack c mqttVersion type msgid).2 =
      sentAcks c ++ [⟨msgid, type⟩] := by
  unfold MQTTPacket.send_ack
  split
  · have put := (Untouched.putPacket c (.pubrel msgid) type msgid 0 mqttVersion).acks
    rw [← put]
    simp [MQTTPacket.write, sentAcks, ack?]
  · simp [MQTTPacket.write, sentAcks, ack?]

/-- An acknowledgement goes to the socket, or to the queue while a write is pending. -/
theorem acknowledge_spec (mqttVersion : Nat) (type : PacketType) (msgId : Nat) :
    let c' := (MQTTProtocol.acknowledge c mqttVersion type msgId).2
    c'.mqttVersion = c.mqttVersion ∧
      (if c.net.pendingWrites then
        sentAcks c' = sentAcks c ∧ c'.outboundQueue = c.outboundQueue ++ [⟨msgId, type⟩] ∧
          c'.net.pendingWrites = true
      else
        sentAcks c' = sentAcks c ++ [⟨msgId, type⟩] ∧ c'.outboundQueue = c.outboundQueue) := by
  by_cases pending : c.net.pendingWrites = true
  · have queued : sentAcks (MQTTProtocol.queueAck c type msgId).2 = sentAcks c :=
      congrArg List.reverse (List.filterMap_cons_none rfl)
    simp only [MQTTProtocol.acknowledge, Socket.noPendingWrites, pending, Bool.not_true, if_true]
    exact ⟨rfl, queued, rfl, pending⟩
  · have idle : c.net.pendingWrites = false := by simpa using pending
    have sent := steady_send_ack c mqttVersion type msgId
    simp only [MQTTProtocol.acknowledge, Socket.noPendingWrites, idle, Bool.not_false, if_true]
    exact ⟨sent.mqttVersion, sentAcks_send_ack c mqttVersion type msgId, sent.queue⟩

end

/-! ## Retry passes and publications -/

theorem steady_closeSession (c : Clients) :
    (MQTTProtocol.closeSession c).connected = false ∧
      (MQTTProtocol.closeSession c).outboundQueue = c.outboundQueue ∧
      (MQTTProtocol.closeSession c).mqttVersion = c.mqttVersion := by
  unfold MQTTProtocol.closeSession MQTTAsync.nextOrClose MQTTAsync.closeSession
  split
  · exact ⟨rfl, rfl, rfl⟩
  · simp only
    split <;> exact ⟨rfl, rfl, rfl⟩

theorem Steady.closeSession (c : Clients) : Steady c (MQTTProtocol.closeSession c) := by
  have closed := steady_closeSession c
  refine ⟨closed.2.1, closed.2.2, ?_, ?_⟩
  · intro connected
    rw [closed.1] at connected
    cases connected
  · intro connected
    rw [closed.1] at connected
    cases connected

theorem Steady.closeBroken (c : Clients) :
    Steady c (MQTTProtocol.closeSession { c with good := false }) :=
  Steady.trans ⟨rfl, rfl, id, fun _ => id⟩ (Steady.closeSession _)

theorem Steady.touch (c : Clients) (type : PacketType) (msgid : Nat) :
    Steady c (MQTTProtocol.touch c type msgid) :=
  ⟨rfl, rfl, id, fun _ => id⟩

theorem steady_retryMessage (c : Clients) (m : Messages) :
    Steady c (MQTTProtocol.retryMessage c m).2 := by
  unfold MQTTProtocol.retryMessage
  split
  · have sent := steady_send_publish c (MQTTProtocol.retryPublish m) true m.qos m.retain
    generalize MQTTPacket.send_publish c (MQTTProtocol.retryPublish m) true m.qos m.retain =
      result at sent
    rcases result with ⟨rc, c'⟩
    cases rc with
    | socketError => exact sent.trans (.closeBroken c')
    | complete => exact sent.trans (.touch c' _ _)
    | interrupted => exact sent.trans (.touch c' _ _)
  · split
    · have sent := steady_send_ack c m.mqttVersion .pubrel m.msgid
      generalize MQTTPacket.send_ack c m.mqttVersion .pubrel m.msgid = result at sent
      rcases result with ⟨rc, c'⟩
      cases rc with
      | complete => exact sent.trans (.touch c' _ _)
      | socketError => exact sent.trans (.closeBroken c')
      | interrupted => exact sent.trans (.closeBroken c')
    · exact .refl c

theorem steady_countSent (c : Clients) (regardless : Bool) :
    Steady c (MQTTProtocol.countSent c regardless) := by
  cases regardless with
  | true => exact ⟨rfl, rfl, id, fun _ => id⟩
  | false => exact .refl c

theorem steady_retryLoop (now : Nat) (regardless : Bool) (c : Clients) (messages : List Messages) :
    Steady c (MQTTProtocol.retryLoop now regardless c messages) := by
  induction messages generalizing c with
  | nil => exact .refl c
  | cons m messages ih =>
      rw [MQTTProtocol.retryLoop]
      split
      · split
        · have tried := (steady_countSent c regardless).trans (steady_retryMessage _ m)
          generalize MQTTProtocol.retryMessage (MQTTProtocol.countSent c regardless) m =
            result at tried
          rcases result with ⟨sent, c'⟩
          cases sent with
          | true => exact tried.trans (ih c')
          | false => exact tried
        · exact ih c
      · exact .refl c

theorem steady_retry (now : Nat) (doRetry regardless : Bool) (c : Clients) :
    Steady c (MQTTProtocol.retry now doRetry regardless c) := by
  unfold MQTTProtocol.retry
  split
  · exact .refl c
  split
  · exact .closeSession c
  split
  · exact .refl c
  split
  · unfold MQTTProtocol.retries
    split
    · exact .refl c
    split
    · have counted : Steady c { c with connectCount := c.outboundMsgs.length } :=
        ⟨rfl, rfl, id, fun _ => id⟩
      exact counted.trans (steady_retryLoop now true _ _)
    · exact steady_retryLoop _ _ _ _
  · exact .refl c

theorem startPublish_spec (c : Clients) (publish : Publish) (qos : Nat) (retained : Bool) :
    Steady c (MQTTProtocol.startPublish c publish qos retained).2 ∧
      sentAcks (MQTTProtocol.startPublish c publish qos retained).2 = sentAcks c := by
  unfold MQTTProtocol.startPublish
  split
  · let m := MQTTProtocol.createMessage publish qos retained c.clock
    have started : Untouched c { c with
        outboundMsgs := c.outboundMsgs ++ [m], trace := .started m.msgid qos :: c.trace } :=
      ⟨rfl, rfl, rfl, rfl, congrArg List.reverse (List.filterMap_cons_none rfl)⟩
    exact ⟨(Steady.of_untouched started).trans (steady_send_publish _ _ _ _ _),
      (sentAcks_send_publish _ _ _ _ _).trans started.acks⟩
  · exact ⟨steady_send_publish c _ _ _ _, sentAcks_send_publish c _ _ _ _⟩

/-- A publication sends no acknowledgement. -/
theorem publish_spec (c : Clients) (message : Session.Message) :
    Steady c (Session.publish c message) ∧ sentAcks (Session.publish c message) = sentAcks c := by
  unfold Session.publish MQTTProtocol.assignMsgId
  split
  · exact ⟨.refl c, rfl⟩
  split
  · exact startPublish_spec c _ _ _
  rcases MQTTProtocol.searchMsgId (ids c.outboundMsgs) c.msgID (maxMsgId + 1)
    (MQTTProtocol.nextMsgId c.msgID) with _ | msgId
  · exact ⟨.refl c, rfl⟩
  · by_cases zero : msgId = 0
    · simp [zero, Steady.refl]
    · have assigned : Untouched c { c with msgID := msgId } := ⟨rfl, rfl, rfl, rfl, rfl⟩
      have sent := startPublish_spec { c with msgID := msgId }
      simp only [zero, ne_eq, not_false_iff, if_true, if_false]
      exact ⟨(Steady.of_untouched assigned).trans (sent _ _ _).1,
        (sent _ _ _).2.trans assigned.acks⟩

/-! ## Packets -/

theorem Untouched.persistReceived (c : Clients) (publish : Publish) :
    Untouched c (MQTTPacket.persistReceived c publish) := by
  unfold MQTTPacket.persistReceived
  split
  · exact .putPacket c _ _ _ _ _
  · exact .refl c

theorem Untouched.releaseInbound (c : Clients) (m : Messages) (msgId : Nat) :
    Untouched c (MQTTProtocol.releaseInbound c m msgId) := by
  unfold MQTTProtocol.releaseInbound
  split
  · exact ⟨rfl, rfl, rfl, rfl, rfl⟩
  · exact (Untouched.log c rfl).trans ⟨rfl, rfl, rfl, rfl, rfl⟩

/-- The acknowledgement of a packet, after changes that do not matter to it. -/
def Acknowledges (c c' : Clients) (ackReq : AckRequest) : Prop :=
  ∃ c₁, Untouched c c₁ ∧
    c' = (MQTTProtocol.acknowledge c₁ c.mqttVersion ackReq.ackType ackReq.messageId).2

theorem handlePublishes_spec (c : Clients) (dup : Bool) (message : Session.Message) (msgId : Nat) :
    match asked c (.receive (.publish dup message msgId)) with
    | [] => Untouched c (Session.receive c (.publish dup message msgId))
    | ackReq :: _ => Acknowledges c (Session.receive c (.publish dup message msgId)) ackReq := by
  rcases message with ⟨topic, payload, qos, retained, properties⟩
  let publish := Session.publishPacket c.mqttVersion
    ⟨topic, payload, qos, retained, properties⟩ dup msgId
  have received := (Untouched.persistReceived c publish).trans
    (@Untouched.log (MQTTPacket.persistReceived c publish) (.receivedPublish publish) rfl)
  rcases qos with _ | _ | _ | qos
  · exact received.trans (.log _ rfl)
  · exact ⟨_, received.trans (.log _ rfl), rfl⟩
  · let m := MQTTProtocol.receivedMessage publish
    let c₁ := (MQTTPacket.persistReceived c publish).log (.receivedPublish publish)
    have stored : Untouched c₁
        (if mqttVersion5 ≤ m.mqttVersion ∧ (findMessage c₁.inboundMsgs m.msgid).isSome = false then
          MQTTProtocol.processPublication (MQTTProtocol.storeInbound c₁ { m with publish := none })
            (MQTTProtocol.publicationOf m)
        else MQTTProtocol.storeInbound c₁ m) := by
      split
      · exact (Untouched.storeInbound _ _).trans (.log _ rfl)
      · exact .storeInbound _ _
    exact ⟨_, received.trans stored, rfl⟩
  · exact received

theorem handlePubrecs_spec (c : Clients) (msgId rc : Nat) :
    match asked c (.receive (.pubrec msgId rc)) with
    | [] => Untouched c (Session.receive c (.pubrec msgId rc))
    | ackReq :: _ => Acknowledges c (Session.receive c (.pubrec msgId rc)) ackReq := by
  have received : Untouched c (c.log (.received .pubrec msgId)) := .log c rfl
  rcases found : findMessage c.outboundMsgs msgId with _ | m
  · have isAsked : asked c (.receive (.pubrec msgId rc)) = [⟨msgId, .pubrel⟩] := by
      simp [asked, endsPublication, found]
    rw [isAsked]
    refine ⟨_, received, ?_⟩
    simp only [Session.receive, MQTTProtocol.handlePubrecs, Clients.log, found]
  · by_cases waits : m.qos = 2 ∧ m.nextMessageType = some .pubrec
    · by_cases error : mqttVersion5 ≤ c.mqttVersion ∧ reasonCodeUnspecifiedError ≤ rc
      · have isAsked : asked c (.receive (.pubrec msgId rc)) = [] := by
          simp [asked, endsPublication, found, waits, error]
        rw [isAsked]
        simp only [Session.receive, MQTTProtocol.handlePubrecs, Clients.log, found, waits, error]
        exact received.trans ⟨rfl, rfl, rfl, rfl, rfl⟩
      · have isAsked : asked c (.receive (.pubrec msgId rc)) = [⟨msgId, .pubrel⟩] := by
          simp [asked, endsPublication, found, error]
        rw [isAsked]
        let acknowledged := { c.log (.received .pubrec msgId) with
          outboundMsgs := updateMessage c.outboundMsgs msgId fun m =>
            { m with nextMessageType := some .pubcomp, lastTouch := c.clock } }
        have changed : Untouched c acknowledged := received.trans ⟨rfl, rfl, rfl, rfl, rfl⟩
        refine ⟨acknowledged, changed, ?_⟩
        simp [Session.receive, MQTTProtocol.handlePubrecs, Clients.log, found, waits, error,
          acknowledged]
    · have notEnding : endsPublication c msgId rc = false := by
        by_cases qos : m.qos = 2
        · have next : m.nextMessageType ≠ some .pubrec := fun next => waits ⟨qos, next⟩
          simp [endsPublication, found, next]
        · simp [endsPublication, found, qos]
      have isAsked : asked c (.receive (.pubrec msgId rc)) = [⟨msgId, .pubrel⟩] := by
        simp [asked, notEnding]
      rw [isAsked]
      refine ⟨_, received, ?_⟩
      by_cases qos : m.qos = 2
      · have next : m.nextMessageType ≠ some .pubrec := fun next => waits ⟨qos, next⟩
        simp [Session.receive, MQTTProtocol.handlePubrecs, Clients.log, found, qos, next]
      · simp [Session.receive, MQTTProtocol.handlePubrecs, Clients.log, found, qos]

theorem handlePubrels_spec (c : Clients) (msgId : Nat) :
    Acknowledges c (Session.receive c (.pubrel msgId)) ⟨msgId, .pubcomp⟩ := by
  have received : Untouched c (c.log (.received .pubrel msgId)) := .log c rfl
  simp only [Session.receive, MQTTProtocol.handlePubrels]
  rcases findMessage (c.log (.received .pubrel msgId)).inboundMsgs msgId with _ | m
  · exact ⟨_, received, rfl⟩
  · simp only
    split
    · exact ⟨_, received, rfl⟩
    split
    · exact ⟨_, received, rfl⟩
    · have released := received.trans (.releaseInbound _ m msgId)
      exact ⟨_, released, rfl⟩

theorem handlePubacks_spec (c : Clients) (msgId : Nat) :
    Untouched c (Session.receive c (.puback msgId)) := by
  have received : Untouched c (c.log (.received .puback msgId)) := .log c rfl
  simp only [Session.receive, MQTTProtocol.handlePubacks]
  rcases findMessage (c.log (.received .puback msgId)).outboundMsgs msgId with _ | m
  · exact received
  · simp only
    split
    · exact received
    · exact received.trans ⟨rfl, rfl, rfl, rfl, rfl⟩

theorem handlePubcomps_spec (c : Clients) (msgId : Nat) :
    Untouched c (Session.receive c (.pubcomp msgId)) := by
  have received : Untouched c (c.log (.received .pubcomp msgId)) := .log c rfl
  simp only [Session.receive, MQTTProtocol.handlePubcomps]
  rcases findMessage (c.log (.received .pubcomp msgId)).outboundMsgs msgId with _ | m
  · exact received
  · simp only
    split
    · exact received
    split
    · exact received
    · exact received.trans ⟨rfl, rfl, rfl, rfl, rfl⟩

/-- A packet asks for no acknowledgement, or is answered with the one it asks for. -/
theorem receive_spec (c : Clients) (packet : Session.Packet) :
    (asked c (.receive packet) = [] ∧ Untouched c (Session.receive c packet)) ∨
      ∃ ackReq, asked c (.receive packet) = [ackReq] ∧
        Acknowledges c (Session.receive c packet) ackReq := by
  have single : ∀ packet, asked c (.receive packet) = [] ∨
      ∃ ackReq, asked c (.receive packet) = [ackReq] := by
    intro packet
    cases packet with
    | publish dup message msgId =>
        simp only [asked]
        split_ifs <;> simp
    | pubrec msgId rc =>
        simp only [asked]
        split_ifs <;> simp
    | pubrel msgId => exact Or.inr ⟨_, rfl⟩
    | _ => exact Or.inl rfl
  rcases single packet with nothing | ⟨ackReq, isAsked⟩
  · left
    refine ⟨nothing, ?_⟩
    cases packet with
    | publish dup message msgId => simpa [nothing] using handlePublishes_spec c dup message msgId
    | puback msgId => exact handlePubacks_spec c msgId
    | pubrec msgId rc => simpa [nothing] using handlePubrecs_spec c msgId rc
    | pubrel msgId => cases nothing
    | pubcomp msgId => exact handlePubcomps_spec c msgId
  · right
    refine ⟨ackReq, isAsked, ?_⟩
    cases packet with
    | publish dup message msgId => simpa [isAsked] using handlePublishes_spec c dup message msgId
    | puback msgId => cases isAsked
    | pubrec msgId rc => simpa [isAsked] using handlePubrecs_spec c msgId rc
    | pubrel msgId =>
        cases isAsked
        exact handlePubrels_spec c msgId
    | pubcomp msgId => cases isAsked

/-! ## The queue -/

/-- How many of `count` acknowledgements are handed to a socket with these results. -/
def writtenCount : List CompletionCode → Nat → Nat
  | _, 0 => 0
  | [], count => count
  | rc :: writes, count + 1 => if rc = .complete then writtenCount writes count + 1 else 1

theorem writtenCount_pos (writes : List CompletionCode) {count : Nat} (positive : 0 < count) :
    0 < writtenCount writes count := by
  rcases count with _ | count
  · cases positive
  · rcases writes with _ | ⟨rc, writes⟩
    · exact positive
    · simp only [writtenCount]
      split <;> omega

/-- All are handed over when every write but the last completes. -/
theorem le_writtenCount_iff (writes : List CompletionCode) (count : Nat) :
    count ≤ writtenCount writes count ↔ ∀ rc ∈ writes.take (count - 1), rc = .complete := by
  induction writes generalizing count with
  | nil => cases count <;> simp [writtenCount]
  | cons rc writes ih =>
      rcases count with _ | _ | count
      · simp [writtenCount]
      · simp only [writtenCount]
        split <;> simp
      · have rest := ih (count + 1)
        by_cases complete : rc = .complete
        · simpa [writtenCount, complete] using rest
        · simp [writtenCount, complete]

@[simp]
theorem writtenCount_nil (count : Nat) : writtenCount [] count = count := by
  cases count <;> rfl

theorem send_ack_net (c : Clients) (mqttVersion : Nat) (type : PacketType) (msgid : Nat) :
    (MQTTPacket.send_ack c mqttVersion type msgid).1 = (Socket.putdatas c.net).1 ∧
      (MQTTPacket.send_ack c mqttVersion type msgid).2.net = (Socket.putdatas c.net).2 := by
  unfold MQTTPacket.send_ack
  split
  · have net := (Untouched.putPacket c (.pubrel msgid) type msgid 0 mqttVersion).net
    simp [MQTTPacket.write, net]
  · exact ⟨rfl, rfl⟩

theorem connected_send_ack (c : Clients) (mqttVersion : Nat) (type : PacketType) (msgid : Nat) :
    (MQTTPacket.send_ack c mqttVersion type msgid).2.connected = c.connected := by
  unfold MQTTPacket.send_ack
  split
  · exact (Untouched.putPacket c (.pubrel msgid) type msgid 0 mqttVersion).connected
  · rfl

/-- The loop of `MQTTProtocol_writeAvailable` hands over the front of the queue. -/
theorem sendQueuedAcks_spec (c : Clients) (idle : c.net.pendingWrites = false)
    (queue : List AckRequest) :
    let c' := MQTTProtocol.sendQueuedAcks c queue
    c'.connected = c.connected ∧ c'.mqttVersion = c.mqttVersion ∧
      sentAcks c' = sentAcks c ++ queue.take (writtenCount c.net.writes queue.length) := by
  induction queue generalizing c with
  | nil => simp [MQTTProtocol.sendQueuedAcks, writtenCount]
  | cons ackReq queue ih =>
      have net := send_ack_net c c.mqttVersion ackReq.ackType ackReq.messageId
      have sent := sentAcks_send_ack c c.mqttVersion ackReq.ackType ackReq.messageId
      have version := (steady_send_ack c c.mqttVersion ackReq.ackType ackReq.messageId).mqttVersion
      have connected := connected_send_ack c c.mqttVersion ackReq.ackType ackReq.messageId
      simp only [MQTTProtocol.sendQueuedAcks]
      generalize MQTTPacket.send_ack c c.mqttVersion ackReq.ackType ackReq.messageId = result
        at net sent version connected
      rcases result with ⟨rc, c'⟩
      simp only at net sent version connected
      rcases supplied : c.net.writes with _ | ⟨first, writes⟩
      · have written : Socket.putdatas c.net = (.complete, c.net) := by
          simp [Socket.putdatas, idle, supplied]
        rw [written] at net
        rcases net with ⟨rfl, net⟩
        have rest := ih c' (by rw [net]; exact idle)
        rw [net, supplied] at rest
        simp only [rest, connected, version, sent, writtenCount_nil, true_and]
        simp
      · have written : Socket.putdatas c.net =
          (first, ⟨decide (first = .interrupted), writes⟩) := by
          simp [Socket.putdatas, idle, supplied]
        rw [written] at net
        rcases net with ⟨rfl, net⟩
        cases rc with
        | complete =>
            have rest := ih c' (by rw [net]; rfl)
            rw [net] at rest
            simp only [rest, connected, version, sent, true_and]
            simp [writtenCount]
        | interrupted => simp [connected, version, sent, writtenCount]
        | socketError => simp [connected, version, sent, writtenCount]

theorem writeAvailable_spec (c : Clients) (idle : c.net.pendingWrites = false) :
    let c' := MQTTProtocol.writeAvailable c
    c'.connected = c.connected ∧ c'.mqttVersion = c.mqttVersion ∧ c'.outboundQueue = [] ∧
      sentAcks c' = sentAcks c ++
        c.outboundQueue.take (writtenCount c.net.writes c.outboundQueue.length) := by
  rcases sendQueuedAcks_spec c idle c.outboundQueue with ⟨connected, version, sent⟩
  exact ⟨connected, version, rfl, sent⟩

/-! ## One step of a ledger -/

namespace Ledger

/-- The pending write of a connection is finished, and the queue is flushed. -/
def Flushes (l : Ledger) (call : Call) : Prop :=
  l.client.connected = true ∧ l.client.net.pendingWrites = true ∧
    call.input.action = .continueWrite true

/-- The kinds of steps of a ledger. -/
inductive Change (l : Ledger) (call : Call) : Ledger → Prop where
  /-- There is no connection, or a new one. -/
  | started (c : Clients) (mqttVersion : Nat) (other : ¬Flushes l call)
      (version : c.connected = true → c.mqttVersion = mqttVersion) :
      Change l call (start c mqttVersion)
  /-- No acknowledgement is asked for or sent, but for those of retry passes. -/
  | steady (c : Clients) (other : ¬Flushes l call) (connected : l.client.connected = true)
      (steady : Steady l.client c) : Change l call { l with client := c }
  /-- An acknowledgement goes to the socket. -/
  | direct (c : Clients) (ackReq : AckRequest) (other : ¬Flushes l call)
      (connected : l.client.connected = true) (idle : l.client.net.pendingWrites = false)
      (queue : c.outboundQueue = l.client.outboundQueue)
      (version : c.mqttVersion = l.client.mqttVersion) :
      Change l call { l with
        client := c, due := l.due ++ [ackReq], handed := l.handed ++ [ackReq] }
  /-- An acknowledgement is put in the queue. -/
  | queued (c : Clients) (ackReq : AckRequest) (other : ¬Flushes l call)
      (connected : l.client.connected = true) (pending : c.net.pendingWrites = true)
      (queue : c.outboundQueue = l.client.outboundQueue ++ [ackReq])
      (version : c.mqttVersion = l.client.mqttVersion) :
      Change l call { l with client := c, due := l.due ++ [ackReq] }
  /-- The queue is emptied after a pending write. -/
  | flushed (c : Clients) (sent : List AckRequest) (flushes : Flushes l call)
      (queue : c.outboundQueue = []) (version : c.mqttVersion = l.client.mqttVersion)
      (written : sent = l.client.outboundQueue.take
        (writtenCount call.input.writes l.client.outboundQueue.length)) :
      Change l call { l with
        client := c
        leftOver := 0
        handed := l.handed ++ sent.drop l.leftOver
        foreign := l.foreign ++ sent.take l.leftOver }

theorem newAcks_eq {c c' : Clients} {acks : List AckRequest}
    (sent : sentAcks c' = sentAcks c ++ acks) : newAcks c c' = acks := by
  simp [newAcks, sent]

theorem not_flushes {l : Ledger} {call : Call}
    (other : call.input.action ≠ .continueWrite true) : ¬Flushes l call :=
  fun flushes => other flushes.2.2

theorem step_started {l : Ledger} {call : Call} (other : ¬Flushes l call)
    (version : (clientStep l.client call).connected = true →
      (clientStep l.client call).mqttVersion = call.mqttVersion)
    (ends : ((clientStep l.client call).connected && l.client.connected) = false) :
    Change l call (step l call) := by
  have fresh : step l call = start (clientStep l.client call) call.mqttVersion := by
    simp [step, ← Bool.not_and, ends]
  rw [fresh]
  exact .started _ _ other version

theorem untouched_provide (c : Clients) (input : Session.Input) :
    sentAcks (Session.provide c input) = sentAcks c ∧ Steady c (Session.provide c input) :=
  ⟨rfl, rfl, rfl, id, fun _ => id⟩

/-- No step but that of a connection connects a client. -/
theorem clientStep_connected {c : Clients} {call : Call} (closed : c.connected = false)
    (connected : (clientStep c call).connected = true) :
    ∃ sessionPresent, call.input.action = .connect sessionPresent := by
  rcases call with ⟨⟨action, now, writes, moreToTry⟩, mqttVersion⟩
  cases action with
  | connect sessionPresent => exact ⟨sessionPresent, rfl⟩
  | publish message =>
      simp [clientStep, Session.step, Session.act, Session.provide, closed] at connected
  | receive packet =>
      simp [clientStep, Session.step, Session.act, Session.provide, closed] at connected
  | retry doRetry =>
      simp [clientStep, Session.step, Session.act, Session.provide, closed, MQTTProtocol.retry]
        at connected
  | connectionLost =>
      simp [clientStep, Session.step, Session.act, Session.provide, closed] at connected
  | restart keys =>
      have stays : (clientStep c ⟨⟨.restart keys, now, writes, moreToTry⟩, mqttVersion⟩).connected =
          false := (Session.restart_closed _ keys).1
      rw [stays] at connected
      cases connected
  | continueWrite succeeded =>
      by_cases pending : c.net.pendingWrites = true
      · cases succeeded with
        | true =>
            have flushed := writeAvailable_spec { Session.provide c
              ⟨.continueWrite true, now, writes, moreToTry⟩ with
              net := ⟨false, writes⟩ } rfl
            have stays := flushed.1.trans closed
            simp only [clientStep, Session.step, Session.act, Session.provide, pending, if_true]
              at connected
            simp only [Session.provide] at stays
            rw [stays] at connected
            cases connected
        | false =>
            simp [clientStep, pending, (steady_closeSession _).1] at connected
      · cases succeeded <;>
          simp [clientStep, Session.step, Session.act, Session.provide, pending, closed]
            at connected

theorem completeConnection_mqttVersion (c : Clients) (sessionPresent : Bool) :
    (MQTTAsync.completeConnection c sessionPresent).mqttVersion = c.mqttVersion := by
  have retried : ∀ c : Clients,
      (MQTTProtocol.retry 0 true true c).mqttVersion = c.mqttVersion :=
    fun c => (steady_retry 0 true true c).mqttVersion
  unfold MQTTAsync.completeConnection
  simp only
  split_ifs <;> first | exact (retried _).trans rfl | rfl

theorem clientStep_connect {c : Clients} {call : Call} {sessionPresent : Bool}
    (closed : c.connected = false) (action : call.input.action = .connect sessionPresent) :
    (clientStep c call).mqttVersion = call.mqttVersion := by
  rcases call with ⟨⟨_, now, writes, moreToTry⟩, mqttVersion⟩
  subst action
  simp [clientStep, Session.step, Session.act, Session.provide, closed,
    completeConnection_mqttVersion]

section

variable {l : Ledger} {call : Call}

/-- A step that is neither a retry pass nor the end of a write. -/
theorem step_answers (connected : l.client.connected = true)
    (stays : (clientStep l.client call).connected = true)
    (notRetry : ∀ doRetry, call.input.action ≠ .retry doRetry)
    (notWrite : ∀ succeeded, call.input.action ≠ .continueWrite succeeded) :
    step l call = { l with
      client := clientStep l.client call
      due := l.due ++ asked l.client call.input.action
      handed := l.handed ++ newAcks l.client (clientStep l.client call) } := by
  rcases call with ⟨⟨action, now, writes, moreToTry⟩, mqttVersion⟩
  cases action with
  | retry doRetry => exact absurd rfl (notRetry doRetry)
  | continueWrite succeeded => exact absurd rfl (notWrite succeeded)
  | _ => simp [step, stays, connected]

/-- A step that asks for no acknowledgement and sends none. -/
theorem change_steady (connected : l.client.connected = true)
    (stays : (clientStep l.client call).connected = true)
    (notRetry : ∀ doRetry, call.input.action ≠ .retry doRetry)
    (notWrite : ∀ succeeded, call.input.action ≠ .continueWrite succeeded)
    (nothing : asked l.client call.input.action = [])
    (steady : Steady l.client (clientStep l.client call))
    (acks : sentAcks (clientStep l.client call) = sentAcks l.client) :
    Change l call (step l call) := by
  have noAcks : newAcks l.client (clientStep l.client call) = [] :=
    newAcks_eq (acks.trans (List.append_nil _).symm)
  rw [step_answers connected stays notRetry notWrite, nothing, noAcks, List.append_nil,
    List.append_nil]
  exact .steady _ (not_flushes (notWrite true)) connected steady

theorem change_receive {packet : Session.Packet} (connected : l.client.connected = true)
    (stays : (clientStep l.client call).connected = true)
    (action : call.input.action = .receive packet) : Change l call (step l call) := by
  have notRetry : ∀ doRetry, call.input.action ≠ .retry doRetry := by simp [action]
  have notWrite : ∀ succeeded, call.input.action ≠ .continueWrite succeeded := by simp [action]
  have other : ¬Flushes l call := not_flushes (notWrite true)
  have received : clientStep l.client call =
      Session.receive (Session.provide l.client call.input) packet := by
    simp [clientStep, action, Session.step, Session.act, Session.provide, connected]
  rcases receive_spec (Session.provide l.client call.input) packet with
    ⟨nothing, untouched⟩ | ⟨ackReq, isAsked, c₁, untouched, acknowledged⟩
  · rw [← received] at untouched
    exact change_steady connected stays notRetry notWrite (action ▸ nothing)
      ((untouched_provide l.client call.input).2.trans (.of_untouched untouched)) untouched.acks
  · have asks : asked l.client call.input.action = [ackReq] := action ▸ isAsked
    have acks : sentAcks c₁ = sentAcks l.client := untouched.acks
    have queue : c₁.outboundQueue = l.client.outboundQueue := untouched.queue
    have pends : c₁.net.pendingWrites = l.client.net.pendingWrites := by
      rw [untouched.net]
      rfl
    have spec := acknowledge_spec c₁ (Session.provide l.client call.input).mqttVersion
      ackReq.ackType ackReq.messageId
    rw [← acknowledged, ← received, acks, queue, pends] at spec
    rw [step_answers connected stays notRetry notWrite, asks]
    rcases spec with ⟨version, spec⟩
    have version := version.trans untouched.mqttVersion
    by_cases pending : l.client.net.pendingWrites = true
    · rw [if_pos pending] at spec
      rcases spec with ⟨same, queued, stillPending⟩
      rw [newAcks_eq (same.trans (List.append_nil _).symm), List.append_nil]
      exact .queued _ ackReq other connected stillPending queued version
    · rw [if_neg pending] at spec
      rcases spec with ⟨sent, queue⟩
      rw [newAcks_eq sent]
      exact .direct _ ackReq other connected (by simpa using pending) queue version

theorem change_flushed (connected : l.client.connected = true)
    (pending : l.client.net.pendingWrites = true)
    (action : call.input.action = .continueWrite true) : Change l call (step l call) := by
  let c := { Session.provide l.client call.input with net := ⟨false, call.input.writes⟩ }
  have flushes : clientStep l.client call = MQTTProtocol.writeAvailable c := by
    simp [clientStep, action, Session.step, Session.act, Session.provide, pending, c]
  rcases writeAvailable_spec c rfl with ⟨stays, version, queue, sent⟩
  rw [← flushes] at stays version queue sent
  have acks := newAcks_eq (c := l.client) sent
  have stepped : step l call = { l with
      client := clientStep l.client call
      leftOver := 0
      handed := l.handed ++ (newAcks l.client (clientStep l.client call)).drop l.leftOver
      foreign := l.foreign ++ (newAcks l.client (clientStep l.client call)).take l.leftOver } := by
    simp [step, action, stays.trans connected, connected, pending]
  rw [stepped, acks]
  exact .flushed _ _ ⟨connected, pending, action⟩ queue version rfl

end

theorem step_change (l : Ledger) (call : Call) : Change l call (step l call) := by
  by_cases connected : l.client.connected = true
  · by_cases flushes : Flushes l call
    · exact change_flushed connected flushes.2.1 flushes.2.2
    by_cases stays : (clientStep l.client call).connected = true
    · rcases action : call.input.action with message | packet | doRetry | succeeded | _ |
        sessionPresent | keys
      · have published := publish_spec (Session.provide l.client call.input) message
        have isPublish : clientStep l.client call =
            Session.publish (Session.provide l.client call.input) message := by
          simp [clientStep, action, Session.step, Session.act, Session.provide, connected]
        rw [← isPublish] at published
        exact change_steady connected stays (by simp [action]) (by simp [action])
          (by rw [action]; rfl) ((untouched_provide _ _).2.trans published.1) published.2
      · exact change_receive connected stays action
      · have retried : clientStep l.client call = MQTTProtocol.retry call.input.now doRetry false
            (Session.provide l.client call.input) := by
          simp [clientStep, action, Session.step, Session.act, Session.provide]
        have steady := (untouched_provide l.client call.input).2.trans
          (steady_retry call.input.now doRetry false (Session.provide l.client call.input))
        have stepped : step l call = { l with client := clientStep l.client call } := by
          simp [step, action, stays, connected]
        rw [stepped, retried]
        exact .steady _ flushes connected steady
      · have idle : l.client.net.pendingWrites ≠ true := by
          intro pending
          cases succeeded with
          | true => exact flushes ⟨connected, pending, action⟩
          | false =>
              simp [clientStep, action, pending, (steady_closeSession _).1] at stays
        have waited : clientStep l.client call = Session.provide l.client call.input := by
          cases succeeded <;>
            simp [clientStep, action, Session.step, Session.act, Session.provide, idle]
        have stepped : step l call = { l with client := clientStep l.client call } := by
          simp [step, action, stays, connected, idle]
        rw [stepped, waited]
        exact .steady _ flushes connected (untouched_provide _ _).2
      · have lost : clientStep l.client call =
            MQTTProtocol.closeSession (Session.provide l.client call.input) := by
          simp [clientStep, action, Session.step, Session.act, Session.provide, connected]
        rw [lost, (steady_closeSession _).1] at stays
        cases stays
      · have unchanged : clientStep l.client call = Session.provide l.client call.input := by
          simp [clientStep, action, Session.step, Session.act, Session.provide, connected]
        apply change_steady connected stays (by simp [action]) (by simp [action])
          (by rw [action]; rfl)
        · rw [unchanged]
          exact (untouched_provide _ _).2
        · rw [unchanged]
          exact (untouched_provide _ _).1
      · have restarted : clientStep l.client call =
            Session.restart (Session.provide l.client call.input) keys := by
          simp [clientStep, action, Session.step, Session.act]
        rw [restarted, (Session.restart_closed _ keys).1] at stays
        cases stays
    · apply step_started flushes (fun connects => absurd connects stays)
      simp [stays]
  · have closed : l.client.connected = false := by simpa using connected
    apply step_started (fun flushes => connected flushes.1)
    · intro connects
      rcases clientStep_connected closed connects with ⟨sessionPresent, action⟩
      exact clientStep_connect closed action
    · rw [closed, Bool.and_false]

/-! ## Runs -/

/-- What holds of the acknowledgements of every connection. -/
structure Kept (l : Ledger) : Prop where
  mqttVersion : l.client.connected = true → l.client.mqttVersion = l.mqttVersion
  leftOver : l.leftOver ≤ l.client.outboundQueue.length
  idle : l.client.connected = true → l.client.net.pendingWrites = false →
    l.client.outboundQueue.length ≤ l.leftOver
  due : (l.handed ++ l.client.outboundQueue.drop l.leftOver).Sublist l.due

theorem start_kept (c : Clients) {mqttVersion : Nat}
    (version : c.connected = true → c.mqttVersion = mqttVersion) : Kept (start c mqttVersion) where
  mqttVersion := version
  leftOver := Nat.le_refl _
  idle := fun _ _ => Nat.le_refl _
  due := by simp [start]

theorem Change.kept {l l' : Ledger} {call : Call} (change : Change l call l') (kept : Kept l) :
    Kept l' := by
  cases change with
  | started c mqttVersion other version => exact start_kept c version
  | steady c other connected steady =>
      refine ⟨fun _ => ?_, ?_, fun connects idle => ?_, ?_⟩
      · exact steady.mqttVersion.trans (kept.mqttVersion connected)
      · rw [steady.queue]
        exact kept.leftOver
      · rw [steady.queue]
        apply kept.idle connected
        by_contra pending
        have stillPending := steady.pending connects (by simpa using pending)
        rw [idle] at stillPending
        cases stillPending
      · rw [steady.queue]
        exact kept.due
  | direct c ackReq other connected idle queue version =>
      have empty : l.client.outboundQueue.drop l.leftOver = [] :=
        List.drop_eq_nil_of_le (kept.idle connected idle)
      have due := kept.due
      refine ⟨fun _ => version.trans (kept.mqttVersion connected), ?_, fun _ _ => ?_, ?_⟩
      · rw [queue]
        exact kept.leftOver
      · rw [queue]
        exact kept.idle connected idle
      · rw [empty, List.append_nil] at due
        simp only [queue, empty, List.append_nil]
        exact due.append_right _
  | queued c ackReq other connected pending queue version =>
      refine ⟨fun _ => version.trans (kept.mqttVersion connected), ?_, fun _ idle => ?_, ?_⟩
      · rw [queue, List.length_append]
        exact Nat.le_add_right_of_le kept.leftOver
      · rw [pending] at idle
        cases idle
      · rw [queue, List.drop_append_of_le_length kept.leftOver, ← List.append_assoc]
        exact kept.due.append_right _
  | flushed c sent flushes queue version written =>
      refine ⟨fun _ => version.trans (kept.mqttVersion flushes.1), ?_, fun _ _ => ?_, ?_⟩
      · simp
      · simp [queue]
      · have front : (sent.drop l.leftOver).Sublist (l.client.outboundQueue.drop l.leftOver) := by
          rw [written]
          exact (List.take_sublist _ _).drop _
        simp only [queue, List.drop_nil, List.append_nil]
        exact (front.append_left _).trans kept.due

theorem step_kept (l : Ledger) (call : Call) (kept : Kept l) : Kept (step l call) :=
  (step_change l call).kept kept

/-- What was asked for was handed to the socket in order, or is still in the queue. -/
def Balanced (l : Ledger) : Prop :=
  l.handed ++ l.client.outboundQueue.drop l.leftOver = l.due

instance (l : Ledger) : Decidable (Balanced l) :=
  inferInstanceAs (Decidable (_ = _))

/-- A flush that finds acknowledgements of the connection completes every write but the last. -/
def FlushCompletes (l : Ledger) (call : Call) : Prop :=
  Flushes l call → l.leftOver < l.client.outboundQueue.length →
    ∀ rc ∈ call.input.writes.take (l.client.outboundQueue.length - 1), rc = .complete

theorem drop_take_eq_iff {α : Type} (queue : List α) {count leftOver : Nat}
    (bound : leftOver ≤ queue.length) :
    (queue.take count).drop leftOver = queue.drop leftOver ↔
      (leftOver < queue.length → queue.length ≤ count) := by
  constructor
  · intro same fresh
    have lengths := congrArg List.length same
    simp only [List.length_drop, List.length_take] at lengths
    omega
  · intro all
    rcases Nat.lt_or_ge leftOver queue.length with fresh | old
    · rw [List.take_of_length_le (all fresh)]
    · have front : (queue.take count).length ≤ leftOver := by
        rw [List.length_take]
        omega
      rw [List.drop_eq_nil_of_le old, List.drop_eq_nil_of_le front]

/-- A step loses an acknowledgement only by a flush that stops early. -/
theorem balanced_step_iff {l : Ledger} {call : Call} (kept : Kept l) (balanced : Balanced l) :
    Balanced (step l call) ↔ FlushCompletes l call := by
  have unflushed : ∀ other : ¬Flushes l call, FlushCompletes l call :=
    fun other flushes => absurd flushes other
  have change := step_change l call
  generalize step l call = l' at change
  cases change with
  | started c mqttVersion other version =>
      refine iff_of_true ?_ (unflushed other)
      simp [Balanced, start]
  | steady c other connected steady =>
      refine iff_of_true ?_ (unflushed other)
      rw [Balanced, steady.queue]
      exact balanced
  | direct c ackReq other connected idle queue version =>
      refine iff_of_true ?_ (unflushed other)
      have empty : l.client.outboundQueue.drop l.leftOver = [] :=
        List.drop_eq_nil_of_le (kept.idle connected idle)
      rw [Balanced, empty, List.append_nil] at balanced
      simp [Balanced, queue, empty, balanced]
  | queued c ackReq other connected pending queue version =>
      refine iff_of_true ?_ (unflushed other)
      rw [Balanced, queue, List.drop_append_of_le_length kept.leftOver, ← List.append_assoc,
        show l.handed ++ l.client.outboundQueue.drop l.leftOver = l.due from balanced]
  | flushed c sent flushes queue version written =>
      have front := @drop_take_eq_iff _ l.client.outboundQueue
        (writtenCount call.input.writes l.client.outboundQueue.length) _ kept.leftOver
      rw [Balanced] at balanced
      simp only [Balanced, queue, written, List.drop_nil, List.append_nil, ← balanced,
        List.append_cancel_left_eq, front, le_writtenCount_iff]
      exact ⟨fun all _ => all, fun all => all flushes⟩

/-- The acknowledgements of every connection of a run are all handed over or in the queue exactly
when no flush stops early. -/
theorem balanced_run_iff (c : Clients) (calls : List Call) :
    (∀ front back : List Call, calls = front ++ back →
        Balanced (Machine.run step (start c c.mqttVersion) front)) ↔
      Machine.Guarded step FlushCompletes (start c c.mqttVersion) calls := by
  apply Machine.always_iff_guarded step_kept
  · intro l call kept balanced
    exact balanced_step_iff kept balanced
  · exact start_kept c fun _ => rfl
  · simp [Balanced, start]

/-- The call of an application that publishes, while the socket takes only a part. -/
def blockedPublish : Call :=
  ⟨{ action := .publish ⟨[116], [1], 0, false, []⟩, writes := [.interrupted] }, mqttVersion311⟩

/-- A QoS 1 PUBLISH of the server. -/
def arrival (msgId : Nat) : Call :=
  ⟨{ action := .receive (.publish false ⟨[116], [2], 1, false, []⟩ msgId) }, mqttVersion311⟩

def connection : Call :=
  ⟨{ action := .connect false }, mqttVersion311⟩

/-- Two PUBACKs are queued, and the first one blocks the socket again. -/
theorem not_balanced_run :
    ¬∀ front back : List Call,
      [connection, blockedPublish, arrival 1, arrival 2,
        ⟨{ action := .continueWrite true, writes := [.interrupted] }, mqttVersion311⟩] =
          front ++ back →
        Balanced (Machine.run step
          (start (Session.create mqttVersion311 true none) mqttVersion311) front) := by
  intro balanced
  have last := balanced _ [] (List.append_nil _).symm
  revert last
  decide

/-- Every acknowledgement that was handed to the socket of the connection is one that a packet of
the connection asked for, and is encoded for the version of the connection. -/
structure OwnAnswers (l : Ledger) : Prop where
  foreign : l.foreign = []
  handed : l.handed.Sublist l.due
  mqttVersion : l.client.connected = true → l.client.mqttVersion = l.mqttVersion

/-- A flush finds no acknowledgement that is older than the connection. -/
def FlushesOwn (l : Ledger) (call : Call) : Prop :=
  Flushes l call → l.leftOver = 0

theorem ownAnswers_iff {l : Ledger} (kept : Kept l) : OwnAnswers l ↔ l.foreign = [] := by
  constructor
  · exact OwnAnswers.foreign
  · intro none
    exact ⟨none, (List.sublist_append_left _ _).trans kept.due, kept.mqttVersion⟩

/-- A step sends an acknowledgement of another connection only by a flush. -/
theorem ownAnswers_step_iff {l : Ledger} {call : Call} (kept : Kept l) (own : OwnAnswers l) :
    OwnAnswers (step l call) ↔ FlushesOwn l call := by
  rw [ownAnswers_iff (step_kept l call kept)]
  have unflushed : ∀ other : ¬Flushes l call, FlushesOwn l call :=
    fun other flushes => absurd flushes other
  have change := step_change l call
  generalize step l call = l' at change
  cases change with
  | started c mqttVersion other version => exact iff_of_true rfl (unflushed other)
  | steady c other connected steady => exact iff_of_true own.foreign (unflushed other)
  | direct c ackReq other connected idle queue version =>
      exact iff_of_true own.foreign (unflushed other)
  | queued c ackReq other connected pending queue version =>
      exact iff_of_true own.foreign (unflushed other)
  | flushed c sent flushes queue version written =>
      simp only [own.foreign, List.nil_append, FlushesOwn, flushes, true_imp_iff]
      constructor
      · intro nothing
        rcases List.take_eq_nil_iff.mp nothing with none | empty
        · exact none
        · -- at least one write is tried, so the queue is empty
          by_contra old
          have some : 0 < l.client.outboundQueue.length :=
            Nat.lt_of_lt_of_le (Nat.pos_of_ne_zero old) kept.leftOver
          have tried := writtenCount_pos call.input.writes some
          have lengths := congrArg List.length (written.symm.trans empty)
          simp only [List.length_take, List.length_nil] at lengths
          omega
      · intro none
        rw [none, List.take_zero]

end Ledger

end Acks

end Paho
