import Paho.Protocol.Session
import Mathlib.Logic.Relation
import Mathlib.Tactic.Simps.Basic

/-!
# What a session exchanges

The session without its socket, its clock and its counters: the messages in flight, the
acknowledgements that wait, the records of the store as a function of the key, and the
trace. `Internal` and `Handles` say once what the session code can do to these; the
invariants of runs are proved of them. `Paho.Protocol.Refinement` shows that every step of
the session is made of such changes.
-/

namespace Paho

/-- What the exchanges of a session work on. Times of last sending are erased. -/
@[ext]
structure Exchange where
  mqttVersion : Nat
  outbound : List Messages
  inbound : List Messages
  queue : List AckRequest
  persistent : Bool
  record : PersistenceKey → Option Record
  trace : List Event

/-- A message without the time of its last sending. -/
def Messages.untouched (m : Messages) : Messages :=
  { m with lastTouch := 0 }

namespace Exchange

/-- Put a record in the store, if there is one. -/
@[simps]
def put (e : Exchange) (key : PersistenceKey) (record : Record) : Exchange :=
  { e with
    record := fun other => if e.persistent = true ∧ other = key then some record else
      e.record other }

/-- Remove the records of some keys. -/
@[simps]
def erase (e : Exchange) (keys : List PersistenceKey) : Exchange :=
  { e with record := fun key => if key ∈ keys then none else e.record key }

/-- Record an event. -/
@[simps]
def log (e : Exchange) (event : Event) : Exchange :=
  { e with trace := event :: e.trace }

/-- The exchange of an outbound message ends: the message and its records go. -/
@[simps!]
def finishOutbound (e : Exchange) (msgId : Nat) : Exchange :=
  { e.erase (MQTTPersistence.removedKeys .publishSent msgId) with
    outbound := removeMessage e.outbound msgId }

/-- The exchange of an inbound message ends. -/
@[simps!]
def finishInbound (e : Exchange) (msgId : Nat) : Exchange :=
  { e.erase (MQTTPersistence.removedKeys .publishReceived msgId) with
    inbound := removeMessage e.inbound msgId }

/-- PUBREC was received for an outbound message. -/
@[simps]
def acceptPubrec (e : Exchange) (msgId : Nat) : Exchange :=
  { e with
    outbound := updateMessage e.outbound msgId fun m =>
      { m with nextMessageType := some .pubcomp } }

/-- What sending an acknowledgement puts in the store. -/
def putAck (e : Exchange) (mqttVersion : Nat) (type : PacketType) (msgId : Nat) : Exchange :=
  if type = .pubrel then e.put (MQTTPersistence.key .pubrel mqttVersion msgId) (.pubrel msgId)
  else e

/-- An acknowledgement is sent. -/
def sendAck (e : Exchange) (mqttVersion : Nat) (type : PacketType) (msgId : Nat)
    (rc : CompletionCode) : Exchange :=
  (e.putAck mqttVersion type msgId).log (.sentAck type msgId rc)

/-- An acknowledgement is put in the queue. -/
@[simps!]
def queueAck (e : Exchange) (type : PacketType) (msgId : Nat) : Exchange :=
  log { e with queue := e.queue ++ [⟨msgId, type⟩] } (.queuedAck type msgId)

/-- A PUBLISH is sent. -/
@[simps!]
def sendPublish (e : Exchange) (publish : Publish) (rc : CompletionCode) : Exchange :=
  (e.put (MQTTPersistence.key .publishSent publish.mqttVersion publish.msgId)
    (.publish publish)).log (.sentPublish publish.msgId publish.dup rc)

/-- A message is put in flight. -/
@[simps!]
def start (e : Exchange) (m : Messages) : Exchange :=
  log { e with outbound := e.outbound ++ [m] } (.started m.msgid m.qos)

/-- The session is discarded. -/
@[simps!]
def clean (e : Exchange) : Exchange :=
  log
    { e with
      inbound := []
      outbound := []
      record := fun key => if MQTTPersistence.isInflight key then none else e.record key }
    .sessionCleaned

/-- A received message is kept, in the place of one with the same id. -/
def storeInbound (e : Exchange) (m : Messages) : Exchange :=
  if (findMessage e.inbound m.msgid).isSome then
    { e with inbound := updateMessage e.inbound m.msgid fun _ => m }
  else { e with inbound := e.inbound ++ [m] }

/-- A received PUBLISH of QoS 2 is put in the store. -/
@[simps!]
def persistReceived (e : Exchange) (publish : Publish) : Exchange :=
  e.put (MQTTPersistence.key .publishReceived publish.mqttVersion publish.msgId)
    (.publish publish)

section Fields

variable (e : Exchange) (mqttVersion msgId : Nat) (type : PacketType) (rc : CompletionCode)
  (publish : Publish) (m : Messages)

@[simp]
theorem putAck_trace : (e.putAck mqttVersion type msgId).trace = e.trace := by
  unfold putAck
  split <;> rfl

@[simp]
theorem putAck_mqttVersion : (e.putAck mqttVersion type msgId).mqttVersion = e.mqttVersion := by
  unfold putAck
  split <;> rfl

@[simp]
theorem putAck_outbound : (e.putAck mqttVersion type msgId).outbound = e.outbound := by
  unfold putAck
  split <;> rfl

@[simp]
theorem putAck_inbound : (e.putAck mqttVersion type msgId).inbound = e.inbound := by
  unfold putAck
  split <;> rfl

@[simp]
theorem putAck_queue : (e.putAck mqttVersion type msgId).queue = e.queue := by
  unfold putAck
  split <;> rfl

@[simp]
theorem putAck_persistent : (e.putAck mqttVersion type msgId).persistent = e.persistent := by
  unfold putAck
  split <;> rfl

@[simp]
theorem sendAck_trace : (e.sendAck mqttVersion type msgId rc).trace =
    .sentAck type msgId rc :: e.trace := by
  simp [sendAck]

@[simp]
theorem sendAck_mqttVersion :
    (e.sendAck mqttVersion type msgId rc).mqttVersion = e.mqttVersion := by
  simp [sendAck]

@[simp]
theorem sendAck_outbound : (e.sendAck mqttVersion type msgId rc).outbound = e.outbound := by
  simp [sendAck]

@[simp]
theorem sendAck_inbound : (e.sendAck mqttVersion type msgId rc).inbound = e.inbound := by
  simp [sendAck]

@[simp]
theorem sendAck_queue : (e.sendAck mqttVersion type msgId rc).queue = e.queue := by
  simp [sendAck]

@[simp]
theorem sendAck_persistent : (e.sendAck mqttVersion type msgId rc).persistent = e.persistent := by
  simp [sendAck]

theorem sendAck_record (key : PersistenceKey) :
    (e.sendAck mqttVersion type msgId rc).record key =
      if type = .pubrel ∧ e.persistent = true ∧ key = MQTTPersistence.key .pubrel mqttVersion msgId
      then some (.pubrel msgId) else e.record key := by
  by_cases pubrel : type = .pubrel <;> simp [sendAck, putAck, pubrel]

@[simp]
theorem storeInbound_outbound : (e.storeInbound m).outbound = e.outbound := by
  unfold storeInbound
  split <;> rfl

@[simp]
theorem storeInbound_trace : (e.storeInbound m).trace = e.trace := by
  unfold storeInbound
  split <;> rfl

@[simp]
theorem storeInbound_mqttVersion : (e.storeInbound m).mqttVersion = e.mqttVersion := by
  unfold storeInbound
  split <;> rfl

@[simp]
theorem storeInbound_queue : (e.storeInbound m).queue = e.queue := by
  unfold storeInbound
  split <;> rfl

@[simp]
theorem storeInbound_persistent : (e.storeInbound m).persistent = e.persistent := by
  unfold storeInbound
  split <;> rfl

@[simp]
theorem storeInbound_record : (e.storeInbound m).record = e.record := by
  unfold storeInbound
  split <;> rfl

end Fields

/-- A message whose PUBLISH is due for a retry. -/
def AwaitsPublish (m : Messages) : Prop :=
  m.qos = 1 ∨ (m.qos = 2 ∧ m.nextMessageType = some .pubrec)

/-- A message whose PUBREL is due for a retry. -/
def AwaitsPubrel (m : Messages) : Prop :=
  m.qos ≠ 0 ∧ m.nextMessageType = some .pubcomp

/-- What the session does other than on the arrival of a packet or on a new publication. -/
inductive Internal : Exchange → Exchange → Prop
  | retryPublish {e : Exchange} {m : Messages} (mem : m ∈ e.outbound) (awaits : AwaitsPublish m)
      (rc : CompletionCode) : Internal e (e.sendPublish (MQTTProtocol.retryPublish m) rc)
  | retryPubrel {e : Exchange} {m : Messages} (mem : m ∈ e.outbound) (awaits : AwaitsPubrel m)
      (rc : CompletionCode) : Internal e (e.sendAck m.mqttVersion .pubrel m.msgid rc)
  | sendQueued {e : Exchange} {ackReq : AckRequest} (mem : ackReq ∈ e.queue)
      (rc : CompletionCode) :
      Internal e (e.sendAck e.mqttVersion ackReq.ackType ackReq.messageId rc)
  | resent (e : Exchange) (type : PacketType) (msgid : Nat) :
      Internal e (e.log (.resent type msgid))
  | dropQueue (e : Exchange) : Internal e { e with queue := [] }
  | clean (e : Exchange) : Internal e e.clean
  | connect (e : Exchange) : Internal e (e.log .connected)

/-- Sending an acknowledgement, or queueing it. -/
inductive Acknowledges (e : Exchange) (type : PacketType) (msgId : Nat) : Exchange → Prop
  | sent (rc : CompletionCode) :
      Acknowledges e type msgId (e.sendAck e.mqttVersion type msgId rc)
  | queued : Acknowledges e type msgId (e.queueAck type msgId)

/-- An outbound message of QoS 2 that waits for PUBREC. -/
def AwaitsPubrec (m : Messages) : Prop :=
  m.qos = 2 ∧ m.nextMessageType = some .pubrec

/-- An outbound message of QoS 2 that waits for PUBCOMP. -/
def AwaitsPubcomp (m : Messages) : Prop :=
  m.qos = 2 ∧ m.nextMessageType = some .pubcomp

/-- An inbound message that waits for PUBREL. -/
def AwaitsInboundPubrel (m : Messages) : Prop :=
  m.qos = 2 ∧ m.nextMessageType = some .pubrel

/-- What the arrival of a packet does. -/
inductive Handles (e : Exchange) : Session.Packet → Exchange → Prop
  | pubackIgnored {msgId : Nat}
      (ignored : ∀ m, findMessage e.outbound msgId = some m → m.qos ≠ 1) :
      Handles e (.puback msgId) (e.log (.received .puback msgId))
  | puback {msgId : Nat} {m : Messages} (found : findMessage e.outbound msgId = some m)
      (qos : m.qos = 1) :
      Handles e (.puback msgId) ((e.log (.received .puback msgId)).finishOutbound msgId)
  | pubrecUnexpected {msgId rc : Nat} {e' : Exchange}
      (unexpected : ∀ m, findMessage e.outbound msgId = some m → ¬AwaitsPubrec m)
      (acknowledges : Acknowledges (e.log (.received .pubrec msgId)) .pubrel msgId e') :
      Handles e (.pubrec msgId rc) e'
  | pubrecError {msgId rc : Nat} {m : Messages} (found : findMessage e.outbound msgId = some m)
      (awaits : AwaitsPubrec m) (version : mqttVersion5 ≤ e.mqttVersion)
      (error : reasonCodeUnspecifiedError ≤ rc) :
      Handles e (.pubrec msgId rc) ((e.log (.received .pubrec msgId)).finishOutbound msgId)
  | pubrec {msgId rc : Nat} {m : Messages} {e' : Exchange}
      (found : findMessage e.outbound msgId = some m) (awaits : AwaitsPubrec m)
      (acknowledges :
        Acknowledges ((e.log (.received .pubrec msgId)).acceptPubrec msgId) .pubrel msgId e') :
      Handles e (.pubrec msgId rc) e'
  | pubcompUnexpected {msgId : Nat}
      (unexpected : ∀ m, findMessage e.outbound msgId = some m → ¬AwaitsPubcomp m) :
      Handles e (.pubcomp msgId) (e.log (.received .pubcomp msgId))
  | pubcomp {msgId : Nat} {m : Messages} (found : findMessage e.outbound msgId = some m)
      (awaits : AwaitsPubcomp m) :
      Handles e (.pubcomp msgId) ((e.log (.received .pubcomp msgId)).finishOutbound msgId)
  | publish0 {dup : Bool} {message : Session.Message} {msgId : Nat} (qos : message.qos = 0) :
      Handles e (.publish dup message msgId)
        (let publish := Session.publishPacket e.mqttVersion message dup msgId
        (e.log (.receivedPublish publish)).log (.processed publish))
  | publish1 {dup : Bool} {message : Session.Message} {msgId : Nat} {e' : Exchange}
      (qos : message.qos = 1)
      (acknowledges :
        let publish := Session.publishPacket e.mqttVersion message dup msgId
        Acknowledges ((e.log (.receivedPublish publish)).log (.processed publish)) .puback msgId
          e') :
      Handles e (.publish dup message msgId) e'
  | publishDelivered {dup : Bool} {message : Session.Message} {msgId : Nat} {e' : Exchange}
      (qos : message.qos = 2) (version : mqttVersion5 ≤ e.mqttVersion)
      (new : findMessage e.inbound msgId = none)
      (acknowledges :
        let publish := Session.publishPacket e.mqttVersion message dup msgId
        let m := MQTTProtocol.receivedMessage publish
        Acknowledges
          ((((e.persistReceived publish).log (.receivedPublish publish)).storeInbound
              { m with publish := none }).log (.processed (MQTTProtocol.publicationOf m)))
          .pubrec msgId e') :
      Handles e (.publish dup message msgId) e'
  | publishKept {dup : Bool} {message : Session.Message} {msgId : Nat} {e' : Exchange}
      (qos : message.qos = 2)
      (kept : mqttVersion5 ≤ e.mqttVersion → findMessage e.inbound msgId ≠ none)
      (acknowledges :
        let publish := Session.publishPacket e.mqttVersion message dup msgId
        Acknowledges
          (((e.persistReceived publish).log (.receivedPublish publish)).storeInbound
            (MQTTProtocol.receivedMessage publish))
          .pubrec msgId e') :
      Handles e (.publish dup message msgId) e'
  | publishOther {dup : Bool} {message : Session.Message} {msgId : Nat} (qos : 2 < message.qos) :
      Handles e (.publish dup message msgId)
        (e.log (.receivedPublish (Session.publishPacket e.mqttVersion message dup msgId)))
  | pubrelUnexpected {msgId : Nat} {e' : Exchange}
      (unexpected : ∀ m, findMessage e.inbound msgId = some m → ¬AwaitsInboundPubrel m)
      (acknowledges : Acknowledges (e.log (.received .pubrel msgId)) .pubcomp msgId e') :
      Handles e (.pubrel msgId) e'
  | pubrel {msgId : Nat} {m : Messages} {e' : Exchange}
      (found : findMessage e.inbound msgId = some m) (awaits : AwaitsInboundPubrel m)
      (acknowledges :
        let e := e.log (.received .pubrel msgId)
        Acknowledges
          ((if mqttVersion5 ≤ m.mqttVersion then e
            else e.log (.processed (MQTTProtocol.publicationOf m))).finishInbound msgId)
          .pubcomp msgId e') :
      Handles e (.pubrel msgId) e'

/-- What a new publication with an id does; the id is 0 for QoS 0. For QoS 1 and 2 the id is
one that no message in flight has. -/
inductive Starts (e : Exchange) (message : Session.Message) : Nat → Exchange → Prop
  | unacknowledged {rc : CompletionCode} (qos : message.qos = 0) :
      Starts e message 0 (e.log (.sentPublish 0 false rc))
  | start {msgId : Nat} {rc : CompletionCode} (positive : 0 < msgId)
      (unused : msgId ∉ ids e.outbound) (qos : message.qos = 1 ∨ message.qos = 2) :
      Starts e message msgId
        (let publish := Session.publishPacket e.mqttVersion message false msgId
        (e.start (MQTTProtocol.createMessage publish message.qos message.retained 0)).sendPublish
          publish rc)

end Exchange

end Paho
