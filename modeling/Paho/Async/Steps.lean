import Paho.Async.Inbox

/-!
# Runs of the asynchronous client

The asynchronous client as a state machine whose steps change the store at most once. A call or
an event starts something that `advance` then carries on, one operation on the store at a time;
while it is under way, the thread holds `mqttasync_mutex`, and only calls of `MQTTAsync_send`
and the end of the process come in between.
-/

namespace Paho

namespace MQTTAsyncs

open MQTTPersistence

/-- Whether the handler of a packet ends an outbound exchange. -/
def ends (mqttVersion : Nat) (outbound : List Messages) : Session.Packet → Option Nat
  | .puback msgId =>
      match findMessage outbound msgId with
      | some m => if m.qos = 1 then some msgId else none
      | none => none
  | .pubrec msgId rc =>
      match findMessage outbound msgId with
      | some m =>
          if m.qos = 2 ∧ m.nextMessageType = some .pubrec ∧ mqttVersion5 ≤ mqttVersion ∧
              reasonCodeUnspecifiedError ≤ rc then some msgId
          else none
      | none => none
  | .pubcomp msgId =>
      match findMessage outbound msgId with
      | some m => if m.qos = 2 ∧ m.nextMessageType = some .pubcomp then some msgId else none
      | none => none
  | .publish _ _ _ | .pubrel _ => none

/-- The event of the session that the arrival of a packet is. -/
def arrival (mqttVersion : Nat) : Session.Packet → Event
  | .publish dup message msgId =>
      .receivedPublish (Session.publishPacket mqttVersion message dup msgId)
  | .puback msgId => .received .puback msgId
  | .pubrec msgId _ => .received .pubrec msgId
  | .pubrel msgId => .received .pubrel msgId
  | .pubcomp msgId => .received .pubcomp msgId

/-- The token whose response `MQTTAsync_cycle` takes off the list after handling a packet. -/
def responseTo (mqttVersion : Nat) : Session.Packet → Option Nat
  | .puback msgId | .pubcomp msgId => some msgId
  | .pubrec msgId rc =>
      if mqttVersion5 ≤ mqttVersion ∧ reasonCodeUnspecifiedError ≤ rc then some msgId else none
  | .publish _ _ _ | .pubrel _ => none

/-- The inbound message that PUBREL releases. -/
def releases (inbound : List Messages) (msgId : Nat) : Option Messages :=
  (findMessage inbound msgId).filter fun m => m.qos = 2 ∧ m.nextMessageType = some .pubrel

/-- `MQTTAsync_cycle` with a packet that ends an outbound exchange, up to the removal of the
records. -/
def finishOutbound (s : MQTTAsyncs) (packet : Session.Packet) (msgId : Nat) : MQTTAsyncs :=
  { s with
    c := s.c.log (arrival s.c.mqttVersion packet)
    phase := .removing (removedKeys .publishSent msgId) (.outbound msgId) }.log (.finished msgId)

/-- `MQTTProtocol_handlePubrels` for a message that is released, up to the removal of the
records. -/
def finishInbound (s : MQTTAsyncs) (m : Messages) (msgId : Nat) (accepts : Bool) : MQTTAsyncs :=
  let s := { s with c := s.c.log (.received .pubrel msgId) }
  let s :=
    if mqttVersion5 ≤ m.mqttVersion then s
    else
      let publish := MQTTProtocol.publicationOf m
      processPublication { s with c := MQTTProtocol.processPublication s.c publish } publish accepts
  { s with phase := .removing (removedKeys .publishReceived msgId) (.inbound msgId) }

/-- `MQTTAsync_cycle` with a packet of an exchange: `MQTTPacket_Factory` and the handler, up to
the first operation on the store after which another one comes. -/
def receive (s : MQTTAsyncs) (packet : Session.Packet) (accepts : Bool) : MQTTAsyncs :=
  let s :=
    match responseTo s.c.mqttVersion packet with
    | some token => { s with responses := s.responses.erase token }
    | none => s
  match packet with
  | .publish dup message msgId =>
      let publish := Session.publishPacket s.c.mqttVersion message dup msgId
      if publish.qos = 2 then
        { s with
          c := MQTTPacket.persistReceived s.c publish
          phase := .received publish }.log (.recorded publish)
      else handlePublishes s publish accepts
  | .pubrel msgId =>
      match releases s.c.inboundMsgs msgId with
      | some m => finishInbound s m msgId accepts
      | none => { s with c := Session.receive s.c packet }
  | packet =>
      match ends s.c.mqttVersion s.c.outboundMsgs packet with
      | some msgId => finishOutbound s packet msgId
      | none => { s with c := Session.receive s.c packet }

/-- `MQTTProtocol_retry` and `MQTTProtocol_retries` up to the loop over the messages. -/
def retry (s : MQTTAsyncs) (now : Nat) (doRetry regardless : Bool) : MQTTAsyncs :=
  if !s.c.connected then s
  else if !s.c.good then { s with c := MQTTProtocol.closeSession s.c }
  else if !Socket.noPendingWrites s.c.net then s
  else if doRetry then
    if !regardless && decide (s.c.retryInterval ≤ 0) && s.c.connectSent == s.c.connectCount then s
    else if regardless then
      { s with
        c := { s.c with connectCount := s.c.outboundMsgs.length }
        phase := .retrying now true s.c.outboundMsgs }
    else
      { s with
        phase := .retrying now (decide (s.c.connectSent < s.c.connectCount)) s.c.outboundMsgs }
  else s

/-- `MQTTAsync_completeConnection` after a session that is not wanted has been cleaned. -/
def resumeSession (s : MQTTAsyncs) : MQTTAsyncs :=
  if 0 < s.c.outboundMsgs.length then
    let outbound := s.c.outboundMsgs.map fun m => { m with lastTouch := 0 }
    retry { s with c := { s.c with outboundMsgs := outbound } } 0 true true
  else s

/-- Whether `MQTTAsync_completeConnection` cleans the session. -/
def cleansOnConnect (c : Clients) (sessionPresent : Bool) : Bool :=
  c.cleansession || c.cleanstart ||
    (decide (mqttVersion311 ≤ c.mqttVersion) && !sessionPresent)

/-- `MQTTAsync_completeConnection` with a successful CONNACK, up to the removal of records or to
the first packet that is sent again. -/
def completeConnection (s : MQTTAsyncs) (sessionPresent : Bool) : MQTTAsyncs :=
  let c := { s.c with connected := true, good := true, trace := .connected :: s.c.trace }
  let s := { s with c := c }
  if cleansOnConnect c sessionPresent then
    { s with phase := .removing (c.recordKeys.filter isInflight) .clean }
  else resumeSession s

/-- What follows the removal of records. -/
def finish (s : MQTTAsyncs) : Finish → MQTTAsyncs
  | .outbound msgId =>
      { s with
        c := { s.c with outboundMsgs := removeMessage s.c.outboundMsgs msgId }
        phase := .idle }
  | .inbound msgId =>
      let c := { s.c with inboundMsgs := removeMessage s.c.inboundMsgs msgId }
      { s with
        c := (MQTTProtocol.acknowledge c c.mqttVersion .pubcomp msgId).2
        phase := .idle }
  | .clean =>
      let c :=
        { s.c with
          inboundMsgs := []
          outboundMsgs := []
          msgID := 0
          trace := .sessionCleaned :: s.c.trace }
      resumeSession { s with c := c, responses := [], phase := .idle }

/-- Remove one record. The exchange of a received PUBLISH is over with its record. -/
def removeKey (s : MQTTAsyncs) (key : PersistenceKey) : MQTTAsyncs :=
  let s := { s with c := s.c.removeRecords [key] }
  if key = MQTTPersistence.key .publishReceived s.c.mqttVersion key.number then
    s.log (.released key.number)
  else s

/-- What `MQTTAsync_create` does when the messages in flight are restored. -/
def createRestored (s : MQTTAsyncs) : MQTTAsyncs :=
  let s := { s with c := { s.c with outboundMsgs := wrapMsgID s.c.outboundMsgs } }
  { restoreMessageQueue (restoreCommands s) with phase := .idle }

/-- Carry on what is under way. -/
def advance (s : MQTTAsyncs) (accepts : Bool) : MQTTAsyncs :=
  match s.phase with
  | .idle | .failed => s
  | .publishing token message => startPublish s token message
  | .received publish => handlePublishes s publish accepts
  | .removing [] last => finish s last
  | .removing (key :: keys) last => { removeKey s key with phase := .removing keys last }
  | .retrying _ _ [] => { s with phase := .idle }
  | .retrying now regardless (m :: rest) =>
      { s with
        c := MQTTProtocol.retryLoop now regardless s.c [m]
        phase := .retrying now regardless rest }
  | .sendingAcks [] => { s with c := { s.c with outboundQueue := [] }, phase := .idle }
  | .sendingAcks (ackReq :: rest) =>
      match MQTTPacket.send_ack s.c s.c.mqttVersion ackReq.ackType ackReq.messageId with
      | (.complete, c) => { s with c := c, phase := .sendingAcks rest }
      | (_, c) => { s with c := c, phase := .sendingAcks [] }
  | .restoring [] => createRestored s
  | .restoring (key :: keys) =>
      match restoreKey s.c key with
      | .continues c => { s with c := c, phase := .restoring keys }
      | .failed c | .exits c => { s with c := c, phase := .failed }

/-- The process ends, and a new one begins to restore the session. -/
def restart (s : MQTTAsyncs) (keys : List PersistenceKey) : MQTTAsyncs :=
  { s with
    c := (Session.fresh s.c).log .restarted
    shouldBeConnected := false
    commands := []
    responses := []
    commandSeqno := 0
    noBufferedMessages := 0
    messageQueue := []
    qentrySeqno := 0
    sending := .none
    phase := .restoring keys }

end MQTTAsyncs

namespace AsyncSession

/-- The calls into the asynchronous client, and what its threads do. -/
inductive Action where
  /-- `MQTTAsync_send` is called. -/
  | send (message : Session.Message)
  /-- `MQTTAsync_subscribe` or `MQTTAsync_unsubscribe` is called. -/
  | subscribe
  /-- `MQTTAsync_connect` is called. -/
  | requestConnect
  /-- `MQTTAsync_disconnect` is called. -/
  | requestDisconnect
  /-- A call that adds a command carries on. -/
  | add
  | processCommand
  | receive (packet : Session.Packet)
  /-- A message of the queue is passed to the application. -/
  | deliver
  | retry (doRetry : Bool)
  | continueWrite (succeeded : Bool)
  | connectionLost
  /-- A connection is made. -/
  | connect (sessionPresent : Bool)
  /-- The thread that holds the mutex carries on. -/
  | advance
  /-- The process ends; a new one restores the session from the keys of the store. -/
  | restart (keys : List PersistenceKey)
  deriving DecidableEq, Repr

/-- An action and what the environment answers while it is carried out: the clock, the results
of socket writes, whether another server URI is left, whether `messageArrived` takes a message,
and whether the time for a disconnection is over. -/
structure Input where
  action : Action
  now : Nat := 0
  writes : List CompletionCode := []
  moreToTry : Bool := false
  accepts : Bool := true
  expired : Bool := false
  deriving DecidableEq, Repr

open MQTTAsyncs

/-- The next part of a call that adds a command. -/
def add (s : MQTTAsyncs) : MQTTAsyncs :=
  match s.sending with
  | .none => s
  | .adding token command => addCommand s token command
  | .added => checkBuffer s

/-- What a thread does that takes the mutex. -/
def begin (s : MQTTAsyncs) (input : Input) : MQTTAsyncs :=
  match input.action with
  | .processCommand => processCommand s input.expired
  | .receive packet => if s.c.connected then MQTTAsyncs.receive s packet input.accepts else s
  | .deliver => deliverQueued s input.accepts
  | .retry doRetry => MQTTAsyncs.retry s s.c.clock doRetry false
  | .continueWrite succeeded =>
      if s.c.net.pendingWrites then
        let s := { s with c := { s.c with net := { s.c.net with pendingWrites := false } } }
        if succeeded then { s with phase := .sendingAcks s.c.outboundQueue } else s
      else s
  | .connectionLost =>
      if s.c.connected then { s with c := MQTTProtocol.closeSession s.c } else s
  | .connect sessionPresent => if s.c.connected then s else completeConnection s sessionPresent
  | _ => s

/-- Whether a thread of the application can get the mutex, or has it in a callback. -/
def mutexFree : Phase → Bool
  | .publishing _ _ | .restoring _ | .failed => false
  | _ => true

/-- Whether the client exists for the application. -/
def created : Phase → Bool
  | .restoring _ | .failed => false
  | _ => true

/-- The effect of an action. The application makes one call that adds a command at a time. -/
def act (s : MQTTAsyncs) (input : Input) : MQTTAsyncs :=
  match input.action with
  | .send message =>
      if mutexFree s.phase ∧ s.sending = .none then MQTTAsyncs.send s message else s
  | .subscribe => if mutexFree s.phase ∧ s.sending = .none then MQTTAsyncs.subscribe s else s
  | .requestConnect =>
      if mutexFree s.phase ∧ s.sending = .none then
        { s with shouldBeConnected := true, sending := .adding 0 .connect }
      else s
  | .requestDisconnect =>
      if mutexFree s.phase ∧ s.sending = .none then
        { s with shouldBeConnected := false, sending := .adding 0 (.disconnect false) }
      else s
  | .add => if created s.phase then add s else s
  | .advance => advance s input.accepts
  | .restart keys => restart s keys
  | _ => if s.phase = .idle then begin s input else s

/-- What the environment supplies for one step. -/
def provide (s : MQTTAsyncs) (input : Input) : MQTTAsyncs :=
  { s with
    c :=
      { s.c with
        clock := input.now
        net := { s.c.net with writes := input.writes }
        moreToTry := input.moreToTry } }

/-- One step of the asynchronous client. -/
def step (s : MQTTAsyncs) (input : Input) : MQTTAsyncs :=
  act (provide s input) input

/-- A client that was created with an empty store. -/
def create (mqttVersion : Nat) (cleansession : Bool) (maxInflightMessages : Nat)
    (createOptions : Option CreateOptions) : MQTTAsyncs :=
  { c := Session.create mqttVersion cleansession (some ∅)
    createOptions := createOptions
    shouldBeConnected := false
    maxInflightMessages := maxInflightMessages
    commands := []
    responses := []
    commandSeqno := 0
    noBufferedMessages := 0
    messageQueue := []
    qentrySeqno := 0
    sending := .none
    phase := .idle
    history := [] }

end AsyncSession

end Paho
