import Paho.Library.Run
import Paho.Protocol.Inbound
import Paho.Protocol.Outbound

/-!
# Runs of a session

The client session as a state machine. An input is one call into the session code: a
publication, a packet from the server, a retry pass, a change of the connection, or the end
of the process and the restoration of the session from the store.
-/

namespace Paho

namespace MQTTAsync

/-- `MQTTAsync_completeConnection` with a successful CONNACK. -/
def completeConnection (c : Clients) (sessionPresent : Bool) : Clients :=
  let c := { c with connected := true, good := true, trace := .connected :: c.trace }
  let c :=
    if c.cleansession || c.cleanstart then cleanSession c
    else if decide (mqttVersion311 ≤ c.mqttVersion) && !sessionPresent then cleanSession c
    else c
  if 0 < c.outboundMsgs.length then
    let c := { c with outboundMsgs := c.outboundMsgs.map fun m => { m with lastTouch := 0 } }
    MQTTProtocol.retry 0 true true c
  else c

end MQTTAsync

namespace Session

/-- A packet from the server. -/
inductive Packet where
  | publish (dup : Bool) (message : Message) (msgId : Nat)
  | puback (msgId : Nat)
  | pubrec (msgId rc : Nat)
  | pubrel (msgId : Nat)
  | pubcomp (msgId : Nat)
  deriving DecidableEq, Repr

/-- The calls into the session code. -/
inductive Action where
  /-- Publish a message, with an id from `MQTTProtocol_assignMsgId` when one is needed. -/
  | publish (message : Message)
  /-- A packet arrives. -/
  | receive (packet : Packet)
  /-- `MQTTProtocol_retry` is called with the current time. -/
  | retry (doRetry : Bool)
  /-- A pending write finishes, or fails. -/
  | continueWrite (succeeded : Bool)
  /-- The connection is found to be broken. -/
  | connectionLost
  /-- A connection is made. -/
  | connect (sessionPresent : Bool)
  /-- The process ends; a new one restores the session from the keys of the store, which the
  store lists in any order. -/
  | restart (keys : List PersistenceKey)
  deriving DecidableEq, Repr

/-- An action and what the environment answers while it is carried out. -/
structure Input where
  action : Action
  now : Nat := 0
  writes : List CompletionCode := []
  moreToTry : Bool := false
  deriving DecidableEq, Repr

/-- The PUBLISH packet for a message. -/
def publishPacket (mqttVersion : Nat) (message : Message) (dup : Bool) (msgId : Nat) : Publish :=
  { dup := dup
    qos := message.qos
    retain := message.retained
    topic := some message.topic
    msgId := msgId
    payload := some message.payload
    mqttVersion := mqttVersion
    properties := if mqttVersion5 ≤ mqttVersion then message.properties else [] }

/-- The id that the next publication of QoS 1 or 2 gets. -/
def nextId (c : Clients) : Option Nat :=
  (MQTTProtocol.assignMsgId c).map Prod.fst

/-- Publish a message, as `MQTTClient_publish5` and `MQTTAsync_processCommand` do. -/
def publish (c : Clients) (message : Message) : Clients :=
  if 2 < message.qos then c
  else if message.qos = 0 then
    (MQTTProtocol.startPublish c (publishPacket c.mqttVersion message false 0) 0
      message.retained).2
  else
    match MQTTProtocol.assignMsgId c with
    | none => c
    | some (msgId, c) =>
        if msgId = 0 then c
        else
          (MQTTProtocol.startPublish c (publishPacket c.mqttVersion message false msgId)
            message.qos message.retained).2

/-- Dispatch a packet to its handler. -/
def receive (c : Clients) : Packet → Clients
  | .publish dup message msgId =>
      let publish := publishPacket c.mqttVersion message dup msgId
      (MQTTProtocol.handlePublishes (MQTTPacket.persistReceived c publish) publish).2
  | .puback msgId => (MQTTProtocol.handlePubacks c msgId).2
  | .pubrec msgId rc => (MQTTProtocol.handlePubrecs c msgId rc).2
  | .pubrel msgId => (MQTTProtocol.handlePubrels c msgId).2
  | .pubcomp msgId => (MQTTProtocol.handlePubcomps c msgId).2

/-- A client that was created and has no session yet. -/
def create (mqttVersion : Nat) (cleansession : Bool) (persistence : Option Store) : Clients :=
  { mqttVersion := mqttVersion
    cleansession := cleansession
    cleanstart := false
    sessionExpiry := 4294967295
    retryInterval := 0
    connected := false
    good := false
    msgID := 0
    inboundMsgs := []
    outboundMsgs := []
    outboundQueue := []
    connectCount := 0
    connectSent := 0
    net := { pendingWrites := false, writes := [] }
    persistence := persistence
    clock := 0
    moreToTry := false
    trace := [] }

/-- The state of a new process before the session is restored. -/
def fresh (c : Clients) : Clients :=
  { c with
    connected := false
    good := false
    msgID := 0
    inboundMsgs := []
    outboundMsgs := []
    outboundQueue := []
    connectCount := 0
    connectSent := 0
    net := { c.net with pendingWrites := false } }

/-- End the process and restore the session in a new one. -/
def restart (c : Clients) (keys : List PersistenceKey) : Clients :=
  (MQTTPersistence.restorePackets ((fresh c).log .restarted) keys).2

/-- The effect of an action. Packets arrive and messages are published on an open connection
only. -/
def act (c : Clients) : Action → Clients
  | .publish message => if c.connected then publish c message else c
  | .receive packet => if c.connected then receive c packet else c
  | .retry doRetry => MQTTProtocol.retry c.clock doRetry false c
  | .continueWrite succeeded =>
      if c.net.pendingWrites then
        let c := { c with net := { c.net with pendingWrites := false } }
        if succeeded then MQTTProtocol.writeAvailable c else c
      else c
  | .connectionLost => if c.connected then MQTTProtocol.closeSession c else c
  | .connect sessionPresent =>
      if c.connected then c else MQTTAsync.completeConnection c sessionPresent
  | .restart keys => restart c keys

/-- What the environment supplies for one step. -/
def provide (c : Clients) (input : Input) : Clients :=
  { c with
    clock := input.now
    net := { c.net with writes := input.writes }
    moreToTry := input.moreToTry }

/-- One step of the session. -/
def step (c : Clients) (input : Input) : Clients :=
  act (provide c input) input.action

end Session

end Paho
