import Paho.Packet.Types
import Mathlib.Data.List.AList

/-!
# The client session

The part of `Clients` that the session code works on: the in-flight lists, the queue of
acknowledgements, the resend counters, the socket and the persistent store. Next to the
fields of the source stand what the environment supplies during one step (the clock, the
results of socket writes, whether another server URI is left to try) and a trace of what
the client has done, newest event first, which no operation reads.
-/

namespace Paho

/-- The stem of a persistence key. Each stem has a plain form and an MQTT 5 form. -/
inductive Stem where
  /-- `s-` and `s5-`. -/
  | publishSent
  /-- `sc-` and `sc5-`. -/
  | pubrel
  /-- `r-` and `r5-`. -/
  | publishReceived
  /-- `c-` and `c5-`. -/
  | command
  /-- `q-` and `q5-`. -/
  | queue
  deriving DecidableEq, Repr

/-- A persistence key: the stem, whether it is the MQTT 5 form, and the number after it. -/
structure PersistenceKey where
  stem : Stem
  v5 : Bool
  number : Nat
  deriving DecidableEq, Repr

/-- A persisted record, kept decoded. The command record of a publication has its message,
that of a SUBSCRIBE or UNSUBSCRIBE has none. `unreadable` stands for a record that
`MQTTPersistence_restorePacket` rejects. -/
inductive Record where
  | publish (publish : Publish)
  | pubrel (msgId : Nat)
  | command (token : Nat) (message : Option Session.Message)
  | queue (publish : Publish)
  | unreadable
  deriving DecidableEq, Repr

/-- The persistent store of one client. -/
abbrev Store := AList fun _ : PersistenceKey => Record

/-- `Publications`: the stored topic and payload of a message. -/
structure Publications where
  topic : Option Bytes
  payload : Option Bytes
  deriving DecidableEq, Repr

/-- `Messages`: an in-flight message. For QoS 1 the code never sets `nextMessageType`, which
is then `none`. -/
structure Messages where
  qos : Nat
  retain : Bool
  msgid : Nat
  mqttVersion : Nat
  properties : MQTTProperties
  publish : Option Publications
  lastTouch : Nat
  nextMessageType : Option PacketType
  deriving DecidableEq, Repr

/-- `AckRequest`: an acknowledgement that waits for a pending write to finish. -/
structure AckRequest where
  messageId : Nat
  ackType : PacketType
  deriving DecidableEq, Repr

/-- What the client has done, for stating properties of runs. -/
inductive Event where
  /-- `MQTTProtocol_startPublish` put a message in `outboundMsgs`. -/
  | started (msgid qos : Nat)
  /-- A PUBLISH was handed to the socket. -/
  | sentPublish (msgid : Nat) (dup : Bool) (rc : CompletionCode)
  /-- An acknowledgement was handed to the socket. -/
  | sentAck (type : PacketType) (msgid : Nat) (rc : CompletionCode)
  /-- An acknowledgement was put in `outboundQueue`. -/
  | queuedAck (type : PacketType) (msgid : Nat)
  /-- A retry pass handed a packet of this type to the socket again. -/
  | resent (type : PacketType) (msgid : Nat)
  /-- A PUBLISH was received. -/
  | receivedPublish (publish : Publish)
  /-- An acknowledgement of this type with this id was received. -/
  | received (type : PacketType) (msgid : Nat)
  /-- `Protocol_processPublication` was called. -/
  | processed (publish : Publish)
  /-- `cleanSession` discarded the session. -/
  | sessionCleaned
  /-- A new connection was completed. -/
  | connected
  /-- The process ended and the session was restored from the store. -/
  | restarted
  deriving DecidableEq, Repr

/-- Whether an event starts a publication with this id. -/
def Event.starts (msgid : Nat) : Event → Bool
  | .started id _ => id == msgid
  | _ => false

/-- The part of `networkHandles` and of the socket module that sending depends on. -/
structure NetworkHandles where
  /-- The socket is in `mod_s.write_pending`. -/
  pendingWrites : Bool
  /-- The results of the next socket writes; when none is left, writes complete. -/
  writes : List CompletionCode
  deriving DecidableEq, Repr

/-- The modelled fields of `Clients`. -/
structure Clients where
  mqttVersion : Nat
  cleansession : Bool
  cleanstart : Bool
  sessionExpiry : Nat
  retryInterval : Int
  connected : Bool
  good : Bool
  msgID : Nat
  inboundMsgs : List Messages
  outboundMsgs : List Messages
  outboundQueue : List AckRequest
  connectCount : Nat
  connectSent : Nat
  net : NetworkHandles
  persistence : Option Store
  /-- `MQTTTime_now` during this step. -/
  clock : Nat
  /-- Whether `MQTTAsync_checkConn` finds another server URI to try during this step. -/
  moreToTry : Bool
  trace : List Event
  deriving DecidableEq

namespace Clients

/-- Record an event. -/
def log (c : Clients) (event : Event) : Clients :=
  { c with trace := event :: c.trace }

end Clients

end Paho
