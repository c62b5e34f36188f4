import Paho.Protocol.Session

/-!
# The asynchronous client

The state of `MQTTAsyncs`: the session, the queue of commands, the messages that wait for the
application, and what the two threads of the library are in the middle of. Threads change the
session under `mqttasync_mutex`; `Phase` names the points at which a thread that holds the mutex
is between two operations on the store.
-/

namespace Paho

/-- The commands of `MQTTAsync_command`. -/
inductive Command where
  | publish (message : Session.Message)
  /-- SUBSCRIBE or UNSUBSCRIBE. -/
  | subscribe
  | connect
  | disconnect (internal : Bool)
  deriving DecidableEq, Repr

namespace Command

/-- Whether a command is added at the head of the queue. -/
def atHead : Command → Bool
  | .connect => true
  | .disconnect internal => internal
  | _ => false

/-- Whether a command is a CONNECT or a DISCONNECT. -/
def isConnection : Command → Bool
  | .connect | .disconnect _ => true
  | _ => false

/-- Whether a command is a PUBLISH. -/
def isPublish : Command → Bool
  | .publish _ => true
  | _ => false

end Command

/-- `MQTTAsync_queuedCommand`. When `notRestored` is set, the message of a publication is only
in the store. -/
structure QueuedCommand where
  command : Command
  token : Nat
  seqno : Nat
  notRestored : Bool
  deriving DecidableEq, Repr

/-- `MQTTPersistence_qEntry`. -/
structure QueueEntry where
  publish : Publish
  seqno : Nat
  deriving DecidableEq, Repr

/-- `MQTTAsync_createOptions`. -/
structure CreateOptions where
  sendWhileDisconnected : Bool
  allowDisconnectedSendAtAnyTime : Bool
  maxBufferedMessages : Nat
  deleteOldestMessages : Bool
  persistQoS0 : Bool
  deriving DecidableEq, Repr

/-- What happened to publications, for stating properties of runs. -/
inductive AsyncEvent where
  /-- The command record of a publication was written. -/
  | accepted (token : Nat) (message : Session.Message)
  /-- The packet that ends an outbound exchange was handled. -/
  | finished (token : Nat)
  /-- `MQTTPacket_Factory` put a PUBLISH of QoS 2 in the store. -/
  | recorded (publish : Publish)
  /-- A publication was passed to `messageArrived`. -/
  | passed (publish : Publish)
  /-- A publication was put in the message queue. -/
  | queued (publish : Publish)
  /-- The record of a received PUBLISH was removed. -/
  | released (msgId : Nat)
  deriving DecidableEq, Repr

/-- What remains to be done when the last of some records has been removed. -/
inductive Finish where
  /-- Remove a message from `outboundMsgs`. -/
  | outbound (msgId : Nat)
  /-- Remove a message from `inboundMsgs` and send PUBCOMP. -/
  | inbound (msgId : Nat)
  /-- Empty the lists of the session and go on with the new connection. -/
  | clean
  deriving DecidableEq, Repr

/-- What the thread that holds `mqttasync_mutex` does next. -/
inductive Phase where
  /-- The mutex is free. -/
  | idle
  /-- A PUBLISH command was taken off the queue and its record is removed. -/
  | publishing (token : Nat) (message : Session.Message)
  /-- `MQTTPacket_Factory` has put a PUBLISH in the store. -/
  | received (publish : Publish)
  | removing (keys : List PersistenceKey) (last : Finish)
  /-- In the loop of `MQTTProtocol_retries`. -/
  | retrying (now : Nat) (regardless : Bool) (remaining : List Messages)
  /-- In the loop of `MQTTProtocol_writeAvailable`. -/
  | sendingAcks (remaining : List AckRequest)
  /-- In the loop of `MQTTPersistence_restorePackets`. -/
  | restoring (keys : List PersistenceKey)
  /-- The client could not be created. -/
  | failed
  deriving DecidableEq, Repr

/-- How far a call of `MQTTAsync_send` or of a like function has come. -/
inductive Sending where
  | none
  /-- `MQTTAsync_addCommand` is called next. -/
  | adding (token : Nat) (command : Command)
  /-- A publication was added, and the size of the buffer is checked next. -/
  | added
  deriving DecidableEq, Repr

/-- The modelled fields of `MQTTAsyncs`, with the fields of `Clients` that only the
asynchronous client uses. `responses` has the tokens of the commands that wait for a response. -/
structure MQTTAsyncs where
  c : Clients
  createOptions : Option CreateOptions
  shouldBeConnected : Bool
  maxInflightMessages : Nat
  commands : List QueuedCommand
  responses : List Nat
  commandSeqno : Nat
  noBufferedMessages : Int
  messageQueue : List QueueEntry
  qentrySeqno : Nat
  sending : Sending
  phase : Phase
  history : List AsyncEvent
  deriving DecidableEq

namespace MQTTAsyncs

/-- Record an event. -/
def log (s : MQTTAsyncs) (event : AsyncEvent) : MQTTAsyncs :=
  { s with history := event :: s.history }

end MQTTAsyncs

/-- `PERSISTENCE_SEQNO_LIMIT`. -/
def seqnoLimit : Nat := 1000000

/-- The sequence number after `seqno`. -/
def nextSeqno (seqno : Nat) : Nat :=
  if seqno + 1 = seqnoLimit then 0 else seqno + 1

end Paho
