import Paho.Async.Commands

/-!
# Messages for the application

`Protocol_processPublication` passes a publication to the callback `messageArrived`, or keeps it
in the message queue and in the store until the callback takes it.
-/

namespace Paho

namespace MQTTAsyncs

/-- The key of the record of a queue entry. -/
def queueKey (s : MQTTAsyncs) (seqno : Nat) : PersistenceKey :=
  MQTTPersistence.key .queue s.c.mqttVersion seqno

/-- `MQTTPersistence_persistQueueEntry`, when there is a store, and the new entry. The callback
`beforeWrite` is not set: under MQTT 5 the result of `MQTTProperties_write`, which is positive,
is still in `rc` and keeps the entry from being put. -/
def persistQueueEntry (s : MQTTAsyncs) (publish : Publish) : MQTTAsyncs × QueueEntry :=
  if s.c.persistence.isSome then
    let seqno := nextSeqno s.qentrySeqno
    let s := { s with qentrySeqno := seqno }
    (if mqttVersion5 ≤ s.c.mqttVersion then s
      else { s with c := s.c.putRecord (queueKey s seqno) (.queue publish) },
      ⟨publish, seqno⟩)
  else (s, ⟨publish, 0⟩)

/-- `Protocol_processPublication`. `accepts` is the answer of `messageArrived`. -/
def processPublication (s : MQTTAsyncs) (publish : Publish) (accepts : Bool) : MQTTAsyncs :=
  if s.messageQueue.isEmpty && s.c.connected && accepts then s.log (.passed publish)
  else
    let (s, entry) := persistQueueEntry s publish
    { s with messageQueue := s.messageQueue ++ [entry] }.log (.queued publish)

/-- The part of the loop of `MQTTAsync_receiveThread` that passes the first message of the queue
to `messageArrived`. -/
def deliverQueued (s : MQTTAsyncs) (accepts : Bool) : MQTTAsyncs :=
  match s.messageQueue with
  | [] => s
  | entry :: rest =>
      if accepts then
        { s with
          c := s.c.removeRecords [queueKey s entry.seqno]
          messageQueue := rest }.log (.passed entry.publish)
      else s

/-- `MQTTPersistence_insertInSeqOrder`. -/
def insertInSeqOrder (entry : QueueEntry) : List QueueEntry → List QueueEntry
  | [] => [entry]
  | first :: rest =>
      if entry.seqno < first.seqno then entry :: first :: rest
      else first :: insertInSeqOrder entry rest

/-- `MQTTPersistence_restoreMessageQueue`. -/
def restoreMessageQueue (s : MQTTAsyncs) : MQTTAsyncs :=
  let entries := s.c.recordKeys.filterMap fun key =>
    match key.stem, s.c.record key with
    | .queue, some (.queue publish) => some ⟨publish, key.number⟩
    | _, _ => none
  { s with
    messageQueue := entries.foldl (fun queue entry => insertInSeqOrder entry queue) s.messageQueue
    qentrySeqno := entries.foldl (fun seqno entry => max seqno entry.seqno) s.qentrySeqno }

/-- The publication that `MQTTProtocol_handlePublishes` passes to `Protocol_processPublication`. -/
def passesOn (c : Clients) (publish : Publish) : Option Publish :=
  match publish.qos with
  | 0 | 1 => some publish
  | 2 =>
      if mqttVersion5 ≤ publish.mqttVersion ∧
        (findMessage c.inboundMsgs publish.msgId).isSome = false
      then some (MQTTProtocol.publicationOf (MQTTProtocol.receivedMessage publish))
      else none
  | _ => none

/-- The handling of a PUBLISH after `MQTTPacket_Factory` has returned it. -/
def handlePublishes (s : MQTTAsyncs) (publish : Publish) (accepts : Bool) : MQTTAsyncs :=
  let after := { s with c := (MQTTProtocol.handlePublishes s.c publish).2, phase := .idle }
  match passesOn s.c publish with
  | some publish => processPublication after publish accepts
  | none => after

end MQTTAsyncs

end Paho
