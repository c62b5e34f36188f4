import Paho.Protocol.Persistence

/-!
# Sending packets

`MQTTPacket_send`, `MQTTPacket_sends` and their callers, down to the socket: what is put in
the store before a packet is written, and what the socket answers.
-/

namespace Paho

namespace Socket

/-- `Socket_putdatas`: an error while an earlier packet is still pending, otherwise the
result of the write. An interrupted write leaves the packet pending. -/
def putdatas (net : NetworkHandles) : CompletionCode × NetworkHandles :=
  if net.pendingWrites then
    (.socketError, net)
  else
    match net.writes with
    | [] => (.complete, net)
    | rc :: writes => (rc, { pendingWrites := decide (rc = .interrupted), writes := writes })

/-- `Socket_noPendingWrites`. -/
def noPendingWrites (net : NetworkHandles) : Bool :=
  !net.pendingWrites

theorem putdatas_of_pending {net : NetworkHandles} (pending : net.pendingWrites = true) :
    putdatas net = (.socketError, net) := by
  simp [putdatas, pending]

end Socket

namespace MQTTPacket

/-- Hand a packet to the socket and record the result. -/
def write (c : Clients) (event : CompletionCode → Event) : CompletionCode × Clients :=
  let result := Socket.putdatas c.net
  (result.1, { c with net := result.2, trace := event result.1 :: c.trace })

/-- `MQTTPacket_send_ack`. A PUBREL is put in the store before it is written. -/
def send_ack (c : Clients) (mqttVersion : Nat) (type : PacketType) (msgid : Nat) :
    CompletionCode × Clients :=
  let c :=
    if type = .pubrel then MQTTPersistence.putPacket c (.pubrel msgid) type msgid 0 mqttVersion
    else c
  write c (.sentAck type msgid)

/-- `MQTTPacket_send_publish`. A PUBLISH of QoS 1 or 2 is put in the store before it is
written. -/
def send_publish (c : Clients) (publish : Publish) (dup : Bool) (qos : Nat) (retained : Bool) :
    CompletionCode × Clients :=
  let c :=
    if qos = 0 then c
    else
      MQTTPersistence.putPacket c
        (.publish { publish with dup := dup, qos := qos, retain := retained })
        .publish publish.msgId 0 publish.mqttVersion
  write c (.sentPublish publish.msgId dup)

end MQTTPacket

namespace MQTTProtocol

/-- `MQTTProtocol_queueAck`. -/
def queueAck (c : Clients) (ackType : PacketType) (msgId : Nat) : CompletionCode × Clients :=
  (.complete,
    { c with
      outboundQueue := c.outboundQueue ++ [⟨msgId, ackType⟩]
      trace := .queuedAck ackType msgId :: c.trace })

/-- Send an acknowledgement, or queue it while the socket has a pending write. -/
def acknowledge (c : Clients) (mqttVersion : Nat) (ackType : PacketType) (msgId : Nat) :
    CompletionCode × Clients :=
  if Socket.noPendingWrites c.net then MQTTPacket.send_ack c mqttVersion ackType msgId
  else queueAck c ackType msgId

/-- The loop of `MQTTProtocol_writeAvailable`: until an acknowledgement is not written
completely. -/
def sendQueuedAcks (c : Clients) : List AckRequest → Clients
  | [] => c
  | ackReq :: rest =>
      match MQTTPacket.send_ack c c.mqttVersion ackReq.ackType ackReq.messageId with
      | (.complete, c) => sendQueuedAcks c rest
      | (_, c) => c

/-- `MQTTProtocol_writeAvailable`. The queue is emptied whatever was sent. -/
def writeAvailable (c : Clients) : Clients :=
  { sendQueuedAcks c c.outboundQueue with outboundQueue := [] }

end MQTTProtocol

end Paho
