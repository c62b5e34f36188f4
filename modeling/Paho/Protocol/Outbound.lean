import Paho.Protocol.Connection

/-!
# The outbound side of a session

Starting publications, the handlers of their acknowledgements, and the retry passes of
`MQTTProtocolClient.c`.
-/

namespace Paho

namespace MQTTProtocol

/-- The id after `msgid`. -/
def nextMsgId (msgid : Nat) : Nat :=
  if msgid = maxMsgId then 1 else msgid + 1

/-- The loop of `MQTTProtocol_assignMsgId`: 0 when the search is back where it started. The
search has no other bound in the source, so running out of fuel is not returning. -/
def searchMsgId (used : List Nat) (start : Nat) : Nat → Nat → Option Nat
  | 0, _ => none
  | fuel + 1, msgid =>
      if msgid ∈ used then
        if nextMsgId msgid = start then some 0
        else searchMsgId used start fuel (nextMsgId msgid)
      else some msgid

/-- `MQTTProtocol_assignMsgId`. -/
def assignMsgId (c : Clients) : Option (Nat × Clients) :=
  match searchMsgId (ids c.outboundMsgs) c.msgID (maxMsgId + 1) (nextMsgId c.msgID) with
  | none => none
  | some msgid => some (msgid, if msgid ≠ 0 then { c with msgID := msgid } else c)

/-- `MQTTProtocol_startPublish`. -/
def startPublish (c : Clients) (publish : Publish) (qos : Nat) (retained : Bool) :
    CompletionCode × Clients :=
  if 0 < qos then
    let m := createMessage publish qos retained c.clock
    let c :=
      { c with
        outboundMsgs := c.outboundMsgs ++ [m]
        trace := .started m.msgid qos :: c.trace }
    MQTTPacket.send_publish c { publish with properties := m.properties } false qos retained
  else
    MQTTPacket.send_publish c publish false qos retained

/-- `MQTTProtocol_handlePubacks`. -/
def handlePubacks (c : Clients) (msgId : Nat) : CompletionCode × Clients :=
  let c := c.log (.received .puback msgId)
  match findMessage c.outboundMsgs msgId with
  | none => (.complete, c)
  | some m =>
      if m.qos ≠ 1 then (.complete, c)
      else
        let c := MQTTPersistence.remove c .publishSent msgId
        (.complete, { c with outboundMsgs := removeMessage c.outboundMsgs msgId })

/-- `MQTTProtocol_handlePubrecs`. Except after an MQTT 5 error, a PUBREL is sent whether or
not the id is known. -/
def handlePubrecs (c : Clients) (msgId rc : Nat) : CompletionCode × Clients :=
  let c := c.log (.received .pubrec msgId)
  match findMessage c.outboundMsgs msgId with
  | none => acknowledge c c.mqttVersion .pubrel msgId
  | some m =>
      if m.qos ≠ 2 then acknowledge c c.mqttVersion .pubrel msgId
      else if m.nextMessageType ≠ some .pubrec then acknowledge c c.mqttVersion .pubrel msgId
      else if mqttVersion5 ≤ c.mqttVersion ∧ reasonCodeUnspecifiedError ≤ rc then
        let c := MQTTPersistence.remove c .publishSent msgId
        (.complete, { c with outboundMsgs := removeMessage c.outboundMsgs msgId })
      else
        let c :=
          { c with
            outboundMsgs := updateMessage c.outboundMsgs msgId fun m =>
              { m with nextMessageType := some .pubcomp, lastTouch := c.clock } }
        acknowledge c c.mqttVersion .pubrel msgId

/-- `MQTTProtocol_handlePubcomps`. -/
def handlePubcomps (c : Clients) (msgId : Nat) : CompletionCode × Clients :=
  let c := c.log (.received .pubcomp msgId)
  match findMessage c.outboundMsgs msgId with
  | none => (.complete, c)
  | some m =>
      if m.qos ≠ 2 then (.complete, c)
      else if m.nextMessageType ≠ some .pubcomp then (.complete, c)
      else
        let c := MQTTPersistence.remove c .publishSent msgId
        (.complete, { c with outboundMsgs := removeMessage c.outboundMsgs msgId })

/-- Set `lastTouch` of a message of which a retry pass has sent a packet. -/
def touch (c : Clients) (type : PacketType) (msgid : Nat) : Clients :=
  { c with
    outboundMsgs := updateMessage c.outboundMsgs msgid fun m => { m with lastTouch := c.clock }
    trace := .resent type msgid :: c.trace }

/-- The packet that a retry of a message sends. -/
def retryPublish (m : Messages) : Publish :=
  { dup := true
    qos := m.qos
    retain := m.retain
    topic := m.publish.bind Publications.topic
    msgId := m.msgid
    payload := m.publish.bind Publications.payload
    mqttVersion := m.mqttVersion
    properties := m.properties }

/-- The body of the loop of `MQTTProtocol_retries` for a message that is due: send its PUBLISH
or its PUBREL. An error closes the session and ends the loop, which `false` stands for. -/
def retryMessage (c : Clients) (m : Messages) : Bool × Clients :=
  if m.qos = 1 ∨ (m.qos = 2 ∧ m.nextMessageType = some .pubrec) then
    match MQTTPacket.send_publish c (retryPublish m) true m.qos m.retain with
    | (.socketError, c) => (false, closeSession { c with good := false })
    | (_, c) => (true, touch c .publish m.msgid)
  else if m.qos ≠ 0 ∧ m.nextMessageType = some .pubcomp then
    match MQTTPacket.send_ack c m.mqttVersion .pubrel m.msgid with
    | (.complete, c) => (true, touch c .pubrel m.msgid)
    | (_, c) => (false, closeSession { c with good := false })
  else (true, c)

/-- Count a resent message of a connection. -/
def countSent (c : Clients) (regardless : Bool) : Clients :=
  if regardless then { c with connectSent := c.connectSent + 1 } else c

/-- The loop of `MQTTProtocol_retries` from one message of `outboundMsgs` on. -/
def retryLoop (now : Nat) (regardless : Bool) (c : Clients) : List Messages → Clients
  | [] => c
  | m :: rest =>
      if c.connected && c.good && Socket.noPendingWrites c.net then
        if regardless || decide ((now : Int) - m.lastTouch > max c.retryInterval 10 * 1000) then
          match retryMessage (countSent c regardless) m with
          | (true, c) => retryLoop now regardless c rest
          | (false, c) => c
        else retryLoop now regardless c rest
      else c

/-- `MQTTProtocol_retries`. -/
def retries (now : Nat) (c : Clients) (regardless : Bool) : Clients :=
  if !regardless && decide (c.retryInterval ≤ 0) && c.connectSent == c.connectCount then c
  else if regardless then
    let c := { c with connectCount := c.outboundMsgs.length }
    retryLoop now true c c.outboundMsgs
  else
    retryLoop now (decide (c.connectSent < c.connectCount)) c c.outboundMsgs

/-- `MQTTProtocol_retry`, for one client. -/
def retry (now : Nat) (doRetry regardless : Bool) (c : Clients) : Clients :=
  if !c.connected then c
  else if !c.good then closeSession c
  else if !Socket.noPendingWrites c.net then c
  else if doRetry then retries now c regardless
  else c

end MQTTProtocol

end Paho
