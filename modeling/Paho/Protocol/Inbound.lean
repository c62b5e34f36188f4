import Paho.Protocol.Connection

/-!
# The inbound side of a session

Received PUBLISH and PUBREL packets: what `MQTTPacket_Factory` puts in the store, and the
handlers of `MQTTProtocolClient.c`.
-/

namespace Paho

namespace MQTTPacket

/-- What `MQTTPacket_Factory` does with a packet after parsing it: a PUBLISH of QoS 2 is put
in the store under a publish-received key. -/
def persistReceived (c : Clients) (publish : Publish) : Clients :=
  if publish.qos = 2 then
    MQTTPersistence.putPacket c (.publish publish) .publish publish.msgId 1 publish.mqttVersion
  else c

end MQTTPacket

namespace MQTTProtocol

/-- `Protocol_processPublication`: the publication goes to the application. -/
def processPublication (c : Clients) (publish : Publish) : Clients :=
  c.log (.processed publish)

/-- The message that `MQTTProtocol_handlePublishes` makes of a PUBLISH of QoS 2. -/
def receivedMessage (publish : Publish) : Messages :=
  { qos := publish.qos
    retain := publish.retain
    msgid := publish.msgId
    mqttVersion := publish.mqttVersion
    properties := if mqttVersion5 ≤ publish.mqttVersion then publish.properties else []
    publish := some (storePublication publish)
    lastTouch := 0
    nextMessageType := some .pubrel }

/-- The publication built from a message, as the handlers pass it on. -/
def publicationOf (m : Messages) : Publish :=
  { dup := false
    qos := m.qos
    retain := m.retain
    topic := m.publish.bind Publications.topic
    msgId := m.msgid
    payload := m.publish.bind Publications.payload
    mqttVersion := m.mqttVersion
    properties := if mqttVersion5 ≤ m.mqttVersion then m.properties else [] }

/-- Put a message in `inboundMsgs`, in the place of a message that has its id already. -/
def storeInbound (c : Clients) (m : Messages) : Clients :=
  if (findMessage c.inboundMsgs m.msgid).isSome then
    { c with inboundMsgs := updateMessage c.inboundMsgs m.msgid fun _ => m }
  else { c with inboundMsgs := c.inboundMsgs ++ [m] }

/-- `MQTTProtocol_handlePublishes`. From version 5 on, the publication is passed on when it
first arrives and only its id is kept. -/
def handlePublishes (c : Clients) (publish : Publish) : CompletionCode × Clients :=
  let c := c.log (.receivedPublish publish)
  match publish.qos with
  | 0 => (.complete, processPublication c publish)
  | 1 => acknowledge (processPublication c publish) publish.mqttVersion .puback publish.msgId
  | 2 =>
      let m := receivedMessage publish
      let alreadyReceived := (findMessage c.inboundMsgs m.msgid).isSome
      let c :=
        if mqttVersion5 ≤ m.mqttVersion ∧ alreadyReceived = false then
          processPublication (storeInbound c { m with publish := none }) (publicationOf m)
        else storeInbound c m
      acknowledge c publish.mqttVersion .pubrec publish.msgId
  | _ => (.complete, c)

/-- What PUBREL does to the message it releases: before version 5 the publication is passed on,
and in any case the message and its record go. -/
def releaseInbound (c : Clients) (m : Messages) (msgId : Nat) : Clients :=
  let c := if mqttVersion5 ≤ m.mqttVersion then c else processPublication c (publicationOf m)
  { MQTTPersistence.remove c .publishReceived msgId with
    inboundMsgs := removeMessage c.inboundMsgs msgId }

/-- `MQTTProtocol_handlePubrels`. PUBCOMP is sent whether or not the id is known. -/
def handlePubrels (c : Clients) (msgId : Nat) : CompletionCode × Clients :=
  let c := c.log (.received .pubrel msgId)
  match findMessage c.inboundMsgs msgId with
  | none => acknowledge c c.mqttVersion .pubcomp msgId
  | some m =>
      if m.qos ≠ 2 then acknowledge c c.mqttVersion .pubcomp msgId
      else if m.nextMessageType ≠ some .pubrel then acknowledge c c.mqttVersion .pubcomp msgId
      else acknowledge (releaseInbound c m msgId) c.mqttVersion .pubcomp msgId

end MQTTProtocol

end Paho
