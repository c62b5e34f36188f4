import Paho.Codec.CommandRecords
import Paho.Codec.ServerPackets
import Paho.Library.Layout

/-!
# Packets that the client writes into one buffer

`MQTTPacket_send_connect`, `MQTTPacket_send_subscribe`, `MQTTPacket_send_unsubscribe` and
`MQTTPacket_send_disconnect` up to their calls of `MQTTPacket_send`, and the layouts of these
packets. The storage is not refused.
-/

namespace Paho

open MQTTPacket

/-- A string whose length fits into two bytes. -/
abbrev ShortString := { string : CString // string.bytes.length ≤ 65535 }

/-- Binary data whose length fits into two bytes. -/
abbrev ShortData := { data : Bytes // data.length ≤ 65535 }

/-- A list of properties that was built by successful calls, each with a form on the wire. -/
abbrev BuiltList := { props : PropertyList // props.Built }

/-- `willMessages`, after the check of the QoS. -/
structure WillMessages where
  topic : ShortString
  payload : ShortData
  retained : Int
  qos : Nat
  qos_le : qos ≤ 2

/-- What `MQTTPacket_send_connect` uses of a client, and its other parameters. -/
structure ConnectCall where
  clientID : ShortString
  username : Option ShortString
  password : Option ShortData
  cleansession : Bool
  cleanstart : Bool
  keepAliveInterval : Int
  will : Option WillMessages
  mqttVersion : Nat
  known : mqttVersion = mqttVersion31 ∨ mqttVersion = mqttVersion311 ∨ mqttVersion = mqttVersion5
  connectProperties : Option BuiltList
  willProperties : Option BuiltList

/-- An element of the list of topics, with that of the list of QoSs, after the check of the QoS. -/
structure TopicAndQoS where
  topic : ShortString
  qos : Nat
  qos_le : qos ≤ 2

/-- The parameters of `MQTTPacket_send_subscribe`. The array `opts` is as long as the lists. -/
structure SubscribeCall where
  topics : List TopicAndQoS
  opts : Option (Nat → MQTTSubscribeOptions)
  props : Option BuiltList
  msgid : Nat
  msgid_le : msgid ≤ 65535
  dup : Bool
  mqttVersion : Nat

/-- The parameters of `MQTTPacket_send_unsubscribe`. -/
structure UnsubscribeCall where
  topics : List ShortString
  props : Option BuiltList
  msgid : Nat
  msgid_le : msgid ≤ 65535
  dup : Bool
  mqttVersion : Nat

/-- The parameters of `MQTTPacket_send_disconnect`. -/
structure DisconnectCall where
  reason : UInt8
  props : Option BuiltList
  mqttVersion : Nat

/-- The arguments of `MQTTPacket_send`: the header, the bytes that were written into the buffer, and
the length of the buffer. -/
structure Outgoing where
  header : Header
  buffer : Bytes
  len : Nat

/-- The `flags` of `Connect`. -/
structure ConnectFlags where
  cleanstart : Bool
  will : Bool
  willQoS : Nat
  willRetain : Bool
  password : Bool
  username : Bool
  deriving DecidableEq, Repr

namespace ConnectFlags

/-- `flags.all`: the lowest bit is not used. -/
def all (flags : ConnectFlags) : UInt8 :=
  UInt8.ofNat
    (2 * flags.cleanstart.toNat + 4 * flags.will.toNat + 8 * (flags.willQoS % 4) +
      32 * flags.willRetain.toNat + 64 * flags.password.toNat + 128 * flags.username.toNat)

/-- The bits of the connect flags. -/
def ofByte (byte : UInt8) : ConnectFlags where
  cleanstart := byte.toNat / 2 % 2 == 1
  will := byte.toNat / 4 % 2 == 1
  willQoS := byte.toNat / 8 % 4
  willRetain := byte.toNat / 32 % 2 == 1
  password := byte.toNat / 64 % 2 == 1
  username := byte.toNat / 128 == 1

end ConnectFlags

namespace MQTTPacket

/-- `CONNECT` and the other types, as numbers. -/
def connectType : Nat := 1
def subscribeType : Nat := 8
def unsubscribeType : Nat := 10

/-- `writeInt` of an `int`. -/
def writeSigned (anInt : Int) : Bytes :=
  [UInt8.ofInt (anInt.tdiv 256), UInt8.ofInt (anInt.tmod 256)]

/-- `writeUTF`. -/
def writeUTF (string : ShortString) : Bytes :=
  writeInt string.val.bytes.length ++ string.val.bytes

/-- `writeData`. -/
def writeData (data : Bytes) : Bytes :=
  writeInt data.length ++ data

/-- `MQTTProperties_len`. -/
def propertiesLen : Option BuiltList → Nat
  | none => 1
  | some props => props.val.len

/-- `MQTTProperties_write`. -/
def writeProperties : Option BuiltList → Bytes
  | none => encode 0
  | some props => props.val.write

section Connect

variable (call : ConnectCall)

/-- The name and the version of the protocol. -/
def writeProtocol (mqttVersion : Nat) : Bytes :=
  if mqttVersion = mqttVersion31 then
    writeData [77, 81, 73, 115, 100, 112] ++ [UInt8.ofNat mqttVersion31]
  else writeData [77, 81, 84, 84] ++ [UInt8.ofNat mqttVersion]

/-- `packet.flags` in `MQTTPacket_send_connect`. -/
def connectFlags : ConnectFlags where
  cleanstart := if mqttVersion5 ≤ call.mqttVersion then call.cleanstart else call.cleansession
  will := call.will.isSome
  willQoS := call.will.elim 0 (·.qos)
  willRetain := call.will.elim false (·.retained % 2 == 1)
  password := call.password.isSome
  username := call.username.isSome

/-- `len` in `MQTTPacket_send_connect`. -/
def connectLen : Nat :=
  (if call.mqttVersion = mqttVersion31 then 12 else 10) + (call.clientID.val.bytes.length + 2) +
    call.will.elim 0 (fun will => will.topic.val.bytes.length + 2 + (will.payload.val.length + 2)) +
    call.username.elim 0 (fun username => username.val.bytes.length + 2) +
    call.password.elim 0 (fun password => password.val.length + 2) +
    if mqttVersion5 ≤ call.mqttVersion then
      propertiesLen call.connectProperties +
        if call.will.isSome then propertiesLen call.willProperties else 0
    else 0

/-- What is written for the will message. -/
def writeWill (will : WillMessages) : Bytes :=
  (if mqttVersion5 ≤ call.mqttVersion then writeProperties call.willProperties else []) ++
    (writeUTF will.topic ++ writeData will.payload.val)

/-- `MQTTPacket_send_connect`, for a known version. -/
def sendConnect : Outgoing where
  header := ⟨connectType, false, 0, false⟩
  buffer :=
    writeProtocol call.mqttVersion ++ ([(connectFlags call).all] ++
      (writeSigned call.keepAliveInterval ++
        ((if mqttVersion5 ≤ call.mqttVersion then writeProperties call.connectProperties else []) ++
          (writeUTF call.clientID ++ (call.will.elim [] (writeWill call) ++
            (call.username.elim [] writeUTF ++
              call.password.elim [] fun password => writeData password.val))))))
  len := connectLen call

end Connect

/-- `subopts` in `MQTTPacket_send_subscribe`, with the options that are taken into account. -/
def subopts (qos : Nat) : Option MQTTSubscribeOptions → UInt8
  | none => UInt8.ofNat qos
  | some opts =>
      UInt8.ofNat qos ||| opts.noLocal <<< 2 ||| opts.retainAsPublished <<< 3 |||
        opts.retainHandling <<< 4

/-- The options for a topic. -/
def topicOpts (call : SubscribeCall) (i : Nat) : Option MQTTSubscribeOptions :=
  if mqttVersion5 ≤ call.mqttVersion then call.opts.map (· i) else none

/-- `MQTTPacket_send_subscribe`. -/
def sendSubscribe (call : SubscribeCall) : Outgoing where
  header := ⟨subscribeType, call.dup, 1, false⟩
  buffer :=
    writeInt call.msgid ++
      ((if mqttVersion5 ≤ call.mqttVersion then writeProperties call.props else []) ++
        call.topics.zipIdx.flatMap fun (topic, i) =>
          writeUTF topic.topic ++ [subopts topic.qos (topicOpts call i)])
  len :=
    2 + call.topics.length * 3 + (call.topics.map (·.topic.val.bytes.length)).sum +
      if mqttVersion5 ≤ call.mqttVersion then propertiesLen call.props else 0

/-- `MQTTPacket_send_unsubscribe`. -/
def sendUnsubscribe (call : UnsubscribeCall) : Outgoing where
  header := ⟨unsubscribeType, call.dup, 1, false⟩
  buffer :=
    writeInt call.msgid ++
      ((if mqttVersion5 ≤ call.mqttVersion then writeProperties call.props else []) ++
        call.topics.flatMap writeUTF)
  len :=
    2 + call.topics.length * 2 + (call.topics.map (·.val.bytes.length)).sum +
      if mqttVersion5 ≤ call.mqttVersion then propertiesLen call.props else 0

/-- `MQTTPacket_send_disconnect`. -/
def sendDisconnect (call : DisconnectCall) : Outgoing :=
  let header : Header := ⟨disconnectType, false, 0, false⟩
  if mqttVersion5 ≤ call.mqttVersion ∧ (call.props.isSome ∨ call.reason ≠ 0) then
    { header := header
      buffer := [call.reason] ++ call.props.elim [] fun props => props.val.write
      len := 1 + call.props.elim 0 fun props => props.val.len }
  else { header := header, buffer := [], len := 0 }

end MQTTPacket

/-! ## Layouts -/

/-- The will of a CONNECT. -/
structure WillFields where
  qos : Nat
  retained : Int
  properties : Option PropertyList
  topic : Bytes
  payload : Bytes
  deriving DecidableEq, Repr

/-- The fields of a CONNECT. There are no properties before MQTT 5. -/
structure ConnectFields where
  cleanstart : Bool
  keepAliveInterval : Int
  properties : Option PropertyList
  clientID : Bytes
  will : Option WillFields
  username : Option Bytes
  password : Option Bytes
  deriving DecidableEq, Repr

/-- A subscription in a SUBSCRIBE. Before MQTT 5 the options are 0. -/
structure SubscriptionFields where
  topic : Bytes
  qos : Nat
  noLocal : Nat
  retainAsPublished : Nat
  retainHandling : Nat
  deriving DecidableEq, Repr

/-- The fields of a SUBSCRIBE or an UNSUBSCRIBE. -/
structure TopicsFields (Topic : Type) where
  msgId : Nat
  properties : Option PropertyList
  topics : List Topic
  deriving DecidableEq, Repr

/-- The fields of a DISCONNECT of MQTT 5. -/
structure DisconnectFields where
  reason : UInt8
  properties : PropertyList
  deriving DecidableEq, Repr

namespace ClientLayout

open Layout

/-- One byte. -/
def byte : Layout UInt8 UInt8 :=
  fun symbols value => symbols = [value]

/-- Two bytes, the most significant first. -/
def twoBytes : Layout UInt8 Nat :=
  fun symbols value => ∃ first second : UInt8,
    symbols = [first, second] ∧ value = 256 * first.toNat + second.toNat

/-- Bytes that are always the same. -/
def constant (bytes : Bytes) : Layout UInt8 Unit :=
  fun symbols _ => symbols = bytes

/-- Whether a packet has properties. -/
def isFive (mqttVersion : Nat) : Bool :=
  mqttVersion5 ≤ mqttVersion

/-- The protocol name in front of the version: MQIsdp in version 3.1, and MQTT in the others. -/
def protocol (mqttVersion : Nat) : Bytes :=
  if mqttVersion = mqttVersion31 then [0, 6, 77, 81, 73, 115, 100, 112, 3]
  else [0, 4, 77, 81, 84, 84, UInt8.ofNat mqttVersion]

/-- The will, behind the client identifier. -/
def will (mqttVersion : Nat) (flags : ConnectFlags) : Layout UInt8 WillFields :=
  andThen (optional (isFive mqttVersion) IsList) fun properties =>
    andThen LenString fun topic =>
      andThen LenString fun payload =>
        ret ⟨flags.willQoS, flags.willRetain.toNat, properties, topic, payload⟩

/-- The body of a CONNECT. The lowest bit of the flags is 0, and without a will so are its QoS and
its retain flag. -/
def connect (mqttVersion : Nat) : Layout UInt8 ConnectFields :=
  andThen (constant (protocol mqttVersion)) fun _ =>
    andThen byte fun flagsByte =>
      let flags := ConnectFlags.ofByte flagsByte
      andThen twoBytes fun keepAlive =>
        andThen (optional (isFive mqttVersion) IsList) fun properties =>
          andThen LenString fun clientID =>
            andThen (optional flags.will (will mqttVersion flags)) fun will =>
              andThen (optional flags.username LenString) fun username =>
                andThen (optional flags.password LenString) fun password =>
                  check
                    (flagsByte.toNat % 2 = 0 ∧
                      (flags.will = false → flags.willQoS = 0 ∧ flags.willRetain = false))
                    ⟨flags.cleanstart, keepAlive, properties, clientID, will, username, password⟩

/-- A topic filter and its options: the QoS, and in MQTT 5 two flags and the retain handling. The
other bits are 0. -/
def subscription (mqttVersion : Nat) : Layout UInt8 SubscriptionFields :=
  andThen LenString fun topic =>
    andThen byte fun options =>
      check (options.toNat < if mqttVersion5 ≤ mqttVersion then 64 else 4)
        ⟨topic, options.toNat % 4, options.toNat / 4 % 2, options.toNat / 8 % 2,
          options.toNat / 16⟩

/-- A packet identifier, in MQTT 5 properties, and topics up to the end. -/
def topics {Topic : Type} (mqttVersion : Nat) (topic : Layout UInt8 Topic) :
    Layout UInt8 (TopicsFields Topic) :=
  andThen twoBytes fun msgId =>
    andThen (optional (isFive mqttVersion) IsList) fun properties =>
      andThen (Many topic) fun topics => ret ⟨msgId, properties, topics⟩

/-- The body of a DISCONNECT, without fields before MQTT 5. The reason code is 0 when it is left
out, and there are no properties when they are left out. -/
inductive Disconnect (mqttVersion : Nat) : Layout UInt8 (Option DisconnectFields)
  | early (early : mqttVersion < mqttVersion5) : Disconnect mqttVersion [] none
  | success (five : mqttVersion5 ≤ mqttVersion) :
      Disconnect mqttVersion [] (some ⟨0, .initializer⟩)
  | reason (five : mqttVersion5 ≤ mqttVersion) (reason : UInt8) :
      Disconnect mqttVersion [reason] (some ⟨reason, .initializer⟩)
  | properties (five : mqttVersion5 ≤ mqttVersion) (reason : UInt8) {part : Bytes}
      {list : PropertyList} (isList : IsList part list) :
      Disconnect mqttVersion (reason :: part) (some ⟨reason, list⟩)

/-- A packet: its header byte, the remaining length in at most four bytes, and a body that has this
length. -/
def packet {Fields : Type} (type : Nat) (body : Layout UInt8 Fields) :
    Layout UInt8 (Header × Fields) :=
  fun symbols value => ∃ first field rest,
    symbols = first :: (field ++ rest) ∧ value.1 = Header.ofByte first ∧ value.1.type = type ∧
      VBI field rest.length ∧ field.length ≤ 4 ∧ body rest value.2

end ClientLayout

/-! ## Packets that are read back -/

/-- The buffer is filled exactly, and what is sent is read back as the header and these fields. -/
def Outgoing.Exact {Fields : Type} (outgoing : Outgoing) (type : Nat) (body : Layout UInt8 Fields)
    (fields : Fields) : Prop :=
  outgoing.buffer.length = outgoing.len ∧
    ∃ sent, sends outgoing.header [⟨outgoing.buffer, outgoing.len⟩] = some sent ∧
      Layout.ReadsBack (ClientLayout.packet type body) sent (outgoing.header, fields)

/-- The properties of a packet of this version; `NULL` is the empty list. -/
def sentProperties (mqttVersion : Nat) (props : Option BuiltList) : Option PropertyList :=
  if mqttVersion5 ≤ mqttVersion then some (props.elim .initializer (·.val)) else none

/-- The fields of the CONNECT. -/
def ConnectCall.fields (call : ConnectCall) : ConnectFields where
  cleanstart := if mqttVersion5 ≤ call.mqttVersion then call.cleanstart else call.cleansession
  keepAliveInterval := call.keepAliveInterval
  properties := sentProperties call.mqttVersion call.connectProperties
  clientID := call.clientID.val.bytes
  will := call.will.map fun will =>
    { qos := will.qos
      retained := will.retained
      properties := sentProperties call.mqttVersion call.willProperties
      topic := will.topic.val.bytes
      payload := will.payload.val }
  username := call.username.map (·.val.bytes)
  password := call.password.map (·.val)

/-- The fields for a topic and its number. -/
def SubscribeCall.subscription (call : SubscribeCall) (topic : TopicAndQoS × Nat) :
    SubscriptionFields where
  topic := topic.1.topic.val.bytes
  qos := topic.1.qos
  noLocal := (topicOpts call topic.2).elim 0 (·.noLocal.toNat)
  retainAsPublished := (topicOpts call topic.2).elim 0 (·.retainAsPublished.toNat)
  retainHandling := (topicOpts call topic.2).elim 0 (·.retainHandling.toNat)

/-- The fields of the SUBSCRIBE. -/
def SubscribeCall.fields (call : SubscribeCall) : TopicsFields SubscriptionFields where
  msgId := call.msgid
  properties := sentProperties call.mqttVersion call.props
  topics := call.topics.zipIdx.map call.subscription

/-- The fields of the UNSUBSCRIBE. -/
def UnsubscribeCall.fields (call : UnsubscribeCall) : TopicsFields Bytes where
  msgId := call.msgid
  properties := sentProperties call.mqttVersion call.props
  topics := call.topics.map (·.val.bytes)

/-- The fields of the DISCONNECT. -/
def DisconnectCall.fields (call : DisconnectCall) : Option DisconnectFields :=
  if mqttVersion5 ≤ call.mqttVersion then
    some ⟨call.reason, call.props.elim .initializer (·.val)⟩
  else none

end Paho
