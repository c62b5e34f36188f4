import Mathlib.Data.List.Basic

/-!
# Packets as the protocol code sees them

The packet types, the completion codes of a socket write, and the in-memory form of the
packets that the session code reads and writes. A pointer of the source that may be `NULL`
is an `Option`; lengths that the source keeps next to a buffer are the lengths of the lists.
-/

namespace Paho

/-- The bytes of a buffer. -/
abbrev Bytes := List UInt8

/-- `enum msgTypes`. -/
inductive PacketType where
  | connect
  | connack
  | publish
  | puback
  | pubrec
  | pubrel
  | pubcomp
  | subscribe
  | suback
  | unsubscribe
  | unsuback
  | pingreq
  | pingresp
  | disconnect
  | auth
  deriving DecidableEq, Repr

/-- The completion codes of a socket operation: `TCPSOCKET_COMPLETE`,
`TCPSOCKET_INTERRUPTED` and `SOCKET_ERROR`. -/
inductive CompletionCode where
  | complete
  | interrupted
  | socketError
  deriving DecidableEq, Repr

/-- The value part of an MQTT 5 property, by the type of its identifier. -/
inductive MQTTPropertyValue where
  | byte (value : Nat)
  | integer2 (value : Nat)
  | integer4 (value : Nat)
  | variableByteInteger (value : Nat)
  | data (value : Bytes)
  | string (value : Bytes)
  | stringPair (name value : Bytes)
  deriving DecidableEq, Repr

structure MQTTProperty where
  identifier : Nat
  value : MQTTPropertyValue
  deriving DecidableEq, Repr

abbrev MQTTProperties := List MQTTProperty

/-- The version number from which a packet carries properties and reason codes. -/
def mqttVersion5 : Nat := 5

/-- The version number of MQTT 3.1.1. -/
def mqttVersion311 : Nat := 4

/-- `MQTTVERSION_3_1`. -/
def mqttVersion31 : Nat := 3

/-- `MQTTREASONCODE_UNSPECIFIED_ERROR`, the first reason code that reports an error. -/
def reasonCodeUnspecifiedError : Nat := 128

/-- The largest message id. -/
def maxMsgId : Nat := 65535

/-- `Publish`: a PUBLISH packet in memory. -/
structure Publish where
  dup : Bool
  qos : Nat
  retain : Bool
  topic : Option Bytes
  msgId : Nat
  payload : Option Bytes
  mqttVersion : Nat
  properties : MQTTProperties
  deriving DecidableEq, Repr

/-- A publication as it is passed on: the DUP flag concerns the packet only. -/
def Publish.content (publish : Publish) : Publish :=
  { publish with dup := false }

namespace Session

/-- A publication as the application hands it over. -/
structure Message where
  topic : Bytes
  payload : Bytes
  qos : Nat
  retained : Bool
  properties : MQTTProperties
  deriving DecidableEq, Repr

end Session

end Paho
