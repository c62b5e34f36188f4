import Paho.Codec.PublishPackets
import Paho.Codec.ReceivedProperties

/-!
# Packets from the server

`MQTTPacket_connack`, `MQTTPacket_suback`, `MQTTPacket_unsuback` and `MQTTPacket_ack`, which
`new_packets` selects by the type in the header byte, and the layouts of the packets that they read.
The storage is not refused.
-/

namespace Paho

open PropertyReader

/-- The fields of `Connack`, `Suback`, `Unsuback` and `Ack`. A field that the function leaves as it
was allocated is `none`, and so is a list that is `NULL`. -/
inductive ServerContent where
  | connack (flags rc : Nat) (properties : Option PropertyList)
  | suback (msgId : Nat) (properties : Option PropertyList) (qoss : List Nat)
  | unsuback (msgId : Nat) (properties : Option PropertyList) (reasonCodes : Option (List Nat))
  | ack (msgId rc : Option Nat) (properties : Option PropertyList)
  deriving DecidableEq, Repr

/-- A packet from the server, with the fields that all of them have. -/
structure ServerPacket where
  mqttVersion : Nat
  header : UInt8
  content : ServerContent
  deriving DecidableEq, Repr

namespace MQTTPacket

/-- `CONNACK` and the other packet types, as numbers. -/
def connackType : Nat := 2
def subackType : Nat := 9
def unsubackType : Nat := 11
def disconnectType : Nat := 14
def authType : Nat := 15

/-- The types that have the layout of a PUBACK. -/
def ackTypes : List Nat := [4, 5, 6, 7]

/-- A call of `MQTTProperties_read` and what is done after it with the properties and the bytes that
are left. A read past the end has no outcome. -/
def readPropertiesThen (curdata : Bytes) (after : PropertyList → Bytes → Parsed ServerContent) :
    Option (Parsed ServerContent) :=
  match readList curdata with
  | some (.taken properties n) => some (after properties (curdata.drop n))
  | some (.failed _) => some .bad
  | _ => none

/-- `MQTTPacket_connack`. -/
def connack (mqttVersion : Nat) (data : Bytes) : Option (Parsed ServerContent) :=
  match data with
  | flags :: rc :: curdata =>
      if mqttVersion5 ≤ mqttVersion ∧ 2 < data.length then
        readPropertiesThen curdata fun properties _ =>
          .pack (.connack flags.toNat rc.toNat (some properties))
      else some (.pack (.connack flags.toNat rc.toNat none))
  | _ => some .bad

/-- `MQTTPacket_suback`. -/
def suback (mqttVersion : Nat) (data : Bytes) : Option (Parsed ServerContent) :=
  match data with
  | first :: second :: curdata =>
      let msgId := 256 * first.toNat + second.toNat
      if mqttVersion5 ≤ mqttVersion then
        readPropertiesThen curdata fun properties curdata =>
          if curdata = [] then .bad
          else .pack (.suback msgId (some properties) (curdata.map UInt8.toNat))
      else if curdata = [] then some .bad
      else some (.pack (.suback msgId none (curdata.map UInt8.toNat)))
  | _ => some .bad

/-- `MQTTPacket_unsuback`. -/
def unsuback (mqttVersion : Nat) (data : Bytes) : Option (Parsed ServerContent) :=
  match data with
  | first :: second :: curdata =>
      let msgId := 256 * first.toNat + second.toNat
      if mqttVersion5 ≤ mqttVersion then
        readPropertiesThen curdata fun properties curdata =>
          if curdata = [] then .bad
          else .pack (.unsuback msgId (some properties) (some (curdata.map UInt8.toNat)))
      else some (.pack (.unsuback msgId none none))
  | _ => some .bad

/-- The part of `MQTTPacket_ack` behind the message id; `afterRc` and `afterProperties` are the
lengths beyond which there is a reason code and there are properties. -/
def ackTail (mqttVersion afterRc datalen : Nat) (msgId : Option Nat) (curdata : Bytes) :
    Option (Parsed ServerContent) :=
  if mqttVersion5 ≤ mqttVersion then
    if afterRc < datalen then
      match curdata with
      | rc :: curdata =>
          if afterRc + 1 < datalen then
            readPropertiesThen curdata fun properties _ =>
              .pack (.ack msgId (some rc.toNat) (some properties))
          else some (.pack (.ack msgId (some rc.toNat) (some .initializer)))
      | [] => none
    else some (.pack (.ack msgId (some 0) (some .initializer)))
  else some (.pack (.ack msgId none none))

/-- `MQTTPacket_ack`. Only a DISCONNECT has no message id. -/
def ack (mqttVersion type : Nat) (data : Bytes) : Option (Parsed ServerContent) :=
  if type = disconnectType then ackTail mqttVersion 0 data.length none data
  else
    match data with
    | first :: second :: curdata =>
        ackTail mqttVersion 2 data.length (some (256 * first.toNat + second.toNat)) curdata
    | _ => some .bad

/-- The entries of `new_packets` for these packets, by the type in the header byte. -/
def serverContent (mqttVersion type : Nat) (data : Bytes) : Option (Parsed ServerContent) :=
  if type = connackType then connack mqttVersion data
  else if type = subackType then suback mqttVersion data
  else if type = unsubackType then unsuback mqttVersion data
  else if type ∈ ackTypes ∨ type = disconnectType ∨ type = authType then
    MQTTPacket.ack mqttVersion type data
  else some .unknown

/-- A packet as the entry of `new_packets` for its header byte returns it. -/
def serverPacket (mqttVersion : Nat) (aHeader : UInt8) (data : Bytes) :
    Option (Parsed ServerPacket) :=
  (serverContent mqttVersion (Header.ofByte aHeader).type data).map fun
    | .pack content => .pack ⟨mqttVersion, aHeader, content⟩
    | .bad => .bad
    | .unknown => .unknown

/-- The types of the packets from the server that have a body, without PUBLISH. -/
def IsServerType (type : Nat) : Prop :=
  type = connackType ∨ type = subackType ∨ type = unsubackType ∨ type ∈ ackTypes ∨
    type = disconnectType ∨ type = authType

end MQTTPacket

/-! ## The layouts -/

/-- These bytes are a property list. -/
def IsList (bytes : Bytes) (list : PropertyList) : Prop :=
  BeginsWithList bytes list bytes.length

open MQTTPacket

/-- The body of a PUBACK, PUBREC, PUBREL or PUBCOMP. -/
inductive IsAckBody (mqttVersion : Nat) : Bytes → ServerContent → Prop
  | early (early : mqttVersion < mqttVersion5) (first second : UInt8) :
      IsAckBody mqttVersion [first, second]
        (.ack (some (256 * first.toNat + second.toNat)) none none)
  | success (five : mqttVersion5 ≤ mqttVersion) (first second : UInt8) :
      IsAckBody mqttVersion [first, second]
        (.ack (some (256 * first.toNat + second.toNat)) (some 0) (some .initializer))
  | reason (five : mqttVersion5 ≤ mqttVersion) (first second rc : UInt8) :
      IsAckBody mqttVersion [first, second, rc]
        (.ack (some (256 * first.toNat + second.toNat)) (some rc.toNat) (some .initializer))
  | properties (five : mqttVersion5 ≤ mqttVersion) (first second rc : UInt8) {part : Bytes}
      {list : PropertyList} (isList : IsList part list) :
      IsAckBody mqttVersion (first :: second :: rc :: part)
        (.ack (some (256 * first.toNat + second.toNat)) (some rc.toNat) (some list))

/-- The body of a packet of this version and type. A reason code that is left out is 0, and
properties that are left out are none. There is no AUTH before MQTT 5. -/
inductive IsBody (mqttVersion : Nat) : Nat → Bytes → ServerContent → Prop
  | connack (early : mqttVersion < mqttVersion5) (flags rc : UInt8) :
      IsBody mqttVersion connackType [flags, rc] (.connack flags.toNat rc.toNat none)
  | connackFive (five : mqttVersion5 ≤ mqttVersion) (flags rc : UInt8) {part : Bytes}
      {list : PropertyList} (isList : IsList part list) :
      IsBody mqttVersion connackType (flags :: rc :: part)
        (.connack flags.toNat rc.toNat (some list))
  | suback (early : mqttVersion < mqttVersion5) (first second : UInt8) {codes : Bytes}
      (nonempty : codes ≠ []) :
      IsBody mqttVersion subackType (first :: second :: codes)
        (.suback (256 * first.toNat + second.toNat) none (codes.map UInt8.toNat))
  | subackFive (five : mqttVersion5 ≤ mqttVersion) (first second : UInt8) {part codes : Bytes}
      {list : PropertyList} (isList : IsList part list) (nonempty : codes ≠ []) :
      IsBody mqttVersion subackType (first :: second :: (part ++ codes))
        (.suback (256 * first.toNat + second.toNat) (some list) (codes.map UInt8.toNat))
  | unsuback (early : mqttVersion < mqttVersion5) (first second : UInt8) :
      IsBody mqttVersion unsubackType [first, second]
        (.unsuback (256 * first.toNat + second.toNat) none none)
  | unsubackFive (five : mqttVersion5 ≤ mqttVersion) (first second : UInt8) {part codes : Bytes}
      {list : PropertyList} (isList : IsList part list) (nonempty : codes ≠ []) :
      IsBody mqttVersion unsubackType (first :: second :: (part ++ codes))
        (.unsuback (256 * first.toNat + second.toNat) (some list) (some (codes.map UInt8.toNat)))
  | ack {type : Nat} {body : Bytes} {content : ServerContent} (isAck : type ∈ ackTypes)
      (isBody : IsAckBody mqttVersion body content) : IsBody mqttVersion type body content
  | disconnect (early : mqttVersion < mqttVersion5) :
      IsBody mqttVersion disconnectType [] (.ack none none none)
  | disconnectSuccess (five : mqttVersion5 ≤ mqttVersion) :
      IsBody mqttVersion disconnectType [] (.ack none (some 0) (some .initializer))
  | disconnectReason (five : mqttVersion5 ≤ mqttVersion) (rc : UInt8) :
      IsBody mqttVersion disconnectType [rc] (.ack none (some rc.toNat) (some .initializer))
  | disconnectFive (five : mqttVersion5 ≤ mqttVersion) (rc : UInt8) {part : Bytes}
      {list : PropertyList} (isList : IsList part list) :
      IsBody mqttVersion disconnectType (rc :: part) (.ack none (some rc.toNat) (some list))
  | authSuccess (five : mqttVersion5 ≤ mqttVersion) :
      IsBody mqttVersion authType [] (.ack none (some 0) (some .initializer))
  | authFive (five : mqttVersion5 ≤ mqttVersion) (rc : UInt8) {part : Bytes} {list : PropertyList}
      (isList : IsList part list) :
      IsBody mqttVersion authType (rc :: part) (.ack none (some rc.toNat) (some list))

end Paho
