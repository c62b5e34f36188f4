import Paho.Transport.WebSocket

/-!
# Reading packets

`MQTTPacket_Factory` and `MQTTPacket_decode` of `MQTTPacket.c`. The table `new_packets`, for the
version of the client, is a parameter.
-/

namespace Paho

/-- What the table `new_packets` makes of a packet. -/
inductive Parsed (Pack : Type) where
  | pack (pack : Pack)
  /-- The function of the table returns `NULL`. -/
  | bad
  /-- There is no function for this packet type. -/
  | unknown
  deriving DecidableEq, Repr

/-- The functions of `new_packets`, applied to the header byte and the rest of the packet. -/
abbrev NewPackets (Pack : Type) := UInt8 → Bytes → Parsed Pack

/-- What a call of `MQTTPacket_Factory` returns: a packet, or none with `*error`. -/
inductive FactoryResult (Pack : Type) where
  | pack (pack : Pack)
  | none (error : CompletionCode)
  deriving DecidableEq, Repr

namespace MQTTPacket

/-- `MAX_NO_OF_REMAINING_LENGTH_BYTES`. -/
def maxRemainingLengthBytes : Nat := 4

/-- The loop of `MQTTPacket_decode`; `left` is the number of bytes that may still be read. -/
def decodeLoop (net : Net) : Nat → Transport → Nat → Nat →
    Option (CompletionCode × Nat × Net × Transport)
  | 0, t, _, value => some (.socketError, value, net, t)
  | left + 1, t, multiplier, value =>
      (WebSocket.getch t net).bind fun result =>
        match result with
        | (.complete, some c, net, t) =>
            let value := value + c.toNat % 128 * multiplier
            if 128 ≤ c.toNat then decodeLoop net left t (multiplier * 128) value
            else some (.complete, value, net, t)
        | (.complete, none, _, _) => none
        | (rc, _, net, t) => some (rc, value, net, t)

/-- `MQTTPacket_decode`. A byte that `WebSocket_getch` did not store has no value. -/
def decode (t : Transport) (net : Net) : Option (CompletionCode × Nat × Net × Transport) :=
  decodeLoop net maxRemainingLengthBytes t 1 0

/-- The end of `MQTTPacket_Factory` when it was interrupted. -/
def rewind {Pack : Type} (headerWsFramePos : Nat) (net : Net) (t : Transport) :
    Option (FactoryResult Pack × Net × Transport) :=
  (WebSocket.framePosSeekTo t headerWsFramePos).map fun t => (.none .interrupted, net, t)

/-- The end of `MQTTPacket_Factory`, by `*error`. -/
def leave {Pack : Type} (headerWsFramePos : Nat) (error : CompletionCode) (net : Net)
    (t : Transport) : Option (FactoryResult Pack × Net × Transport) :=
  match error with
  | .interrupted => rewind headerWsFramePos net t
  | error => some (.none error, net, t)

/-- What `MQTTPacket_Factory` returns for a complete packet. -/
def result {Pack : Type} (newPackets : NewPackets Pack) (header : UInt8) (data : Bytes) :
    FactoryResult Pack :=
  match newPackets header data with
  | .pack pack => .pack pack
  | .bad => .none .socketError
  | .unknown => .none .complete

/-- The part of `MQTTPacket_Factory` after its call of `WebSocket_getdata`. -/
def afterData {Pack : Type} (newPackets : NewPackets Pack) (headerWsFramePos : Nat)
    (header : UInt8) (remaining_length : Nat) (data : Option Bytes) (net : Net) (t : Transport) :
    Option (FactoryResult Pack × Net × Transport) :=
  if 0 < remaining_length ∧ data = none then some (.none .socketError, net, t)
  else if (data.getD []).length < remaining_length then rewind headerWsFramePos net t
  else some (result newPackets header ((data.getD []).take remaining_length), net, t)

/-- The part of `MQTTPacket_Factory` after its call of `MQTTPacket_decode`. -/
def afterDecode {Pack : Type} (newPackets : NewPackets Pack) (headerWsFramePos : Nat)
    (header : UInt8) (remaining_length : Nat) (net : Net) (t : Transport) :
    CompletionCode → Option (FactoryResult Pack × Net × Transport)
  | .complete =>
      (WebSocket.getdata t net remaining_length).bind fun (data, net, t) =>
        afterData newPackets headerWsFramePos header remaining_length data net t
  | error => leave headerWsFramePos error net t

/-- The part of `MQTTPacket_Factory` after its call of `WebSocket_getch`. -/
def afterHeader {Pack : Type} (newPackets : NewPackets Pack) (headerWsFramePos : Nat)
    (header : Option UInt8) (net : Net) (t : Transport) :
    CompletionCode → Option (FactoryResult Pack × Net × Transport)
  | .complete =>
      header.bind fun header =>
        (decode t net).bind fun (rc, remaining_length, net, t) =>
          afterDecode newPackets headerWsFramePos header remaining_length net t rc
  | error => leave headerWsFramePos error net t

/-- `MQTTPacket_Factory`. -/
def factory {Pack : Type} (newPackets : NewPackets Pack) (t : Transport) (net : Net) :
    Option (FactoryResult Pack × Net × Transport) :=
  (WebSocket.framePos t).bind fun headerWsFramePos =>
    (WebSocket.getch t net).bind fun (rc, header, net, t) =>
      afterHeader newPackets headerWsFramePos header net t rc

end MQTTPacket

end Paho
