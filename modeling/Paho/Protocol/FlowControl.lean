import Paho.Library.Run
import Paho.Protocol.Session
import Mathlib.Data.Finset.Card

/-!
# Flow control

An MQTT 5 client and the Receive Maximum of its connections. `maxInflightMessages` holds back new
publications; the retry pass of a new connection, which runs before the value of the CONNACK is
taken over, does not look at it.
-/

namespace Paho

namespace FlowControl

/-- Which of the two interfaces is used. -/
inductive Api where
  | async
  | sync
  deriving DecidableEq, Repr

/-- What matters to the Receive Maximum. -/
inductive Flow where
  /-- A CONNACK has been received. -/
  | connected (receiveMaximum : Nat)
  /-- A PUBLISH of QoS 1 or 2 has been given to the socket. -/
  | sent (msgId : Nat)
  /-- PUBACK, PUBCOMP or a PUBREC with an error has been received. -/
  | acknowledged (msgId : Nat)
  | closed
  deriving DecidableEq, Repr

/-- The ids of the publications that were sent on the current connection and are not acknowledged;
the newest event comes first. -/
def unacknowledged : List Flow → Finset Nat
  | [] => ∅
  | .connected _ :: _ => ∅
  | .closed :: _ => ∅
  | .sent msgId :: log => insert msgId (unacknowledged log)
  | .acknowledged msgId :: log => (unacknowledged log).erase msgId

/-- The Receive Maximum of the last CONNACK. -/
def receiveMaximum : List Flow → Nat
  | [] => 0
  | .connected maximum :: _ => maximum
  | _ :: log => receiveMaximum log

/-- At every moment the Receive Maximum is respected. -/
def Respects (log : List Flow) : Prop :=
  ∀ moment, moment <:+ log → (unacknowledged moment).card ≤ receiveMaximum moment

/-- The client, with what has happened. `maximum` is the Receive Maximum of the connection; without
the property it is 65535. -/
structure Client where
  api : Api
  c : Clients
  maxInflightMessages : Int
  maximum : Nat
  log : List Flow
  deriving DecidableEq

/-- Whether an event is a PUBREC with an error, when this action is carried out. -/
def isError : Session.Action → Bool
  | .receive (.pubrec _ rc) => decide (reasonCodeUnspecifiedError ≤ rc)
  | _ => false

/-- What an event of the session is here. -/
def flows (maximum : Nat) (action : Session.Action) : Event → List Flow
  | .connected => [.connected maximum]
  | .sentPublish msgId _ _ => if msgId = 0 then [] else [.sent msgId]
  | .received .puback msgId | .received .pubcomp msgId => [.acknowledged msgId]
  | .received .pubrec msgId => if isError action then [.acknowledged msgId] else []
  | _ => []

/-- The events of a step, newest first. -/
def newEvents (c c' : Clients) : List Event :=
  c'.trace.take (c'.trace.length - c.trace.length)

namespace Client

/-- The tests in `MQTTAsync_processCommand` and in `MQTTClient_publish5`. -/
def blocks (s : Client) (message : Session.Message) : Bool :=
  let count := s.c.outboundMsgs.length
  match s.api with
  | .async =>
      decide (maxMsgId - 1 ≤ count) ||
        (decide (0 < message.qos) && decide (s.maxInflightMessages ≤ count))
  | .sync => decide (s.maxInflightMessages ≤ count)

/-- The session has taken a step. -/
def account (s : Client) (action : Session.Action) (maximum : Nat) (c : Clients) : Client :=
  let log := (newEvents s.c c).flatMap (flows maximum action) ++ s.log
  { s with
    c := c
    maximum := maximum
    log := if c.connected then log else .closed :: log }

/-- `MQTTAsync_completeConnection` and what `MQTTAsync_receiveThread` does after it; in
`MQTTClient_connectURIVersion` the session is not cleaned when the server has none. -/
def connack (s : Client) (input : Session.Input) (sessionPresent : Bool)
    (receiveMaximum : Option Nat) : Client :=
  let sessionPresent :=
    match s.api with
    | .async => sessionPresent
    | .sync => true
  let c := Session.step s.c { input with action := .connect sessionPresent }
  let s := s.account (.connect sessionPresent) (receiveMaximum.getD maxMsgId) c
  match receiveMaximum with
  | none => s
  | some recvMax =>
      if c.connected = true ∧ recvMax < s.maxInflightMessages then
        { s with maxInflightMessages := recvMax }
      else s

end Client

/-- A call of the application, or what happens to the session; the CONNACK has a Receive Maximum or
none. -/
inductive Input where
  /-- `MQTTAsync_connect` or `MQTTClient_connect` takes its options. -/
  | options (maxInflight : Int) (cleanstart : Bool) (sessionExpiry : Nat)
  | session (input : Session.Input) (receiveMaximum : Option Nat)
  deriving DecidableEq, Repr

def step (s : Client) : Input → Client
  | .options maxInflight cleanstart sessionExpiry =>
      { s with
        c := { s.c with cleanstart := cleanstart, sessionExpiry := sessionExpiry }
        maxInflightMessages := maxInflight }
  | .session input receiveMaximum =>
      match input.action with
      | .connect sessionPresent =>
          if s.c.connected then s else s.connack input sessionPresent receiveMaximum
      | .publish message =>
          if !Socket.noPendingWrites s.c.net || s.blocks message then s
          else s.account input.action s.maximum (Session.step s.c input)
      | .restart _ =>
          { s.account input.action s.maximum (Session.step s.c input) with
            maxInflightMessages := 0 }
      | _ => s.account input.action s.maximum (Session.step s.c input)

/-- An MQTT 5 client before its first connection. -/
def create (api : Api) (cleansession persistent : Bool) : Client where
  api := api
  c := Session.create mqttVersion5 cleansession (if persistent then some ∅ else none)
  maxInflightMessages := 0
  maximum := 0
  log := []

end FlowControl

end Paho
