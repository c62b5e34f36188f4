import Paho.Async.Steps
import Mathlib.Logic.Function.Basic

/-!
# Commands and their responses

The asynchronous client as its application sees it. A request is given a token and waits in the
queue of commands; when its packet is sent it waits in `responses` for a packet of the server
with its token; then a callback of the application is called. The operations on the store are
not cut apart here, and a call that the client refuses is no step.
-/

namespace Paho

namespace Responses

/-- The requests that wait for an answer of the server. -/
inductive Request where
  | publish (message : Session.Message)
  | subscribe
  | unsubscribe
  deriving DecidableEq, Repr

/-- Whether a request is a PUBLISH. -/
def Request.isPublish : Request → Bool
  | .publish _ => true
  | _ => false

/-- Whether a request needs an id. -/
def Request.needsMsgId : Request → Bool
  | .publish message => message.qos != 0
  | _ => true

/-- Whether `MQTTAsync_send` returns `MQTTASYNC_BAD_QOS`. -/
def Request.badQos : Request → Bool
  | .publish message => decide (2 < message.qos)
  | _ => false

/-- `MQTTAsync_queuedCommand`. The serial number counts the accepted commands. It stands for the
identity of a command and is read by no decision of the client. -/
structure QueuedCommand where
  request : Request
  token : Nat
  serial : Nat
  deriving DecidableEq, Repr

/-- Why a callback of a command is called. -/
inductive Cause where
  /-- The packet of the command is written. -/
  | written
  /-- PUBACK, PUBREC or PUBCOMP was handled; it took the message of this publication off
  `outboundMsgs`, if any. -/
  | acknowledged (removed : Option Nat)
  | suback (msgId : Nat)
  | unsuback (msgId : Nat)
  /-- The command is given up: `MQTTASYNC_OPERATION_INCOMPLETE` or a socket error. -/
  | abandoned
  deriving DecidableEq, Repr

/-- The calls of callbacks. -/
inductive Callback where
  | deliveryComplete (msgId : Nat) (removed : Option Nat)
  | onSuccess (command : QueuedCommand) (cause : Cause)
  | onFailure (command : QueuedCommand) (cause : Cause)
  deriving DecidableEq, Repr

/-- The fields of `MQTTAsyncs` that completions depend on. `owner` and `callbacks` are a record
of what happened: the publication whose message is in flight under an id, and the callbacks that
were called, newest first. -/
structure MQTTAsyncs where
  c : Clients
  maxInflightMessages : Nat
  commands : List QueuedCommand
  responses : List QueuedCommand
  /-- The serial number of the command that `pending_write` points to. -/
  pendingWrite : Option Nat
  accepted : Nat
  owner : Nat → Nat
  callbacks : List Callback

/-- A packet from the server. The reason codes of acknowledgements are those of MQTT 5. -/
inductive Packet where
  | publish (dup : Bool) (message : Session.Message) (msgId : Nat)
  | puback (msgId rc : Nat)
  | pubrec (msgId rc : Nat)
  | pubrel (msgId : Nat)
  | pubcomp (msgId rc : Nat)
  | suback (msgId : Nat) (qoss : List Nat)
  | unsuback (msgId : Nat)
  deriving DecidableEq, Repr

/-- The calls into the asynchronous client, and what its threads do. -/
inductive Action where
  /-- `MQTTAsync_send`, `MQTTAsync_subscribeMany` or `MQTTAsync_unsubscribeMany` accepts a
  request. -/
  | request (request : Request)
  /-- `MQTTAsync_addCommand` deletes the oldest publication when the buffer is full. -/
  | deleteOldest
  | processCommand
  | receive (packet : Packet)
  | retry (doRetry : Bool)
  | continueWrite (succeeded : Bool)
  | connectionLost
  | connect (sessionPresent : Bool)
  /-- A DISCONNECT command is carried out. -/
  | disconnect
  deriving DecidableEq, Repr

/-- An action and what the environment answers while it is carried out. -/
structure Input where
  action : Action
  now : Nat := 0
  writes : List CompletionCode := []
  moreToTry : Bool := false
  deriving DecidableEq, Repr

namespace MQTTAsyncs

/-- Call a callback. -/
def call (s : MQTTAsyncs) (callback : Callback) : MQTTAsyncs :=
  { s with callbacks := callback :: s.callbacks }

/-- The ids that `MQTTAsync_assignMsgId` does not assign again. -/
def usedMsgIds (s : MQTTAsyncs) : List Nat :=
  s.commands.map QueuedCommand.token ++ ids s.c.outboundMsgs ++
    s.responses.map QueuedCommand.token

/-- `MQTTAsync_assignMsgId`. -/
def assignMsgId (s : MQTTAsyncs) : Option (Nat × MQTTAsyncs) :=
  match MQTTProtocol.searchMsgId (usedMsgIds s) s.c.msgID (maxMsgId + 1)
      (MQTTProtocol.nextMsgId s.c.msgID) with
  | none => none
  | some msgid =>
      some (msgid, if msgid ≠ 0 then { s with c := { s.c with msgID := msgid } } else s)

/-- `MQTTAsync_addCommand`. -/
def addCommand (s : MQTTAsyncs) (request : Request) (token : Nat) : MQTTAsyncs :=
  { s with
    commands := s.commands ++ [⟨request, token, s.accepted⟩]
    accepted := s.accepted + 1 }

/-- A request of the application: the command gets an id when it needs one. -/
def request (s : MQTTAsyncs) (request : Request) : MQTTAsyncs :=
  if request.badQos then s
  else if request.needsMsgId then
    match assignMsgId s with
    | none => s
    | some (msgid, s) => if msgid = 0 then s else addCommand s request msgid
  else addCommand s request 0

/-- The end of `MQTTAsync_addCommand` when the buffer is full. -/
def deleteOldest (s : MQTTAsyncs) : MQTTAsyncs :=
  { s with commands := s.commands.eraseP fun command => command.request.isPublish }

/-- Whether the first command can be processed now. -/
def canProcess (s : MQTTAsyncs) (request : Request) : Bool :=
  s.c.connected && Socket.noPendingWrites s.c.net &&
    !decide (maxMsgId - 1 ≤ s.c.outboundMsgs.length) &&
    (!request.needsMsgId || decide (s.c.outboundMsgs.length < s.maxInflightMessages))

/-- Put a command in `responses`. -/
def awaitResponse (s : MQTTAsyncs) (command : QueuedCommand) : MQTTAsyncs :=
  { s with responses := s.responses ++ [command] }

/-- The end of `MQTTAsync_processCommand` for a PUBLISH, by what sending it returned. -/
def published (s : MQTTAsyncs) (command : QueuedCommand) (qos : Nat) :
    CompletionCode → MQTTAsyncs
  | .complete =>
      if qos = 0 then s.call (.onSuccess command .written) else awaitResponse s command
  | .interrupted =>
      awaitResponse (if qos = 0 then { s with pendingWrite := some command.serial } else s) command
  | .socketError =>
      (if qos = 0 then { s with pendingWrite := some command.serial } else s).call
        (.onFailure command .abandoned)

/-- `MQTTAsync_processCommand` for a PUBLISH. -/
def publish (s : MQTTAsyncs) (command : QueuedCommand) (message : Session.Message) : MQTTAsyncs :=
  let publish := Session.publishPacket s.c.mqttVersion message false command.token
  let (rc, c) := MQTTProtocol.startPublish s.c publish message.qos message.retained
  let owner := if message.qos = 0 then s.owner
    else Function.update s.owner command.token command.serial
  published { s with c := c, owner := owner } command message.qos rc

/-- `MQTTAsync_processCommand` for SUBSCRIBE and UNSUBSCRIBE. -/
def subscribe (s : MQTTAsyncs) (command : QueuedCommand) : MQTTAsyncs :=
  match Socket.putdatas s.c.net with
  | (.socketError, net) =>
      { s with c := { s.c with net := net } }.call (.onFailure command .abandoned)
  | (_, net) => awaitResponse { s with c := { s.c with net := net } } command

/-- `MQTTAsync_processCommand`. -/
def processCommand (s : MQTTAsyncs) : MQTTAsyncs :=
  match s.commands with
  | [] => s
  | command :: rest =>
      if !canProcess s command.request then s
      else
        let s := { s with commands := rest }
        match command.request with
        | .publish message => publish s command message
        | .subscribe | .unsubscribe => subscribe s command

/-- `MQTTAsync_freeResponses`. -/
def freeResponses (s : MQTTAsyncs) : MQTTAsyncs :=
  { s with
    responses := []
    callbacks := (s.responses.map (.onFailure · .abandoned)).reverse ++ s.callbacks }

/-- Whether `MQTTAsync_cleanSession` was called. -/
def cleaned (before after : Clients) : Bool :=
  decide (before.trace.count .sessionCleaned < after.trace.count .sessionCleaned)

/-- The session has gone on: `MQTTAsync_cleanSession` frees the responses as well. -/
def resume (s : MQTTAsyncs) (c : Clients) : MQTTAsyncs :=
  if cleaned s.c c then { freeResponses s with c := c } else { s with c := c }

/-- `MQTTAsync_writeComplete`. -/
def writeComplete (s : MQTTAsyncs) (succeeded : Bool) : MQTTAsyncs :=
  match s.pendingWrite with
  | none => s
  | some serial =>
      let s := { s with pendingWrite := none }
      match s.responses.find? fun command => command.serial == serial with
      | some command =>
          match command.request with
          | .publish message =>
              if succeeded then
                if message.qos = 0 then
                  { s with responses := s.responses.erase command }.call
                    (.onSuccess command .written)
                else s
              else
                { s with responses := s.responses.erase command }.call
                  (.onFailure command .abandoned)
          | _ => { s with responses := s.responses.erase command }
      | none => s

/-- Take the first command with this token off `responses` and call its callback. -/
def complete (s : MQTTAsyncs) (msgId : Nat) (callback : QueuedCommand → Callback) : MQTTAsyncs :=
  match s.responses.find? fun command => command.token == msgId with
  | some command =>
      { s with responses := s.responses.eraseP fun command => command.token == msgId }.call
        (callback command)
  | none => s

/-- The publication whose message was in flight under an id before a step and is no more. -/
def removed (s : MQTTAsyncs) (c : Clients) (msgId : Nat) : Option Nat :=
  if msgId ∈ ids s.c.outboundMsgs ∧ msgId ∉ ids c.outboundMsgs then some (s.owner msgId) else none

/-- The reason code that `MQTTAsync_cycle` takes from an acknowledgement. -/
def ackrc (s : MQTTAsyncs) (rc : Nat) : Nat :=
  if mqttVersion5 ≤ s.c.mqttVersion then rc else 0

/-- Whether a packet is a PUBREC. -/
def isPubrec : Session.Packet → Bool
  | .pubrec _ _ => true
  | _ => false

/-- `MQTTAsync_cycle` with PUBACK, PUBREC or PUBCOMP: the handler, then the callbacks, unless the
packet is a PUBREC that reports no error. -/
def handleAck (s : MQTTAsyncs) (packet : Session.Packet) (msgId rc : Nat) : MQTTAsyncs :=
  let c := Session.receive s.c packet
  let removed := removed s c msgId
  let error := decide (reasonCodeUnspecifiedError ≤ ackrc s rc)
  let s := { s with c := c }
  if isPubrec packet && !error then s
  else
    complete (s.call (.deliveryComplete msgId removed)) msgId fun command =>
      if error then .onFailure command (.acknowledged removed)
      else .onSuccess command (.acknowledged removed)

/-- Whether SUBACK reports that its only subscription failed. -/
def subscribeFailed (s : MQTTAsyncs) : List Nat → Bool
  | [code] =>
      if mqttVersion5 ≤ s.c.mqttVersion then decide (reasonCodeUnspecifiedError ≤ code)
      else code == 128
  | _ => false

/-- A packet of the server: `MQTTAsync_cycle`, and `MQTTAsync_receiveThread` for SUBACK and
UNSUBACK. -/
def receive (s : MQTTAsyncs) : Packet → MQTTAsyncs
  | .publish dup message msgId =>
      { s with c := Session.receive s.c (.publish dup message msgId) }
  | .pubrel msgId => { s with c := Session.receive s.c (.pubrel msgId) }
  | .puback msgId rc => handleAck s (.puback msgId) msgId rc
  | .pubrec msgId rc => handleAck s (.pubrec msgId rc) msgId rc
  | .pubcomp msgId rc => handleAck s (.pubcomp msgId) msgId rc
  | .suback msgId qoss =>
      complete s msgId fun command =>
        if subscribeFailed s qoss then .onFailure command (.suback msgId)
        else .onSuccess command (.suback msgId)
  | .unsuback msgId => complete s msgId (.onSuccess · (.unsuback msgId))

end MQTTAsyncs

/-- The effect of an action. -/
def act (s : MQTTAsyncs) : Action → MQTTAsyncs
  | .request request => s.request request
  | .deleteOldest => s.deleteOldest
  | .processCommand => s.processCommand
  | .receive packet => if s.c.connected then s.receive packet else s
  | .retry doRetry => s.resume (Session.act s.c (.retry doRetry))
  | .continueWrite succeeded =>
      let after := s.resume (Session.act s.c (.continueWrite succeeded))
      if s.c.net.pendingWrites then after.writeComplete succeeded else after
  | .connectionLost => s.resume (Session.act s.c .connectionLost)
  | .connect sessionPresent => s.resume (Session.act s.c (.connect sessionPresent))
  | .disconnect => s.resume (MQTTAsync.closeSession s.c)

/-- What the environment supplies for one step. -/
def provide (s : MQTTAsyncs) (input : Input) : MQTTAsyncs :=
  { s with
    c :=
      { s.c with
        clock := input.now
        net := { s.c.net with writes := input.writes }
        moreToTry := input.moreToTry } }

/-- One step of the asynchronous client. -/
def step (s : MQTTAsyncs) (input : Input) : MQTTAsyncs :=
  act (provide s input) input.action

/-- The commands that `MQTTAsync_restoreCommands` makes of restored requests and their tokens. -/
def restoredCommands (first : Nat) : List (Request × Nat) → List QueuedCommand
  | [] => []
  | command :: restored => ⟨command.1, command.2, first⟩ :: restoredCommands (first + 1) restored

/-- The client when its session and its commands have been restored. The publications in flight
are numbered by their ids, the commands after them. -/
def start (c : Clients) (maxInflightMessages : Nat) (restored : List (Request × Nat)) :
    MQTTAsyncs :=
  let first := (ids c.outboundMsgs).foldr max 0 + 1
  { c := c
    maxInflightMessages := maxInflightMessages
    commands := restoredCommands first restored
    responses := []
    pendingWrite := none
    accepted := first + restored.length
    owner := id
    callbacks := [] }

end Responses

end Paho
