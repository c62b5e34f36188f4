import Mathlib.Algebra.GroupWithZero.Nat
import Paho.Library.OwnedOnce
import Paho.Library.Run
import Paho.Protocol.LinkedLists
import Paho.Protocol.Session

/-!
# Publications that are stored

The topic and the payload of a message in flight are kept in `state.publications`, behind pointers
that the messages and the pending writes of all clients hold. Every allocation succeeds, at an
address that is not in use.
-/

namespace Paho

namespace Stored

/-- `Messages`, with the pointer to the publication. -/
structure Messages where
  qos : Nat
  retain : Bool
  msgid : Nat
  mqttVersion : Nat
  properties : MQTTProperties
  publish : Option Nat
  nextMessageType : Option PacketType
  deriving DecidableEq, Repr

/-- `pending_write`. -/
structure PendingWrite where
  p : Nat
  socket : Nat
  deriving DecidableEq, Repr

/-- The part of `Clients` that the handlers of the exchanges work on. -/
structure Client where
  socket : Nat
  mqttVersion : Nat
  inboundMsgs : LinkedList Messages
  outboundMsgs : LinkedList Messages
  outboundQueue : List AckRequest
  deriving DecidableEq, Repr

/-- `state` and `bstate`, with `mod_s.write_pending`, the results of the next writes, the addresses
that `malloc` is to return next, what has been passed on to the applications, and the pointers that
were removed though they were not in `publications`. -/
structure State where
  publications : List (Cell Nat Publications)
  pendingWrites : List PendingWrite
  clients : List Client
  writePending : List Nat
  writes : List CompletionCode
  mallocs : List Nat
  processed : List Publish
  strays : List Nat
  deriving DecidableEq

/-- The address of an allocation. -/
def malloc (used : List Nat) (next : Nat) : Nat :=
  if next ∈ used then used.sum + 1 else next

namespace State

/-- `ListFindItem` with `clientSocketCompare`. No two open sockets have one number. -/
def findClient (s : State) (sock : Nat) : Option (Nat × Client) :=
  (s.clients.findIdx? (·.socket == sock)).bind fun i =>
    (s.clients[i]?).map fun client => (i, client)

/-- Change a client. -/
def setClient (s : State) (i : Nat) (client : Client) : State :=
  { s with clients := s.clients.set i client }

/-- `Socket_noPendingWrites`. -/
def noPendingWrites (s : State) (socket : Nat) : Bool :=
  decide (socket ∉ s.writePending)

/-- `Socket_putdatas`. -/
def putdatas (s : State) (socket : Nat) : CompletionCode × State :=
  if s.noPendingWrites socket then
    let rc := s.writes.headD .complete
    (rc,
      { s with
        writes := s.writes.tail
        writePending :=
          if rc = .interrupted then s.writePending ++ [socket] else s.writePending })
  else (.socketError, s)

/-- `Protocol_processPublication`. -/
def processPublication (s : State) (publish : Publish) : State :=
  { s with processed := publish :: s.processed }

/-- `MQTTProtocol_storePublication`. The topic and the payload are moved. -/
def storePublication (s : State) (publish : Publish) : Nat × Publish × State :=
  let p := malloc (Cell.addresses s.publications) (s.mallocs.headD 0)
  (p, { publish with topic := none, payload := none },
    { s with
      mallocs := s.mallocs.tail
      publications := s.publications ++ [⟨p, 1, ⟨publish.topic, publish.payload⟩⟩] })

/-- `ListRemove` on `state.publications`. -/
def removeElement (s : State) (p : Nat) : State :=
  { s with publications := Cell.free s.publications p }

/-- `MQTTProtocol_removePublication`. -/
def removePublication (s : State) : Option Nat → State
  | none => s
  | some p =>
      match Cell.at? s.publications p with
      | none => { s with strays := p :: s.strays }
      | some publication =>
          if publication.refcount - 1 = 0 then s.removeElement p
          else { s with publications := Cell.count s.publications p (-1) }

/-- What a pointer to a publication points to. -/
def publicationAt (s : State) (p : Option Nat) : Option Publications :=
  p.bind fun p => (Cell.at? s.publications p).map Cell.content

/-- The publication built from a message, as the handlers pass it on. -/
def publicationOf (s : State) (m : Messages) : Publish where
  dup := false
  qos := m.qos
  retain := m.retain
  topic := (s.publicationAt m.publish).bind Publications.topic
  msgId := m.msgid
  payload := (s.publicationAt m.publish).bind Publications.payload
  mqttVersion := m.mqttVersion
  properties := if mqttVersion5 ≤ m.mqttVersion then m.properties else []

/-- `MQTTProtocol_createMessage`, where `mm` is what `*mm` points to. -/
def createMessage (s : State) (publish : Publish) (mm : Option Messages) (qos : Nat)
    (retained : Bool) : Messages × Publish × State :=
  let message (p : Nat) : Messages :=
    { qos := qos
      retain := retained
      msgid := publish.msgId
      mqttVersion := publish.mqttVersion
      properties := if mqttVersion5 ≤ publish.mqttVersion then publish.properties else []
      publish := some p
      nextMessageType := if qos = 2 then some .pubrec else none }
  match mm.bind Messages.publish with
  | none =>
      let (p, publish, s) := s.storePublication publish
      (message p, publish, s)
  | some p => (message p, publish, { s with publications := Cell.count s.publications p 1 })

/-- `MQTTProtocol_storeQoS0`. -/
def storeQoS0 (s : State) (pubclient : Client) (publish : Publish) : State :=
  let (p, _, s) := s.storePublication publish
  { s with pendingWrites := s.pendingWrites ++ [{ p := p, socket := pubclient.socket }] }

/-- `MQTTProtocol_startPublishCommon`. -/
def startPublishCommon (s : State) (pubclient : Client) (publish : Publish) (qos : Nat) :
    CompletionCode × State :=
  let (rc, s) := s.putdatas pubclient.socket
  if qos = 0 ∧ rc = .interrupted then (rc, s.storeQoS0 pubclient publish) else (rc, s)

/-- `MQTTProtocol_startPublish`, for the client at `i`. -/
def startPublish (s : State) (i : Nat) (pubclient : Client) (publish : Publish) (qos : Nat)
    (retained : Bool) (mm : Option Messages) : CompletionCode × State :=
  if 0 < qos then
    let (m, publish, s) := s.createMessage publish mm qos retained
    let s := s.setClient i { pubclient with outboundMsgs := pubclient.outboundMsgs.append m }
    s.startPublishCommon pubclient publish qos
  else s.startPublishCommon pubclient publish qos

/-- Send an acknowledgement, or queue it while the socket has a pending write. -/
def acknowledge (s : State) (i : Nat) (client : Client) (ackType : PacketType) (msgId : Nat) :
    State :=
  if s.noPendingWrites client.socket then ((s.setClient i client).putdatas client.socket).2
  else
    s.setClient i
      { client with
        outboundQueue := client.outboundQueue ++ [{ messageId := msgId, ackType := ackType }] }

/-- The message that `MQTTProtocol_handlePublishes` makes of a PUBLISH of QoS 2. -/
def receivedMessage (publish : Publish) (p : Nat) : Messages where
  qos := publish.qos
  retain := publish.retain
  msgid := publish.msgId
  mqttVersion := publish.mqttVersion
  properties := if mqttVersion5 ≤ publish.mqttVersion then publish.properties else []
  publish := some p
  nextMessageType := some .pubrel

/-- `MQTTProtocol_handlePublishes`. -/
def handlePublishes (s : State) (i : Nat) (client : Client) (publish : Publish) : State :=
  match publish.qos with
  | 0 => s.processPublication publish
  | 1 => (s.processPublication publish).acknowledge i client .puback publish.msgId
  | 2 =>
      let (p, _, s) := s.storePublication publish
      let m := receivedMessage publish p
      match client.inboundMsgs.findItem (·.msgid == m.msgid) with
      | some (index, msg) =>
          -- `m` gets the place of the message that is discarded, and keeps its publication
          let s := s.removePublication msg.publish
          let inboundMsgs := ((client.inboundMsgs.found index).insert m index).unlink (index + 1)
          s.acknowledge i { client with inboundMsgs := inboundMsgs } .pubrec publish.msgId
      | none =>
          if mqttVersion5 ≤ m.mqttVersion then
            let s := (s.processPublication (s.publicationOf m)).removeElement p
            let inboundMsgs := client.inboundMsgs.append { m with publish := none }
            s.acknowledge i { client with inboundMsgs := inboundMsgs } .pubrec publish.msgId
          else
            let inboundMsgs := client.inboundMsgs.append m
            s.acknowledge i { client with inboundMsgs := inboundMsgs } .pubrec publish.msgId
  | _ => s

/-- What is done with the publication of an outbound message: the caller that has given a
`pubToRemove` gets the pointer, for another one the publication is removed. -/
def passOn (s : State) (toRemove : Bool) (publish : Option Nat) : Option Nat × State :=
  if toRemove then (publish, s) else (none, s.removePublication publish)

/-- `MQTTProtocol_handlePubacks`: `*pubToRemove` and the state. -/
def handlePubacks (s : State) (i : Nat) (client : Client) (msgId : Nat) (toRemove : Bool) :
    Option Nat × State :=
  match client.outboundMsgs.findItem (·.msgid == msgId) with
  | none => (none, s)
  | some (index, m) =>
      let outboundMsgs := client.outboundMsgs.found index
      if m.qos ≠ 1 then (none, s.setClient i { client with outboundMsgs := outboundMsgs })
      else
        let (pubToRemove, s) := s.passOn toRemove m.publish
        (pubToRemove, s.setClient i { client with outboundMsgs := outboundMsgs.unlink index })

/-- `MQTTProtocol_handlePubrecs`. -/
def handlePubrecs (s : State) (i : Nat) (client : Client) (msgId rc : Nat) (toRemove : Bool) :
    Option Nat × State :=
  let outboundMsgs := { client.outboundMsgs with current := none }
  match outboundMsgs.findItem (·.msgid == msgId) with
  | none =>
      (none, s.acknowledge i { client with outboundMsgs := outboundMsgs } .pubrel msgId)
  | some (index, m) =>
      let outboundMsgs := outboundMsgs.found index
      if m.qos ≠ 2 ∨ m.nextMessageType ≠ some .pubrec then
        (none, s.acknowledge i { client with outboundMsgs := outboundMsgs } .pubrel msgId)
      else if mqttVersion5 ≤ client.mqttVersion ∧ reasonCodeUnspecifiedError ≤ rc then
        let (pubToRemove, s) := s.passOn toRemove m.publish
        (pubToRemove, s.setClient i { client with outboundMsgs := outboundMsgs.unlink index })
      else
        let m := { m with nextMessageType := some .pubcomp }
        let outboundMsgs := { outboundMsgs with items := outboundMsgs.items.set index m }
        (none, s.acknowledge i { client with outboundMsgs := outboundMsgs } .pubrel msgId)

/-- `MQTTProtocol_handlePubrels`. -/
def handlePubrels (s : State) (i : Nat) (client : Client) (msgId : Nat) : State :=
  match client.inboundMsgs.findItem (·.msgid == msgId) with
  | none => s.acknowledge i client .pubcomp msgId
  | some (index, m) =>
      let inboundMsgs := client.inboundMsgs.found index
      if m.qos ≠ 2 ∨ m.nextMessageType ≠ some .pubrel then
        s.acknowledge i { client with inboundMsgs := inboundMsgs } .pubcomp msgId
      else
        let s :=
          if mqttVersion5 ≤ m.mqttVersion then s else s.processPublication (s.publicationOf m)
        let s := m.publish.elim s s.removeElement
        s.acknowledge i { client with inboundMsgs := inboundMsgs.unlink index } .pubcomp msgId

/-- `MQTTProtocol_handlePubcomps`. -/
def handlePubcomps (s : State) (i : Nat) (client : Client) (msgId : Nat) (toRemove : Bool) :
    Option Nat × State :=
  match client.outboundMsgs.findItem (·.msgid == msgId) with
  | none => (none, s)
  | some (index, m) =>
      let outboundMsgs := client.outboundMsgs.found index
      if m.qos ≠ 2 ∨ m.nextMessageType ≠ some .pubcomp then
        (none, s.setClient i { client with outboundMsgs := outboundMsgs })
      else
        let (pubToRemove, s) := s.passOn toRemove m.publish
        (pubToRemove, s.setClient i { client with outboundMsgs := outboundMsgs.unlink index })

end State

/-- What reads a packet: `MQTTAsync_cycle`, with the tokens of `m->responses`, or
`MQTTClient_cycle`. -/
inductive Cycle where
  | async (responses : List Nat)
  | sync
  deriving DecidableEq, Repr

namespace State

/-- What `MQTTAsync_cycle` does with `pubToRemove`: the publication goes with the response of the
message, or after the search for it. -/
def removeAnswered (responses : List Nat) (msgid : Nat) (searched : Bool) :
    Option Nat × State → State
  | (pubToRemove, s) =>
      let (pubToRemove, s) :=
        if searched && responses.contains msgid then (none, s.removePublication pubToRemove)
        else (pubToRemove, s)
      s.removePublication pubToRemove

/-- `MQTTAsync_cycle` and `MQTTClient_cycle`, with a packet of an exchange. -/
def cycle (s : State) (sock : Nat) (packet : Session.Packet) (reader : Cycle) : State :=
  match s.findClient sock with
  | none => s
  | some (i, client) =>
      match packet, reader with
      | .publish dup message msgId, _ =>
          s.handlePublishes i client (Session.publishPacket client.mqttVersion message dup msgId)
      | .puback msgId, .async responses =>
          removeAnswered responses msgId true (s.handlePubacks i client msgId true)
      | .puback msgId, .sync => (s.handlePubacks i client msgId false).2
      | .pubrec msgId rc, .async responses =>
          let ackrc := if mqttVersion5 ≤ client.mqttVersion then rc else 0
          removeAnswered responses msgId (decide (reasonCodeUnspecifiedError ≤ ackrc))
            (s.handlePubrecs i client msgId rc true)
      | .pubrec msgId rc, .sync => (s.handlePubrecs i client msgId rc false).2
      | .pubrel msgId, _ => s.handlePubrels i client msgId
      | .pubcomp msgId, .async responses =>
          removeAnswered responses msgId true (s.handlePubcomps i client msgId true)
      | .pubcomp msgId, .sync => (s.handlePubcomps i client msgId false).2

/-- The loop of `MQTTProtocol_checkPendingWrites`, after the elements that stay. -/
def checkPendingWritesLoop (s : State) (kept : List PendingWrite) : List PendingWrite → State
  | [] => { s with pendingWrites := kept }
  | le :: rest =>
      if s.noPendingWrites le.socket then
        checkPendingWritesLoop (s.removePublication (some le.p)) kept rest
      else checkPendingWritesLoop s (kept ++ [le]) rest

/-- `MQTTProtocol_checkPendingWrites`. -/
def checkPendingWrites (s : State) : State :=
  s.checkPendingWritesLoop [] s.pendingWrites

/-- The loop of `MQTTProtocol_emptyMessageList`. -/
def emptyMessages (s : State) : List Messages → State
  | [] => s
  | m :: rest => (s.removePublication m.publish).emptyMessages rest

/-- The message lists in `MQTTAsync_cleanSession` and `MQTTClient_cleanSession`. -/
def cleanSession (s : State) (i : Nat) (client : Client) : State :=
  let s := s.emptyMessages client.inboundMsgs.items
  let client := { client with inboundMsgs := .empty }
  let s := (s.setClient i client).emptyMessages client.outboundMsgs.items
  s.setClient i { client with outboundMsgs := .empty }

end State

/-- What happens to the clients, which are named by their places in `bstate->clients`. -/
inductive Action where
  /-- A client is created. -/
  | create (mqttVersion : Nat)
  /-- A client gets a socket that no other one has. -/
  | connect (client socket mqttVersion : Nat)
  /-- The socket of a client is closed, with what is pending for it. -/
  | closeSocket (client : Nat)
  | publish (client : Nat) (message : Session.Message) (msgId : Nat)
  | receive (socket : Nat) (packet : Session.Packet) (reader : Cycle)
  /-- Another packet is written. -/
  | write (socket : Nat)
  /-- A pending write is completed, or fails: `Socket_continueWrites` takes the socket off the
  list and calls `writecomplete`. -/
  | continueWrite (socket : Nat)
  /-- `MQTTProtocol_checkPendingWrites` is called at another time. -/
  | check
  | cleanSession (client : Nat)
  deriving DecidableEq, Repr

/-- An action, with the results of the writes and the addresses of the allocations. -/
structure Input where
  action : Action
  writes : List CompletionCode := []
  mallocs : List Nat := []
  deriving DecidableEq, Repr

namespace State

/-- The effect of an action on a client, if it exists. -/
def withClient (s : State) (i : Nat) (effect : Client → State) : State :=
  (s.clients[i]?).elim s effect

def act (s : State) : Action → State
  | .create mqttVersion =>
      { s with clients := s.clients ++ [⟨0, mqttVersion, .empty, .empty, []⟩] }
  | .connect i socket mqttVersion =>
      if socket = 0 ∨ s.clients.any (·.socket == socket) then s
      else
        s.withClient i fun client =>
          s.setClient i { client with socket := socket, mqttVersion := mqttVersion }
  | .closeSocket i =>
      s.withClient i fun client =>
        { s.setClient i { client with socket := 0 } with
          writePending := s.writePending.erase client.socket }
  | .publish i message msgId =>
      s.withClient i fun client =>
        (s.startPublish i client (Session.publishPacket client.mqttVersion message false msgId)
          message.qos message.retained none).2
  | .receive socket packet reader => if 0 < socket then s.cycle socket packet reader else s
  | .write socket => (s.putdatas socket).2
  | .continueWrite socket =>
      { s with writePending := s.writePending.erase socket }.checkPendingWrites
  | .check => s.checkPendingWrites
  | .cleanSession i => s.withClient i (s.cleanSession i)

/-- Before any client is created. -/
def initial : State where
  publications := []
  pendingWrites := []
  clients := []
  writePending := []
  writes := []
  mallocs := []
  processed := []
  strays := []

end State

/-- One step. -/
def step (s : State) (input : Input) : State :=
  State.act { s with writes := input.writes, mallocs := input.mallocs } input.action

end Stored

end Paho
