import Paho.Library.TwoPhase
import Paho.Protocol.DurableSession
import Paho.Protocol.Settings

/-!
# A client and its server

The session of a client together with the server that it talks to. The server is one that keeps to
the protocol and accepts every publication: it reads the packets in the order in which they were
written, passes a publication of QoS 2 on unless it holds the id, and holds the id until PUBREL.
What is under way is lost when a new connection is made. Of the packets of the client only those of
its own publications of QoS 1 and 2 matter.
-/

namespace Paho

/-! ## What a client has written -/

/-- The publications that were started, oldest first, with their ids and QoS. The place of a
publication is its number. -/
def publications : List Event → List (Nat × Nat)
  | [] => []
  | .started msgid qos :: trace => publications trace ++ [(msgid, qos)]
  | _ :: trace => publications trace

/-- The number and the QoS of the publication that last started with an id. -/
def lastStarted (msgid : Nat) : List Event → Option (Nat × Nat)
  | [] => none
  | .started id qos :: trace =>
      if id = msgid then some ((publications trace).length, qos) else lastStarted msgid trace
  | _ :: trace => lastStarted msgid trace

/-- How many publications had been started when the session was last discarded. -/
def discarded : List Event → Nat
  | [] => 0
  | .sessionCleaned :: trace => (publications trace).length
  | _ :: trace => discarded trace

/-- A packet on its way to the server. A PUBLISH is that of the publication with a number. -/
inductive Upward where
  | publish (number qos msgId : Nat)
  | pubrel (msgId : Nat)
  deriving DecidableEq, Repr

/-- The packet that an event hands to the socket, after a trace. One whose write is interrupted
counts as written: the server reads it when the rest of it has been written, if ever. -/
def packetOf (trace : List Event) : Event → Option Upward
  | .sentPublish msgid _ rc =>
      if rc = .socketError ∨ msgid = 0 then none
      else (lastStarted msgid trace).map fun (number, qos) => .publish number qos msgid
  | .sentAck .pubrel msgid rc => if rc = .socketError then none else some (.pubrel msgid)
  | _ => none

/-- The packets that were written since the last connection was made, oldest first. -/
def packetsWritten : List Event → List Upward
  | [] => []
  | .connected :: _ => []
  | event :: trace => packetsWritten trace ++ (packetOf trace event).toList

/-- Events that neither start a publication nor are about a connection or a packet that matters. -/
def Event.Neutral : Event → Prop
  | .started _ _ | .sentPublish _ _ _ | .sessionCleaned | .connected => False
  | .sentAck type _ _ => type ≠ .pubrel
  | _ => True

section Traces

variable {event : Event} {trace : List Event} {msgid number qos : Nat}

theorem publications_cons (other : ∀ id qos, event ≠ .started id qos) :
    publications (event :: trace) = publications trace := by
  cases event with
  | started id qos => exact absurd rfl (other id qos)
  | _ => rfl

theorem lastStarted_cons (other : ∀ id qos, event ≠ .started id qos) :
    lastStarted msgid (event :: trace) = lastStarted msgid trace := by
  cases event with
  | started id qos => exact absurd rfl (other id qos)
  | _ => rfl

theorem discarded_cons (other : event ≠ .sessionCleaned) :
    discarded (event :: trace) = discarded trace := by
  cases event with
  | sessionCleaned => exact absurd rfl other
  | _ => rfl

theorem packetsWritten_cons (other : event ≠ .connected) :
    packetsWritten (event :: trace) = packetsWritten trace ++ (packetOf trace event).toList := by
  cases event with
  | connected => exact absurd rfl other
  | _ => rfl

theorem Event.Neutral.packetOf (neutral : event.Neutral) : packetOf trace event = none := by
  cases event with
  | sentAck type msgid rc =>
      cases type with
      | pubrel => exact absurd rfl neutral
      | _ => rfl
  | sentPublish => exact neutral.elim
  | _ => rfl

theorem Event.Neutral.not_started (neutral : event.Neutral) (id qos : Nat) :
    event ≠ .started id qos := by
  rintro rfl
  exact neutral

theorem Event.Neutral.packetsWritten (neutral : event.Neutral) :
    packetsWritten (event :: trace) = packetsWritten trace := by
  have other : event ≠ .connected := by
    rintro rfl
    exact neutral
  rw [packetsWritten_cons other, neutral.packetOf, Option.toList_none, List.append_nil]

/-- The last publication with an id is the one with its number. -/
theorem publications_of_lastStarted (last : lastStarted msgid trace = some (number, qos)) :
    (publications trace)[number]? = some (msgid, qos) := by
  induction trace with
  | nil => cases last
  | cons event trace ih =>
      by_cases starts : ∃ id qos, event = .started id qos
      · rcases starts with ⟨id, qos', rfl⟩
        rw [lastStarted] at last
        split at last
        next same =>
          cases last
          rw [publications, List.getElem?_concat_length, same]
        next =>
          have before := ih last
          rw [publications, List.getElem?_append_left]
          · exact before
          · exact (List.getElem?_eq_some_iff.mp before).1
      · have other : ∀ id qos, event ≠ .started id qos :=
          fun id qos same => starts ⟨id, qos, same⟩
        rw [lastStarted_cons other] at last
        rw [publications_cons other]
        exact ih last

theorem lastStarted_lt (last : lastStarted msgid trace = some (number, qos)) :
    number < (publications trace).length :=
  (List.getElem?_eq_some_iff.mp (publications_of_lastStarted last)).1

end Traces

/-! ## The server -/

/-- The server, and what is under way from it. -/
structure Server where
  /-- How many of the packets written on the connection it has read. -/
  read : Nat
  /-- The ids of the publications of QoS 2 that it has and that are not released. -/
  held : List Nat
  /-- The numbers of the publications that it has passed on, newest first. -/
  delivered : List Nat
  /-- The packets that it has sent and the client has not received, oldest first. -/
  answers : List Session.Packet

/-- A client and a server. -/
structure Conversation where
  client : Clients
  server : Server

namespace Server

/-- The packets that the server has not read. -/
def unread (server : Server) (trace : List Event) : List Upward :=
  (packetsWritten trace).drop server.read

/-- The server reads a packet and answers it, PUBLISH of QoS 2 with a reason code. -/
def readPacket (server : Server) (rc : Nat) : Upward → Server
  | .publish number qos msgId =>
      if qos = 2 then
        if msgId ∈ server.held then
          { server with read := server.read + 1, answers := server.answers ++ [.pubrec msgId rc] }
        else
          { server with
            read := server.read + 1
            held := msgId :: server.held
            delivered := number :: server.delivered
            answers := server.answers ++ [.pubrec msgId rc] }
      else
        { server with
          read := server.read + 1
          delivered := number :: server.delivered
          answers := server.answers ++ [.puback msgId] }
  | .pubrel msgId =>
      { server with
        read := server.read + 1
        held := server.held.filter (· ≠ msgId)
        answers := server.answers ++ [.pubcomp msgId] }

/-- A client connects. The server answers whether it has a session, and keeps to that. -/
def connect (server : Server) (resumed : Bool) : Server :=
  { server with read := 0, answers := [], held := if resumed then server.held else [] }

end Server

namespace Conversation

/-- What can happen. The server may send packets of its own publications at any time. -/
inductive Move where
  /-- A call into the client, other than with a packet. -/
  | call (input : Session.Input)
  /-- The server reads the next packet. -/
  | read (rc : Fin reasonCodeUnspecifiedError)
  | publish (dup : Bool) (message : Session.Message) (msgId : Nat)
  | pubrel (msgId : Nat)
  /-- The client receives the next packet. -/
  | arrive (now : Nat) (writes : List CompletionCode) (moreToTry : Bool)

instance decidableKeepsOnClose (c : Clients) : Decidable c.KeepsOnClose :=
  inferInstanceAs (Decidable (_ ∧ _))

/-- The server goes on with a session, if it has one that outlives its connections and the client
does not ask for a new one. -/
def resumes (c : Clients) (sessionPresent : Bool) : Bool :=
  sessionPresent && decide c.KeepsOnClose && !c.cleanstart

/-- One step. -/
def step (s : Conversation) : Move → Conversation
  | .call input =>
      match input.action with
      | .receive _ => s
      | .connect sessionPresent =>
          let resumed := resumes s.client sessionPresent
          { client := Session.step s.client { input with action := .connect resumed }
            server := if s.client.connected then s.server else s.server.connect resumed }
      | _ => { s with client := Session.step s.client input }
  | .read rc =>
      match s.server.unread s.client.trace with
      | [] => s
      | packet :: _ => { s with server := s.server.readPacket rc packet }
  | .publish dup message msgId =>
      { s with
        server := { s.server with answers := s.server.answers ++ [.publish dup message msgId] } }
  | .pubrel msgId =>
      { s with server := { s.server with answers := s.server.answers ++ [.pubrel msgId] } }
  | .arrive now writes moreToTry =>
      match s.server.answers with
      | [] => s
      | packet :: answers =>
          if s.client.connected then
            { client := Session.step s.client ⟨.receive packet, now, writes, moreToTry⟩
              server := { s.server with answers := answers } }
          else s

/-- A client that was created, and a server that does not know it. -/
def start (settings : Settings) (retryInterval : Int) (persistence : Option Store) :
    Conversation where
  client :=
    { Session.create settings.mqttVersion settings.cleansession persistence with
      cleanstart := settings.cleanstart
      sessionExpiry := settings.sessionExpiry
      retryInterval := retryInterval }
  server := ⟨0, [], [], []⟩

/-- The publication with a number is in flight under its id. -/
def InFlight (s : Conversation) (number msgid : Nat) : Prop :=
  msgid ∈ ids s.client.outboundMsgs ∧ lastStarted msgid s.client.trace = some (number, 2)

end Conversation

end Paho
