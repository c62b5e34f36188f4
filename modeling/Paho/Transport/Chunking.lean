import Paho.Library.Run
import Paho.Transport.PlainReading
import Mathlib.Logic.Function.Basic

/-!
# Plain sockets and the packets of their streams

The sockets of a process take turns in `MQTTPacket_Factory`, while the bytes of their streams
arrive in pieces. The packets that the calls return for a socket are those of its stream.
-/

namespace Paho

open PacketStream Splitter

/-- A complete packet: a header byte, the length field and the rest of the packet. -/
structure WirePacket where
  header : UInt8
  field : Bytes
  body : Bytes
  isLength : remainingLength field = .complete body.length []

namespace WirePacket

/-- The bytes of a packet. -/
def bytes (packet : WirePacket) : Bytes :=
  packet.header :: (packet.field ++ packet.body)

/-- The stream of some packets. -/
def stream (packets : List WirePacket) : Bytes :=
  packets.flatMap bytes

variable {Pack : Type}

/-- What `MQTTPacket_Factory` returns for the packets of a stream, one after the other. A packet
that cannot be parsed ends the connection. -/
def parsed (newPackets : NewPackets Pack) : List WirePacket → List (FactoryResult Pack)
  | [] => []
  | packet :: packets =>
      match newPackets packet.header packet.body with
      | .bad => [.none .socketError]
      | .unknown => .none .complete :: parsed newPackets packets
      | .pack pack => .pack pack :: parsed newPackets packets

variable {packet : WirePacket} {packets : List WirePacket} {front more rest : Bytes}
  {contents : Contents}

theorem takePacket_bytes (packet : WirePacket) (more : Bytes) :
    takePacket (packet.bytes ++ more) = some ((packet.header, packet.body), more) := by
  have field : remainingLength (packet.field ++ (packet.body ++ more)) =
      .complete packet.body.length (packet.body ++ more) :=
    lengthField_grows packet.isLength
  simp [takePacket, bytes, field]

theorem items_stream (newPackets : NewPackets Pack) (packets : List WirePacket) :
    ((PacketStream.packets newPackets).items (stream packets)).map
      (fun contents => MQTTPacket.result newPackets contents.1 contents.2) =
      parsed newPackets packets := by
  induction packets with
  | nil =>
      rw [items_of_none (show (PacketStream.packets newPackets).take (stream []) = none from rfl)]
      rfl
  | cons packet packets ih =>
      have taken : (PacketStream.packets newPackets).take (stream (packet :: packets)) =
          some ((packet.header, packet.body), stream packets) :=
        takePacket_bytes packet (stream packets)
      rw [items_of_take taken]
      cases kind : newPackets packet.header packet.body with
      | bad => simp [PacketStream.packets, parsed, MQTTPacket.result, kind]
      | unknown =>
          rw [if_neg (by simp [PacketStream.packets, kind]), List.map_cons, ih]
          simp [parsed, MQTTPacket.result, kind]
      | pack pack =>
          rw [if_neg (by simp [PacketStream.packets, kind]), List.map_cons, ih]
          simp [parsed, MQTTPacket.result, kind]

/-- A packet that is taken off the front of a stream of packets is the first of them. -/
theorem stream_of_take (isStream : front ++ more = stream packets)
    (taken : takePacket front = some (contents, rest)) :
    ∃ packets', rest ++ more = stream packets' := by
  have grown : takePacket (front ++ more) = some (contents, rest ++ more) :=
    (PacketStream.packets fun _ _ => (Parsed.unknown : Parsed Unit)).grows more taken
  rw [isStream] at grown
  cases packets with
  | nil => cases grown
  | cons packet packets =>
      have first := takePacket_bytes packet (stream packets)
      refine ⟨packets, ?_⟩
      have same := grown.symm.trans first
      simp only [Option.some.injEq, Prod.mk.injEq] at same
      exact same.2

theorem lengthField_malformed {left multiplier value : Nat} {bytes : Bytes}
    (malformed : lengthField left multiplier value bytes = .malformed) :
    lengthField left multiplier value (bytes ++ more) = .malformed := by
  induction left generalizing multiplier value bytes with
  | zero => rfl
  | succ left ih =>
      cases bytes with
      | nil => cases malformed
      | cons c bytes =>
          simp only [lengthField, List.cons_append] at malformed ⊢
          split at malformed
          next continues =>
            rw [if_pos continues]
            exact ih malformed
          next => cases malformed

theorem not_malformed (isStream : front ++ more = stream packets) :
    ¬MQTTPacket.Malformed front := by
  rintro ⟨header, bytes, rfl, malformed⟩
  have grown : remainingLength (bytes ++ more) = .malformed := lengthField_malformed malformed
  cases packets with
  | nil => cases isStream
  | cons packet packets =>
      have field : remainingLength (packet.field ++ (packet.body ++ stream packets)) =
          .complete packet.body.length (packet.body ++ stream packets) :=
        lengthField_grows packet.isLength
      have same : header :: (bytes ++ more) =
          packet.header :: (packet.field ++ (packet.body ++ stream packets)) := by
        simpa [stream, WirePacket.bytes] using isStream
      injection same with _ same
      rw [same, field] at grown
      cases grown

end WirePacket

/-- The sockets of a process: what is still to come for each socket, the sockets that were closed,
and what `MQTTPacket_Factory` returned for each, other than `TCPSOCKET_INTERRUPTED`. -/
structure Readers (Pack : Type) where
  t : Transport
  coming : SOCKET → Bytes
  closed : SOCKET → Bool
  returned : SOCKET → List (FactoryResult Pack)

namespace Readers

open MQTTPacket Sockets

/-- What happens to the sockets. -/
inductive Input where
  /-- At most `n` more bytes of the stream arrive. -/
  | arrive (socket : SOCKET) (n : Nat)
  /-- The peer closes the connection, or it fails. -/
  | lose (socket : SOCKET) (failed : Bool)
  /-- `MQTTPacket_Factory` is called. -/
  | factory (socket : SOCKET)
  deriving DecidableEq, Repr

variable {Pack : Type}

/-- Change what the kernel has for a socket. -/
def setKernel (r : Readers Pack) (socket : SOCKET) (kernel : Kernel) : Readers Pack :=
  { r with
    t := { r.t with
      sockets := { r.t.sockets with kernel := Function.update r.t.sockets.kernel socket kernel } } }

/-- The caller of `MQTTPacket_Factory` handles the packet, or closes the socket on an error. -/
def handle (r : Readers Pack) (socket : SOCKET) (t : Transport) :
    FactoryResult Pack → Readers Pack
  | .none .interrupted => { r with t := t }
  | .none .socketError =>
      { r with
        t := { t with sockets := Socket.close t.sockets socket }
        closed := Function.update r.closed socket true
        returned :=
          Function.update r.returned socket (r.returned socket ++ [.none .socketError]) }
  | result =>
      { r with
        t := t
        returned := Function.update r.returned socket (r.returned socket ++ [result]) }

/-- A step of the process. The cycle reads open sockets with a number above 0 only. -/
def step (newPackets : SOCKET → NewPackets Pack) (r : Readers Pack) :
    Input → Option (Readers Pack)
  | .arrive socket n =>
      let kernel := r.t.sockets.kernel socket
      some { r.setKernel socket { kernel with
          arrived := kernel.arrived ++ (r.coming socket).take n } with
        coming := Function.update r.coming socket ((r.coming socket).drop n) }
  | .lose socket failed =>
      some (r.setKernel socket { r.t.sockets.kernel socket with
        peer := if failed then .failed else .closed })
  | .factory socket =>
      if socket = 0 ∨ r.closed socket then some r
      else
        (factory (newPackets socket) r.t (plain socket)).map fun (result, _, t) =>
          r.handle socket t result

/-- A run; it has no outcome if a step has none. -/
def run (newPackets : SOCKET → NewPackets Pack) (r : Readers Pack) (inputs : List Input) :
    Option (Readers Pack) :=
  Machine.run (fun r input => r.bind (step newPackets · input)) (some r) inputs

/-- Before anything has arrived. -/
def start (packets : SOCKET → List WirePacket) : Readers Pack :=
  { t :=
      { sockets := { kernel := fun _ => ⟨[], .connected⟩, def_queue := .empty, queues := [] }
        in_frames := []
        frame_buffer := []
        frame_buffer_index := 0
        pongs := [] }
    coming := fun socket => WirePacket.stream (packets socket)
    closed := fun _ => false
    returned := fun _ => [] }

/-- The connection of a socket has not been lost. -/
def Connected (r : Readers Pack) (socket : SOCKET) : Prop :=
  (r.t.sockets.kernel socket).peer = .connected

/-- What `MQTTPacket_Factory` returns for the packets that a reader has read. -/
def results (newPackets : NewPackets Pack) (reader : Reader UInt8 Contents) :
    List (FactoryResult Pack) :=
  reader.read.map fun contents => result newPackets contents.1 contents.2

/-- A reader that has read what the calls returned for a socket. -/
structure Reads (newPackets : NewPackets Pack) (packets : List WirePacket) (r : Readers Pack)
    (socket : SOCKET) (reader : Reader UInt8 Contents) : Prop where
  follows : reader.Follows (PacketStream.packets newPackets) (WirePacket.stream packets)
    (r.coming socket)
  whole : ∃ rest, reader.unread ++ r.coming socket = WirePacket.stream rest
  returned : r.returned socket = results newPackets reader ∨
    (¬r.Connected socket ∧ r.closed socket = true ∧
      r.returned socket = results newPackets reader ++ [.none .socketError])
  waiting : r.closed socket = false →
    r.returned socket = results newPackets reader ∧ reader.stopped = false ∧
      r.t.sockets.Waiting socket reader.unread
  closed : r.closed socket = true → reader.stopped = true ∨ ¬r.Connected socket

/-- The state of the process between two steps. -/
structure Consistent (newPackets : SOCKET → NewPackets Pack)
    (packets : SOCKET → List WirePacket) (r : Readers Pack) : Prop where
  noFrames : r.t.in_frames = []
  idle : r.t.sockets.Idle
  reads : ∀ socket, 0 < socket →
    ∃ reader, Reads (newPackets socket) (packets socket) r socket reader

end Readers

namespace Sockets.Waiting

variable {s s' : Sockets} {socket : SOCKET} {stream more : Bytes}

/-- More of the stream arrives, and the saved queue stays as it is. -/
theorem append (waiting : s.Waiting socket stream) (idle : s'.Idle)
    (queue : s'.queue socket = s.queue socket)
    (arrived : (s'.kernel socket).arrived = (s.kernel socket).arrived ++ more) :
    s'.Waiting socket (stream ++ more) := by
  refine ⟨idle, idle.serves socket, ?_, ?_, ?_, ?_⟩
  · rw [queue]
    exact waiting.reading.index
  · rcases waiting.reading.split with ⟨saved, header, isStream⟩
    refine ⟨saved, by rw [queue]; exact header, ?_⟩
    rw [queue, arrived, isStream]
    simp only [List.append_assoc]
  · rw [queue]
    exact waiting.reading.header
  · rw [queue]
    exact waiting.reading.data

theorem congr (waiting : s.Waiting socket stream) (idle : s'.Idle)
    (queue : s'.queue socket = s.queue socket)
    (arrived : (s'.kernel socket).arrived = (s.kernel socket).arrived) :
    s'.Waiting socket stream := by
  have same := waiting.append idle queue (arrived.trans (List.append_nil _).symm)
  rwa [List.append_nil] at same

end Sockets.Waiting

namespace Readers

open MQTTPacket Sockets

variable {Pack : Type} {newPackets : NewPackets Pack} {packets : List WirePacket}
  {r r' : Readers Pack} {socket : SOCKET} {reader : Reader UInt8 Contents}

/-- What other sockets do does not matter to a socket. -/
theorem Reads.frame (reads : Reads newPackets packets r socket reader)
    (coming : r'.coming socket = r.coming socket) (closed : r'.closed socket = r.closed socket)
    (returned : r'.returned socket = r.returned socket) (idle : r'.t.sockets.Idle)
    (queue : r'.t.sockets.queue socket = r.t.sockets.queue socket)
    (kernel : r'.t.sockets.kernel socket = r.t.sockets.kernel socket) :
    Reads newPackets packets r' socket reader := by
  have connected : r'.Connected socket ↔ r.Connected socket := by
    unfold Connected
    rw [kernel]
  refine ⟨?_, ?_, ?_, ?_, ?_⟩
  · rw [coming]
    exact reads.follows
  · rw [coming]
    exact reads.whole
  · rw [returned, connected, closed]
    exact reads.returned
  · intro isOpen
    rw [closed] at isOpen
    rcases reads.waiting isOpen with ⟨same, going, waiting⟩
    exact ⟨returned.trans same, going, waiting.congr idle queue (by rw [kernel])⟩
  · rw [closed, connected]
    exact reads.closed

/-- More bytes arrive. -/
theorem Reads.arrive (reads : Reads newPackets packets r socket reader) (n : Nat)
    (coming : r'.coming socket = (r.coming socket).drop n)
    (closed : r'.closed socket = r.closed socket)
    (returned : r'.returned socket = r.returned socket) (idle : r'.t.sockets.Idle)
    (queue : r'.t.sockets.queue socket = r.t.sockets.queue socket)
    (kernel : r'.t.sockets.kernel socket =
      { r.t.sockets.kernel socket with
        arrived := (r.t.sockets.kernel socket).arrived ++ (r.coming socket).take n }) :
    Reads newPackets packets r' socket (reader.extend ((r.coming socket).take n)) := by
  have connected : r'.Connected socket ↔ r.Connected socket := by
    unfold Connected
    rw [kernel]
  have parts : r.coming socket = (r.coming socket).take n ++ (r.coming socket).drop n :=
    (List.take_append_drop n _).symm
  refine ⟨?_, ?_, ?_, ?_, ?_⟩
  · apply Reader.Follows.extend
    rw [coming, ← parts]
    exact reads.follows
  · rcases reads.whole with ⟨rest, whole⟩
    refine ⟨rest, ?_⟩
    rw [coming, ← whole]
    simp only [Reader.extend, List.append_assoc, List.take_append_drop]
  · rw [returned, connected, closed]
    exact reads.returned
  · intro isOpen
    rw [closed] at isOpen
    rcases reads.waiting isOpen with ⟨same, going, waiting⟩
    exact ⟨returned.trans same, going, waiting.append idle queue (by rw [kernel])⟩
  · rw [closed, connected]
    exact reads.closed

/-- The connection is lost. -/
theorem Reads.lose (reads : Reads newPackets packets r socket reader)
    (coming : r'.coming socket = r.coming socket) (closed : r'.closed socket = r.closed socket)
    (returned : r'.returned socket = r.returned socket) (idle : r'.t.sockets.Idle)
    (queue : r'.t.sockets.queue socket = r.t.sockets.queue socket)
    (arrived : (r'.t.sockets.kernel socket).arrived = (r.t.sockets.kernel socket).arrived)
    (lost : ¬r'.Connected socket) : Reads newPackets packets r' socket reader := by
  refine ⟨?_, ?_, ?_, ?_, ?_⟩
  · rw [coming]
    exact reads.follows
  · rw [coming]
    exact reads.whole
  · rw [returned, closed]
    exact reads.returned.imp_right fun ⟨_, rest⟩ => ⟨lost, rest⟩
  · intro isOpen
    rw [closed] at isOpen
    rcases reads.waiting isOpen with ⟨same, going, waiting⟩
    exact ⟨returned.trans same, going, waiting.congr idle queue arrived⟩
  · exact fun _ => .inr lost

/-- A packet was taken off what the socket has. -/
theorem Reads.take (reads : Reads newPackets packets r socket reader)
    (isOpen : r.closed socket = false) {contents : Contents} {rest : Bytes}
    (taken : takePacket reader.unread = some (contents, rest))
    (coming : r'.coming socket = r.coming socket)
    (returned : r'.returned socket =
      r.returned socket ++ [result newPackets contents.1 contents.2])
    (stopped : r'.closed socket = (PacketStream.packets newPackets).stops contents)
    (waiting : r'.closed socket = false → r'.t.sockets.Waiting socket rest) :
    Reads newPackets packets r' socket (reader.next (PacketStream.packets newPackets)) := by
  rcases reads.waiting isOpen with ⟨same, going, _⟩
  have next : reader.next (PacketStream.packets newPackets) =
      { unread := rest
        read := reader.read ++ [contents]
        stopped := (PacketStream.packets newPackets).stops contents } := by
    have taken' : (PacketStream.packets newPackets).take reader.unread = some (contents, rest) :=
      taken
    simp [Reader.next, going, taken']
  have results' : r'.returned socket =
      results newPackets (reader.next (PacketStream.packets newPackets)) := by
    rw [returned, same, next]
    simp [results]
  refine ⟨?_, ?_, .inl results', ?_, ?_⟩
  · rw [coming]
    exact reads.follows.next
  · rcases reads.whole with ⟨others, whole⟩
    rw [coming, next]
    exact WirePacket.stream_of_take whole taken
  · intro isOpen'
    refine ⟨results', ?_, ?_⟩
    · rw [next]
      exact stopped.symm.trans isOpen'
    · rw [next]
      exact waiting isOpen'
  · intro isClosed
    rw [next]
    exact .inl (stopped.symm.trans isClosed)

/-- No complete packet is there. -/
theorem next_of_none (incomplete : takePacket reader.unread = none) :
    reader.next (PacketStream.packets newPackets) = reader := by
  have none : (PacketStream.packets newPackets).take reader.unread = none := incomplete
  unfold Reader.next
  split
  · rfl
  · rw [none]

/-- What a step on one socket leaves as it is. -/
structure Aside (socket : SOCKET) (r r' : Readers Pack) : Prop where
  noFrames : r'.t.in_frames = []
  idle : r'.t.sockets.Idle
  only : OnlyFor socket r.t.sockets r'.t.sockets
  coming : r'.coming = r.coming
  closed : ∀ other, other ≠ socket → r'.closed other = r.closed other
  returned : ∀ other, other ≠ socket → r'.returned other = r.returned other

theorem Reads.aside {other : SOCKET} (reads : Reads newPackets packets r other reader)
    (aside : Aside socket r r') (positive : 0 < other) (different : other ≠ socket) :
    Reads newPackets packets r' other reader := by
  have only := aside.only other positive different
  exact reads.frame (by rw [aside.coming]) (aside.closed other different)
    (aside.returned other different) aside.idle only.1 only.2

/-- The socket is closed after an error. -/
theorem handle_socketError (positive : 0 < socket) {t : Transport} (noFrames : t.in_frames = [])
    (serves : t.sockets.Serves socket) (only : OnlyFor socket r.t.sockets t.sockets) :
    ∃ r', r.handle socket t (.none .socketError) = r' ∧ Aside socket r r' ∧
      (r'.t.sockets.kernel socket).peer = (t.sockets.kernel socket).peer ∧
      r'.closed socket = true ∧
      r'.returned socket = r.returned socket ++ [.none .socketError] := by
  have close : Socket.close t.sockets socket = SocketBuffer.complete t.sockets socket :=
    cleanup_eq serves positive
  rcases complete_spec serves positive with ⟨idle, _, kernel, only'⟩
  refine ⟨_, rfl, ⟨noFrames, ?_, ?_, rfl, ?_, ?_⟩, ?_, by simp [handle], by simp [handle]⟩
  · change (Socket.close t.sockets socket).Idle
    rw [close]
    exact idle
  · change OnlyFor socket r.t.sockets (Socket.close t.sockets socket)
    rw [close]
    exact only.trans only'
  · intro other different
    simp [handle, different]
  · intro other different
    simp [handle, different]
  · change ((Socket.close t.sockets socket).kernel socket).peer = _
    rw [close, kernel]

/-- A packet, or the fact that there is no function for it, is handled. -/
theorem handle_taken {t : Transport} {result : FactoryResult Pack} (noFrames : t.in_frames = [])
    (idle : t.sockets.Idle) (only : OnlyFor socket r.t.sockets t.sockets)
    (notInterrupted : result ≠ .none .interrupted) (noError : result ≠ .none .socketError) :
    ∃ r', r.handle socket t result = r' ∧ Aside socket r r' ∧ r'.t = t ∧
      r'.closed socket = r.closed socket ∧
      r'.returned socket = r.returned socket ++ [result] := by
  have handled : r.handle socket t result =
      { r with
        t := t
        returned := Function.update r.returned socket (r.returned socket ++ [result]) } := by
    cases result with
    | pack pack => rfl
    | none error =>
        cases error with
        | complete => rfl
        | interrupted => exact absurd rfl notInterrupted
        | socketError => exact absurd rfl noError
  refine ⟨_, handled, ⟨noFrames, idle, only, rfl, fun _ _ => rfl, ?_⟩, rfl, rfl, by simp⟩
  intro other different
  simp [different]

/-- `MQTTPacket_Factory` on an open socket reads what the reader reads next. -/
theorem Reads.factory (reads : Reads newPackets packets r socket reader) (positive : 0 < socket)
    (noFrames : r.t.in_frames = []) (isOpen : r.closed socket = false) :
    ∃ result t, MQTTPacket.factory newPackets r.t (plain socket) = some (result, plain socket, t) ∧
      Aside socket r (r.handle socket t result) ∧
      Reads newPackets packets (r.handle socket t result) socket
        (reader.next (PacketStream.packets newPackets)) := by
  rcases reads.waiting isOpen with ⟨same, going, waiting⟩
  rcases factory_plain newPackets positive noFrames waiting with
    ⟨result, s, read, peer, only, spec⟩
  refine ⟨result, _, read, ?_⟩
  cases taken : takePacket reader.unread with
  | some packet =>
      rcases packet with ⟨contents, rest⟩
      rw [taken] at spec
      rcases spec with ⟨isResult, waits⟩
      have takes := @Reads.take _ _ _ r (r.handle socket { r.t with sockets := s } result) _ _
        reads isOpen contents rest taken
      cases kind : newPackets contents.1 contents.2 with
      | bad =>
          have isError : result = .none .socketError := by
            rw [isResult]
            simp [MQTTPacket.result, kind]
          rcases @handle_socketError _ r _ positive { r.t with sockets := s } noFrames
            (waits.idle.serves socket) only with ⟨r', handled, aside, _, closed, returned⟩
          rw [isError, handled] at takes ⊢
          refine ⟨aside, takes (by rw [aside.coming]) ?_ ?_ ?_⟩
          · rw [returned, ← isResult, isError]
          · simp [closed, PacketStream.packets, kind]
          · intro isOpen'
            rw [closed] at isOpen'
            cases isOpen'
      | unknown =>
          have isNone : result = .none .complete := by
            rw [isResult]
            simp [MQTTPacket.result, kind]
          rcases @handle_taken _ r _ { r.t with sockets := s } result noFrames waits.idle only
            (by simp [isNone]) (by simp [isNone]) with ⟨r', handled, aside, isT, closed, returned⟩
          rw [handled] at takes ⊢
          refine ⟨aside, takes (by rw [aside.coming]) ?_ ?_ ?_⟩
          · rw [returned, isResult]
          · simp [closed, isOpen, PacketStream.packets, kind]
          · rw [isT]
            exact fun _ => waits
      | pack pack =>
          have isPack : result = .pack pack := by
            rw [isResult]
            simp [MQTTPacket.result, kind]
          rcases @handle_taken _ r _ { r.t with sockets := s } result noFrames waits.idle only
            (by simp [isPack]) (by simp [isPack]) with ⟨r', handled, aside, isT, closed, returned⟩
          rw [handled] at takes ⊢
          refine ⟨aside, takes (by rw [aside.coming]) ?_ ?_ ?_⟩
          · rw [returned, isResult]
          · simp [closed, isOpen, PacketStream.packets, kind]
          · rw [isT]
            exact fun _ => waits
  | none =>
      rw [taken] at spec
      rw [next_of_none taken]
      rcases spec with ⟨rfl, waits⟩ | ⟨rfl, serves, lost⟩
      · refine ⟨⟨noFrames, waits.idle, only, rfl, fun _ _ => rfl, fun _ _ => rfl⟩, ?_⟩
        have connected : (r.handle socket { r.t with sockets := s } (.none .interrupted)).Connected
            socket ↔ r.Connected socket := by
          unfold Connected
          exact iff_of_eq (congrArg (· = Peer.connected) peer)
        refine ⟨reads.follows, reads.whole, .inl same, fun _ => ⟨same, going, waits⟩, ?_⟩
        rw [connected]
        exact reads.closed
      · have lost' : ¬r.Connected socket := by
          rcases reads.whole with ⟨rest, whole⟩
          exact lost.resolve_right (WirePacket.not_malformed whole)
        rcases @handle_socketError _ r _ positive { r.t with sockets := s } noFrames serves only
          with ⟨r', handled, aside, peer', closed, returned⟩
        rw [handled]
        have lost'' : ¬r'.Connected socket := by
          intro connected
          exact lost' (peer.symm.trans (peer'.symm.trans connected))
        refine ⟨aside, ?_, ?_, .inr ⟨lost'', closed, by rw [returned, same]⟩, ?_,
          fun _ => .inr lost''⟩
        · rw [aside.coming]
          exact reads.follows
        · rw [aside.coming]
          exact reads.whole
        · intro isOpen'
          rw [closed] at isOpen'
          cases isOpen'

/-- How a step moves the reader of a socket. -/
def advance (newPackets : NewPackets Pack) (r : Readers Pack) (socket : SOCKET)
    (reader : Reader UInt8 Contents) : Input → Reader UInt8 Contents
  | .arrive other n => if other = socket then reader.extend ((r.coming socket).take n) else reader
  | .lose _ _ => reader
  | .factory other =>
      if other = socket ∧ r.closed socket = false then
        reader.next (PacketStream.packets newPackets)
      else reader

section Runs

variable {newPackets : SOCKET → NewPackets Pack} {packets : SOCKET → List WirePacket}

theorem Consistent.setKernel (consistent : Consistent newPackets packets r) (other : SOCKET)
    (kernel : Kernel) : (r.setKernel other kernel).t.sockets.Idle :=
  ⟨consistent.idle.distinct, consistent.idle.default⟩

theorem step_spec (consistent : Consistent newPackets packets r) (input : Input) :
    ∃ r', step newPackets r input = some r' ∧ r'.t.in_frames = [] ∧ r'.t.sockets.Idle ∧
      ∀ socket, 0 < socket → ∀ reader,
        Reads (newPackets socket) (packets socket) r socket reader →
          Reads (newPackets socket) (packets socket) r' socket
            (advance (newPackets socket) r socket reader input) := by
  cases input with
  | arrive other n =>
      refine ⟨_, rfl, consistent.noFrames, consistent.setKernel other _, ?_⟩
      intro socket positive reader reads
      by_cases same : other = socket
      · subst same
        rw [advance, if_pos rfl]
        exact reads.arrive n (by simp) rfl rfl (consistent.setKernel other _) rfl
          (by simp [setKernel])
      · rw [advance, if_neg same]
        exact reads.frame (by simp [Ne.symm same]) rfl rfl
          (consistent.setKernel other _) rfl (by simp [Ne.symm same, setKernel])
  | lose other failed =>
      refine ⟨_, rfl, consistent.noFrames, consistent.setKernel other _, ?_⟩
      intro socket positive reader reads
      by_cases same : other = socket
      · subst same
        refine reads.lose rfl rfl rfl (consistent.setKernel other _) rfl (by simp [setKernel]) ?_
        cases failed <;> simp [Connected, setKernel]
      · exact reads.frame rfl rfl rfl (consistent.setKernel other _) rfl
          (by simp [Ne.symm same, setKernel])
  | factory other =>
      by_cases skipped : other = 0 ∨ r.closed other = true
      · refine ⟨r, if_pos skipped, consistent.noFrames, consistent.idle, ?_⟩
        intro socket positive reader reads
        rw [advance, if_neg]
        · exact reads
        · rintro ⟨rfl, isOpen⟩
          rcases skipped with zero | isClosed
          · exact absurd zero (Nat.ne_of_gt positive)
          · cases isOpen.symm.trans isClosed
      · have positive : 0 < other := Nat.pos_of_ne_zero fun zero => skipped (.inl zero)
        have isOpen : r.closed other = false := by
          cases isClosed : r.closed other with
          | false => rfl
          | true => exact absurd (.inr isClosed) skipped
        rcases consistent.reads other positive with ⟨own, reads⟩
        rcases reads.factory positive consistent.noFrames isOpen with ⟨result, t, read, aside, _⟩
        refine ⟨r.handle other t result, ?_, aside.noFrames, aside.idle, ?_⟩
        · simp only [step]
          rw [if_neg skipped, read]
          rfl
        · intro socket positive' reader reads'
          by_cases same : other = socket
          · subst same
            rcases reads'.factory positive consistent.noFrames isOpen with
              ⟨result', t', read', _, next⟩
            cases read.symm.trans read'
            rw [advance, if_pos ⟨rfl, isOpen⟩]
            exact next
          · rw [advance, if_neg fun both => same both.1]
            exact reads'.aside aside positive' (Ne.symm same)

theorem Consistent.step (consistent : Consistent newPackets packets r) (input : Input) :
    ∃ r', step newPackets r input = some r' ∧ Consistent newPackets packets r' := by
  rcases step_spec consistent input with ⟨r', stepped, noFrames, idle, reads⟩
  refine ⟨r', stepped, noFrames, idle, ?_⟩
  intro socket positive
  rcases consistent.reads socket positive with ⟨reader, before⟩
  exact ⟨_, reads socket positive reader before⟩

theorem consistent_start (newPackets : SOCKET → NewPackets Pack)
    (packets : SOCKET → List WirePacket) : Consistent newPackets packets (start packets) := by
  have idle : (start packets : Readers Pack).t.sockets.Idle := ⟨List.nodup_nil, rfl⟩
  refine ⟨rfl, idle, fun socket positive => ⟨⟨[], [], false⟩, ?_⟩⟩
  refine ⟨Reader.Follows.start _ _, ⟨packets socket, rfl⟩, .inl rfl, ?_, by simp [start]⟩
  exact fun _ => ⟨rfl, rfl, waiting_of_noQueues rfl rfl positive⟩

theorem run_cons {input : Input} {inputs : List Input}
    (stepped : Readers.step newPackets r input = some r') :
    run newPackets r (input :: inputs) = run newPackets r' inputs := by
  simp [run, stepped]

theorem Consistent.run (consistent : Consistent newPackets packets r) (inputs : List Input) :
    ∃ r', run newPackets r inputs = some r' ∧ Consistent newPackets packets r' := by
  induction inputs generalizing r with
  | nil => exact ⟨r, rfl, consistent⟩
  | cons input inputs ih =>
      rcases consistent.step input with ⟨r', stepped, consistent'⟩
      rw [run_cons stepped]
      exact ih consistent'

/-- All of the stream has arrived, and the socket has nothing more to read or has read `n`
packets. -/
def Drained (newPackets : NewPackets Pack) (packets : List WirePacket) (r : Readers Pack)
    (socket : SOCKET) (n : Nat) : Prop :=
  r.coming socket = [] ∧ ∃ reader, Reads newPackets packets r socket reader ∧
    (r.closed socket = true ∨ takePacket reader.unread = none ∨ n ≤ reader.read.length)

theorem step_coming (consistent : Consistent newPackets packets r) {input : Input}
    (stepped : Readers.step newPackets r input = some r') (arrived : r.coming socket = []) :
    r'.coming socket = [] := by
  cases input with
  | arrive other n =>
      cases stepped
      by_cases same : socket = other
      · subst same
        simp [arrived]
      · simp [same, arrived]
  | lose other failed =>
      cases stepped
      exact arrived
  | factory other =>
      simp only [Readers.step] at stepped
      split at stepped
      · cases stepped
        exact arrived
      next notSkipped =>
        have positive : 0 < other := Nat.pos_of_ne_zero fun zero => notSkipped (.inl zero)
        have isOpen : r.closed other = false := by
          cases isClosed : r.closed other with
          | false => rfl
          | true => exact absurd (.inr isClosed) notSkipped
        rcases consistent.reads other positive with ⟨own, reads⟩
        rcases reads.factory positive consistent.noFrames isOpen with ⟨result, t, read, aside, _⟩
        rw [read] at stepped
        cases stepped
        rw [aside.coming]
        exact arrived

theorem step_closed (consistent : Consistent newPackets packets r) {input : Input}
    (stepped : Readers.step newPackets r input = some r') (isClosed : r.closed socket = true) :
    r'.closed socket = true := by
  cases input with
  | arrive other n =>
      cases stepped
      exact isClosed
  | lose other failed =>
      cases stepped
      exact isClosed
  | factory other =>
      simp only [Readers.step] at stepped
      split at stepped
      · cases stepped
        exact isClosed
      next notSkipped =>
        have positive : 0 < other := Nat.pos_of_ne_zero fun zero => notSkipped (.inl zero)
        have different : socket ≠ other := by
          rintro rfl
          exact notSkipped (.inr isClosed)
        have isOpen : r.closed other = false := by
          cases closed : r.closed other with
          | false => rfl
          | true => exact absurd (.inr closed) notSkipped
        rcases consistent.reads other positive with ⟨own, reads⟩
        rcases reads.factory positive consistent.noFrames isOpen with ⟨result, t, read, aside, _⟩
        rw [read] at stepped
        cases stepped
        rw [aside.closed socket different]
        exact isClosed

/-- While nothing is to come, a step other than `MQTTPacket_Factory` leaves a reader as it is. -/
theorem advance_eq {newPackets : NewPackets Pack} (arrived : r.coming socket = [])
    {input : Input} (notFactory : input ≠ .factory socket) :
    advance newPackets r socket reader input = reader := by
  cases input with
  | arrive other n => simp [advance, arrived, Reader.extend]
  | lose other failed => rfl
  | factory other =>
      have different : ¬other = socket := fun same => notFactory (by rw [same])
      simp [advance, different]

theorem Drained.step (consistent : Consistent newPackets packets r) (positive : 0 < socket)
    {n : Nat} (drained : Drained (newPackets socket) (packets socket) r socket n) {input : Input}
    (stepped : Readers.step newPackets r input = some r') :
    Drained (newPackets socket) (packets socket) r' socket
      (n + [input].count (.factory socket)) := by
  rcases drained with ⟨arrived, reader, reads, drained⟩
  rcases step_spec consistent input with ⟨_, stepped', _, _, spec⟩
  cases stepped.symm.trans stepped'
  have reads' := spec socket positive reader reads
  refine ⟨step_coming consistent stepped arrived, _, reads', ?_⟩
  by_cases isFactory : input = .factory socket
  · subst isFactory
    rcases drained with isClosed | incomplete | enough
    · exact .inl (step_closed consistent stepped isClosed)
    · rw [advance]
      split
      · rw [next_of_none incomplete]
        exact .inr (.inl incomplete)
      · exact .inr (.inl incomplete)
    · cases isClosed : r.closed socket with
      | true => exact .inl (step_closed consistent stepped isClosed)
      | false =>
          rw [advance, if_pos ⟨rfl, isClosed⟩]
          cases taken : takePacket reader.unread with
          | none =>
              rw [next_of_none taken]
              exact .inr (.inl taken)
          | some packet =>
              have going := (reads.waiting isClosed).2.1
              have more := @Reader.read_next _ _ (PacketStream.packets (newPackets socket)) _ _
                reader going taken
              right
              right
              rw [more]
              simp only [List.count_singleton_self, List.length_append, List.length_singleton]
              omega
  · rw [advance_eq arrived isFactory]
    have uncounted : [input].count (.factory socket) = 0 := by simp [isFactory]
    rw [uncounted]
    exact drained.imp_left (step_closed consistent stepped)

theorem Drained.run (consistent : Consistent newPackets packets r) (positive : 0 < socket)
    {n : Nat} (drained : Drained (newPackets socket) (packets socket) r socket n)
    {inputs : List Input} (ran : Readers.run newPackets r inputs = some r') :
    Drained (newPackets socket) (packets socket) r' socket
      (n + inputs.count (.factory socket)) := by
  induction inputs generalizing r n with
  | nil =>
      cases ran
      exact drained
  | cons input inputs ih =>
      rcases consistent.step input with ⟨next, stepped, consistent'⟩
      rw [run_cons stepped] at ran
      have after := ih consistent' (drained.step consistent positive stepped) ran
      have count : (input :: inputs).count (.factory socket) =
          [input].count (.factory socket) + inputs.count (.factory socket) :=
        @List.count_append _ _ _ [input] inputs
      rw [count, ← Nat.add_assoc]
      exact after

/-- What has been returned for a socket begins what its stream is parsed as. -/
theorem Reads.isPrefix {newPackets : NewPackets Pack} {packets : List WirePacket}
    (reads : Reads newPackets packets r socket reader) :
    results newPackets reader <+: WirePacket.parsed newPackets packets := by
  rw [← WirePacket.items_stream]
  exact reads.follows.isPrefix.map _

/-- A drained socket has returned all of its stream, unless its connection was lost. -/
theorem Drained.complete {newPackets : NewPackets Pack} {packets : List WirePacket} {n : Nat}
    (drained : Drained newPackets packets r socket n)
    (enough : (WirePacket.parsed newPackets packets).length ≤ n) (connected : r.Connected socket) :
    r.returned socket = WirePacket.parsed newPackets packets := by
  rcases drained with ⟨arrived, reader, reads, drained⟩
  have returned := reads.returned.resolve_right fun lost => lost.1 connected
  have follows := reads.follows
  rw [arrived] at follows
  rw [returned]
  have complete (done : reader.stopped = true ∨
      (PacketStream.packets newPackets).take reader.unread = none) :
      results newPackets reader = WirePacket.parsed newPackets packets := by
    rw [← WirePacket.items_stream, ← follows.complete done]
    rfl
  rcases drained with isClosed | incomplete | all
  · exact complete (.inl ((reads.closed isClosed).resolve_right fun lost => lost connected))
  · exact complete (.inr incomplete)
  · apply reads.isPrefix.eq_of_length_le
    rw [results, List.length_map]
    omega

end Runs

/-- Chunking and interleaving are invisible. In every run, what `MQTTPacket_Factory` returned for
a socket begins what its stream is parsed as, with one error behind it if the connection was lost.
When all of the stream has arrived, as many further calls as there are packets return all of
them. -/
theorem chunking_invisible (newPackets : SOCKET → NewPackets Pack)
    (packets : SOCKET → List WirePacket) (inputs more : List Input) :
    ∃ r r', run newPackets (start packets) inputs = some r ∧ run newPackets r more = some r' ∧
      ∀ socket, 0 < socket →
        (∃ read, read <+: WirePacket.parsed (newPackets socket) (packets socket) ∧
          (r'.returned socket = read ∨
            (¬r'.Connected socket ∧ r'.returned socket = read ++ [.none .socketError]))) ∧
        (r.coming socket = [] →
          (WirePacket.parsed (newPackets socket) (packets socket)).length ≤
            more.count (.factory socket) →
          r'.Connected socket →
            r'.returned socket = WirePacket.parsed (newPackets socket) (packets socket)) := by
  rcases (consistent_start newPackets packets).run inputs with ⟨r, ran, consistent⟩
  rcases consistent.run more with ⟨r', ran', consistent'⟩
  refine ⟨r, r', ran, ran', fun socket positive => ⟨?_, ?_⟩⟩
  · rcases consistent'.reads socket positive with ⟨reader, reads⟩
    refine ⟨_, reads.isPrefix, ?_⟩
    exact reads.returned.imp_right fun ⟨lost, _, returned⟩ => ⟨lost, returned⟩
  · intro arrived enough connected
    rcases consistent.reads socket positive with ⟨reader, reads⟩
    have drained : Drained (newPackets socket) (packets socket) r socket 0 :=
      ⟨arrived, reader, reads, .inr (.inr (Nat.zero_le _))⟩
    have after := drained.run consistent positive ran'
    rw [Nat.zero_add] at after
    exact after.complete enough connected

end Readers

end Paho
