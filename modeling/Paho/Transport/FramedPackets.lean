import Paho.Library.Run
import Paho.Transport.Reassembly

/-!
# A WebSocket connection and the packets of its stream

The bytes of data frames arrive in pieces, and `MQTTPacket_Factory` is called again and again. The
packets that the calls return are those of the stream in the frames, wherever the frames end.
-/

namespace Paho

open PacketStream Splitter WebSocket WireFrame

namespace WireFrame

/-- A data frame that is a whole message and is not masked. -/
structure IsData (frame : WireFrame) : Prop where
  final : frame.is_final = true
  opcode : frame.opcode = 1 ∨ frame.opcode = opBinary
  unmasked : frame.second.toNat < 128
  nonempty : frame.payload ≠ []

theorem IsData.not_control {frame : WireFrame} (isData : frame.IsData) :
    ¬frame.isControl = true := by
  rcases isData.opcode with text | binary
  · simp [isControl, text, opClose]
  · simp [isControl, binary, opBinary, opClose]

theorem IsData.message {frame : WireFrame} (isData : frame.IsData) (frames : List WireFrame) :
    message (frame :: frames) = some (frame.payload, frames) := by
  rw [WireFrame.message, if_neg isData.not_control, if_pos isData.final]

/-- Data frames are received until there is enough data, or none is left. -/
theorem exists_fetches (enough : Bytes → Prop) {frames : List WireFrame}
    (isData : ∀ frame ∈ frames, frame.IsData) (linked : Bool) (held : Bytes) :
    ∃ whole behind, Fetches enough linked held frames whole behind [] [] ∧ behind <:+ frames ∧
      (¬enough whole → behind = []) := by
  induction frames generalizing linked held with
  | nil =>
      by_cases isEnough : enough held
      · exact ⟨held, [], .enough isEnough, List.suffix_rfl, fun _ => rfl⟩
      · exact ⟨held, [], .cut isEnough (.interrupted linked), List.suffix_rfl, fun _ => rfl⟩
  | cons frame frames ih =>
      by_cases isEnough : enough held
      · exact ⟨held, frame :: frames, .enough isEnough, List.suffix_rfl,
          fun few => absurd isEnough few⟩
      · rcases List.forall_mem_cons.mp isData with ⟨first, others⟩
        rcases ih others true (held ++ frame.payload) with ⟨whole, behind, fetches, isSuffix, done⟩
        have receives : Receives linked (frame :: frames) .complete frame.payload frames [] :=
          .complete (first.message frames) first.nonempty
        exact ⟨whole, behind, .received isEnough receives fetches,
          isSuffix.trans (List.suffix_cons ..),
          done⟩

end WireFrame

/-- A WebSocket connection: what is still to come, whether it was closed after an error, and what
`MQTTPacket_Factory` returned, other than `TCPSOCKET_INTERRUPTED`. -/
structure FramedReader (Pack : Type) where
  t : Transport
  net : Net
  coming : Bytes
  closed : Bool
  returned : List (FactoryResult Pack)

namespace FramedReader

open MQTTPacket

/-- What happens to the connection. -/
inductive Input where
  /-- At most `n` more bytes of the stream arrive. -/
  | arrive (n : Nat)
  /-- `MQTTPacket_Factory` is called. -/
  | factory
  deriving DecidableEq, Repr

variable {Pack : Type}

/-- The caller of `MQTTPacket_Factory` handles the packet, or closes the connection on an error. -/
def handle (s : FramedReader Pack) (net : Net) (t : Transport) :
    FactoryResult Pack → FramedReader Pack
  | .none .interrupted => { s with t := t, net := net }
  | .none .socketError =>
      { s with
        t := t
        net := net
        closed := true
        returned := s.returned ++ [.none .socketError] }
  | result => { s with t := t, net := net, returned := s.returned ++ [result] }

/-- A step of the connection; it has no outcome when freed memory is accessed. -/
def step (newPackets : NewPackets Pack) (s : FramedReader Pack) : Input → Option (FramedReader Pack)
  | .arrive n =>
      let kernel := s.t.sockets.kernel s.net.socket
      let arrived := { kernel with arrived := kernel.arrived ++ s.coming.take n }
      some { s with
        t := { s.t with
          sockets := { s.t.sockets with
            kernel := Function.update s.t.sockets.kernel s.net.socket arrived } }
        coming := s.coming.drop n }
  | .factory =>
      if s.closed then some s
      else
        (factory newPackets s.t s.net).map fun (result, net, t) => s.handle net t result

/-- A run; it has no outcome if a step has none. -/
def run (newPackets : NewPackets Pack) (s : FramedReader Pack) (inputs : List Input) :
    Option (FramedReader Pack) :=
  Machine.run (fun s input => s.bind (step newPackets · input)) (some s) inputs

/-- Before anything has arrived. -/
def start (socket : SOCKET) (websocket_key : Option Bytes) (frames : List WireFrame) :
    FramedReader Pack :=
  { t :=
      { sockets := { kernel := fun _ => ⟨[], .connected⟩, def_queue := .empty, queues := [] }
        in_frames := []
        frame_buffer := []
        frame_buffer_index := 0
        pongs := [] }
    net := webSocket socket websocket_key
    coming := wire frames
    closed := false
    returned := [] }

/-- A reader has read what the calls returned. `ready` are the frames that have arrived and are not
received yet, and `later` those that have not arrived. -/
structure Reads (newPackets : NewPackets Pack) (packets : List WirePacket) (s : FramedReader Pack)
    (ready later : List WireFrame) (reader : Reader UInt8 Contents) : Prop where
  follows : reader.Follows (PacketStream.packets newPackets) (WirePacket.stream packets)
    (payloads (ready ++ later))
  whole : ∃ rest, reader.unread ++ payloads (ready ++ later) = WirePacket.stream rest
  isData : ∀ frame ∈ ready ++ later, frame.IsData
  returned : s.returned = Readers.results newPackets reader
  stopped : reader.stopped = s.closed
  net : ∃ socket websocket_key, 0 < socket ∧ s.net = webSocket socket websocket_key
  keeps : s.closed = false → ∃ start,
    Keeps s.t s.net.socket (!reader.unread.isEmpty) start 0 reader.unread ready later s.coming

variable {newPackets : NewPackets Pack} {packets : List WirePacket} {s s' : FramedReader Pack}
  {ready later : List WireFrame} {reader : Reader UInt8 Contents}

theorem Reads.arrive (reads : Reads newPackets packets s ready later reader) (n : Nat) :
    ∃ s' ready' later', step newPackets s (.arrive n) = some s' ∧
      Reads newPackets packets s' ready' later' reader ∧ s'.returned = s.returned ∧
      s'.coming = s.coming.drop n := by
  cases isClosed : s.closed with
  | true =>
      refine ⟨_, ready, later, rfl, ⟨reads.follows, reads.whole, reads.isData, reads.returned,
        reads.stopped, reads.net, ?_⟩, rfl, rfl⟩
      intro isOpen
      exact absurd (isClosed.symm.trans isOpen) (by simp)
  | false =>
      rcases reads.keeps isClosed with ⟨start, ⟨held, carries⟩⟩
      rcases carries.raw with ⟨bytes, raw, -⟩
      let kernel := s.t.sockets.kernel s.net.socket
      let arrived := { kernel with arrived := kernel.arrived ++ s.coming.take n }
      let t : Transport :=
        { s.t with
          sockets := { s.t.sockets with
            kernel := Function.update s.t.sockets.kernel s.net.socket arrived } }
      have idle : t.sockets.Idle := ⟨raw.idle.distinct, raw.idle.default⟩
      rcases @Carries.arrive _ t _ _ _ _ carries n idle rfl
        (by simp [t, arrived, kernel]) rfl rfl with
        ⟨more, later', rfl, carries'⟩
      have same : ready ++ more ++ later' = ready ++ (more ++ later') := List.append_assoc _ _ _
      refine ⟨_, ready ++ more, later', rfl, ⟨?_, ?_, ?_, reads.returned, reads.stopped, reads.net,
        fun _ => ⟨start, held, carries'⟩⟩, rfl, rfl⟩
      · rw [same]
        exact reads.follows
      · rw [same]
        exact reads.whole
      · rw [same]
        exact reads.isData

/-- The result for a complete packet is handled. -/
theorem handle_result (net : Net) (t : Transport) (contents : Contents)
    (isOpen : s.closed = false) :
    s.handle net t (result newPackets contents.1 contents.2) =
      { s with
        t := t
        net := net
        closed := (PacketStream.packets newPackets).stops contents
        returned := s.returned ++ [result newPackets contents.1 contents.2] } := by
  unfold MQTTPacket.result
  cases kind : newPackets contents.1 contents.2 <;>
    simp [handle, PacketStream.packets, kind, isOpen]

theorem Reads.factory (reads : Reads newPackets packets s ready later reader)
    (isOpen : s.closed = false) :
    ∃ s' ready' reader', step newPackets s .factory = some s' ∧
      Reads newPackets packets s' ready' later reader' ∧ s.returned <+: s'.returned ∧
      s'.coming = s.coming ∧
      (s.returned.length < s'.returned.length ∨ takePacket reader'.unread =
        none ∧ ready' = []) := by
  rcases reads.keeps isOpen with ⟨start, keeps⟩
  rcases reads.net with ⟨socket, websocket_key, positive, net⟩
  have going : reader.stopped = false := reads.stopped.trans isOpen
  rcases exists_fetches HasPacket (fun frame mem => reads.isData frame (List.mem_append_left _ mem))
    (!reader.unread.isEmpty) reader.unread with ⟨whole, behind, fetches, isSuffix, done⟩
  rcases fetches.isPrefix with ⟨more, isWhole⟩
  have payloads : payloads (ready ++ later) = more ++ WireFrame.payloads (behind ++ later) := by
    have same := fetches.payloads
    rw [List.append_nil, ← isWhole, List.append_assoc] at same
    rw [payloads_append, List.append_cancel_left same, payloads_append, List.append_assoc]
  have isData : ∀ frame ∈ behind ++ later, frame.IsData := by
    intro frame mem
    apply reads.isData
    exact (List.mem_append.mp mem).elim (fun mem => List.mem_append_left _ (isSuffix.subset mem))
      (List.mem_append_right _)
  have follows : (reader.extend more).Follows (PacketStream.packets newPackets)
      (WirePacket.stream packets) (WireFrame.payloads (behind ++ later)) := by
    apply Reader.Follows.extend
    rw [← payloads]
    exact reads.follows
  have isStream : ∃ rest, whole ++ WireFrame.payloads (behind ++ later) =
    WirePacket.stream rest := by
    rcases reads.whole with ⟨rest, isRest⟩
    refine ⟨rest, ?_⟩
    rw [← isWhole, List.append_assoc, ← payloads]
    exact isRest
  rcases isStream with ⟨rest, isStream⟩
  have isSocket : s.net.socket = socket := by rw [net]; rfl
  rw [isSocket] at keeps
  rcases factory_webSocket newPackets positive websocket_key
    (WirePacket.not_malformed isStream) keeps
    fetches with ⟨r, t, read, -, spec⟩
  have stepped : step newPackets s .factory =
    some (s.handle (webSocket socket websocket_key) t r) := by
    simp only [step]
    rw [if_neg (by simp [isOpen]), net, read]
    rfl
  refine ⟨_, behind, (reader.extend more).next (PacketStream.packets newPackets), stepped, ?_⟩
  cases taken : takePacket whole with
  | none =>
      rw [taken] at spec
      rcases spec with ⟨rfl, keeps'⟩
      have unread : (reader.extend more).unread = whole := isWhole
      rw [Readers.next_of_none (unread.symm ▸ taken)]
      refine ⟨⟨follows, ⟨rest, unread ▸ isStream⟩, isData, reads.returned, reads.stopped,
        ⟨socket, websocket_key, positive, rfl⟩, fun _ => ⟨start, ?_⟩⟩, List.prefix_rfl, rfl, ?_⟩
      · rw [unread]
        rw [List.append_nil] at keeps'
        exact keeps'
      · right
        refine ⟨unread.symm ▸ taken, done ?_⟩
        exact fun isPacket => isPacket taken
  | some packet =>
      rcases packet with ⟨contents, left⟩
      rw [taken] at spec
      rcases spec with ⟨rfl, start', keeps'⟩
      have next : (reader.extend more).next (PacketStream.packets newPackets) =
          { unread := left
            read := reader.read ++ [contents]
            stopped := (PacketStream.packets newPackets).stops contents } := by
        have taken' : (PacketStream.packets newPackets).take (reader.unread ++ more) =
            some (contents, left) := isWhole ▸ taken
        simp [Reader.next, Reader.extend, going, taken']
      have follows' := follows.next
      rw [next] at follows' ⊢
      rw [handle_result _ _ _ isOpen]
      refine ⟨⟨follows', WirePacket.stream_of_take isStream taken, isData, ?_, rfl,
        ⟨socket, websocket_key, positive, rfl⟩, fun _ => ⟨start', keeps'⟩⟩,
        List.prefix_append _ _, rfl, .inl (by simp)⟩
      rw [reads.returned]
      simp [Readers.results]

/-- What has been returned begins what the stream is parsed as. -/
theorem Reads.isPrefix (reads : Reads newPackets packets s ready later reader) :
    s.returned <+: WirePacket.parsed newPackets packets := by
  rw [reads.returned, ← WirePacket.items_stream]
  exact reads.follows.isPrefix.map _

/-- When all frames have arrived, none is still to come. -/
theorem later_of_arrived {t : Transport} {socket : SOCKET} {linked : Bool} {start pos : Nat}
    {held : Bytes} (keeps : Keeps t socket linked start pos held ready later []) : later = [] := by
  rcases keeps.carries.raw with ⟨bytes, -, isBytes, -, next⟩
  cases later with
  | nil => rfl
  | cons frame later =>
      have short := next frame rfl
      have length := congrArg List.length isBytes
      simp only [List.append_nil, wire_append, wire_cons, List.length_append] at length
      omega

/-- When nothing is to come, a call of `MQTTPacket_Factory` returns another packet, if not all have
been returned. -/
theorem Reads.progress (reads : Reads newPackets packets s ready later reader)
    (arrived : s.coming = []) (stepped : step newPackets s .factory = some s') :
    s'.returned = WirePacket.parsed newPackets packets ∨
      s.returned.length < s'.returned.length := by
  have complete {reader : Reader UInt8 Contents}
      (follows : reader.Follows (PacketStream.packets newPackets) (WirePacket.stream packets) [])
      (done : reader.stopped = true ∨ takePacket reader.unread = none) :
      Readers.results newPackets reader = WirePacket.parsed newPackets packets := by
    rw [← WirePacket.items_stream, ← follows.complete done]
    rfl
  cases isClosed : s.closed with
  | true =>
      have stopped := reads.stopped.trans isClosed
      have same : s' = s := by
        simp only [step, isClosed, if_true] at stepped
        exact (Option.some.inj stepped).symm
      have follows : reader.Follows (PacketStream.packets newPackets) (WirePacket.stream packets)
          [] := by
        have follows := reads.follows
        unfold Reader.Follows at follows ⊢
        rw [if_pos stopped] at follows ⊢
        exact follows
      left
      rw [same, reads.returned]
      exact complete follows (.inl stopped)
  | false =>
      rcases reads.keeps isClosed with ⟨start, keeps⟩
      rw [arrived] at keeps
      have noneLater := later_of_arrived keeps
      subst noneLater
      rcases reads.factory isClosed with ⟨_, ready', reader', stepped', reads', -, -,
        more | ⟨none, rfl⟩⟩
      · cases stepped.symm.trans stepped'
        exact .inr more
      · cases stepped.symm.trans stepped'
        left
        rw [reads'.returned]
        exact complete reads'.follows (.inr none)

theorem Reads.step (reads : Reads newPackets packets s ready later reader) (input : Input) :
    ∃ s' ready' later' reader', step newPackets s input = some s' ∧
      Reads newPackets packets s' ready' later' reader' ∧ s.returned <+: s'.returned ∧
      (s.coming = [] → s'.coming = []) := by
  cases input with
  | arrive n =>
      rcases reads.arrive n with ⟨s', ready', later', stepped, reads', returned, coming⟩
      refine ⟨s', ready', later', reader, stepped, reads', returned ▸ List.prefix_rfl, ?_⟩
      intro arrived
      rw [coming, arrived, List.drop_nil]
  | factory =>
      cases isClosed : s.closed with
      | true =>
          refine ⟨s, ready, later, reader, ?_, reads, List.prefix_rfl, id⟩
          simp [FramedReader.step, isClosed]
      | false =>
          rcases reads.factory isClosed with ⟨s', ready', reader', stepped, reads', more, coming, -⟩
          exact ⟨s', ready', later, reader', stepped, reads', more,
            fun arrived => coming.trans arrived⟩

/-- All of the stream has arrived, and all packets, or at least `n` of them, have been returned. -/
def Drained (newPackets : NewPackets Pack) (packets : List WirePacket) (s : FramedReader Pack)
    (n : Nat) : Prop :=
  s.coming = [] ∧ (s.returned = WirePacket.parsed newPackets packets ∨ n ≤ s.returned.length)

theorem Drained.step {n : Nat} (drained : Drained newPackets packets s n)
    (reads : Reads newPackets packets s ready later reader) {input : Input}
    (stepped : FramedReader.step newPackets s input = some s') :
    Drained newPackets packets s' (n + [input].count .factory) := by
  rcases drained with ⟨arrived, done⟩
  rcases reads.step input with ⟨_, _, _, _, stepped', reads', more, arrives⟩
  cases stepped.symm.trans stepped'
  refine ⟨arrives arrived, ?_⟩
  rcases done with all | enough
  · left
    rw [all] at more
    exact (more.eq_of_length_le reads'.isPrefix.length_le).symm
  · cases input with
    | arrive n =>
        right
        exact Nat.le_trans enough more.length_le
    | factory =>
        refine (reads.progress arrived stepped).imp_right fun longer => ?_
        rw [List.count_singleton_self]
        omega

theorem run_cons {input : Input} {inputs : List Input}
    (stepped : FramedReader.step newPackets s input = some s') :
    run newPackets s (input :: inputs) = run newPackets s' inputs := by
  simp [run, stepped]

theorem Reads.run (reads : Reads newPackets packets s ready later reader) (inputs : List Input) :
    ∃ s' ready' later' reader', run newPackets s inputs = some s' ∧
      Reads newPackets packets s' ready' later' reader' := by
  induction inputs generalizing s ready later reader with
  | nil => exact ⟨s, ready, later, reader, rfl, reads⟩
  | cons input inputs ih =>
      rcases reads.step input with ⟨s', ready', later', reader', stepped, reads', -⟩
      rw [run_cons stepped]
      exact ih reads'

theorem Drained.run {n : Nat} (drained : Drained newPackets packets s n)
    (reads : Reads newPackets packets s ready later reader) {inputs : List Input}
    (ran : FramedReader.run newPackets s inputs = some s') :
    Drained newPackets packets s' (n + inputs.count .factory) := by
  induction inputs generalizing s ready later reader n with
  | nil =>
      cases ran
      exact drained
  | cons input inputs ih =>
      rcases reads.step input with ⟨next, ready', later', reader', stepped, reads', -⟩
      rw [run_cons stepped] at ran
      have after := ih (drained.step reads stepped) reads' ran
      have count : (input :: inputs).count .factory =
          [input].count .factory + inputs.count .factory := @List.count_append _ _ _ [input] inputs
      rw [count, ← Nat.add_assoc]
      exact after

/-- Frames that carry the packets of a stream, wherever they end. -/
structure Carriage where
  packets : List WirePacket
  frames : List WireFrame
  isData : ∀ frame ∈ frames, frame.IsData
  carries : payloads frames = WirePacket.stream packets

theorem reads_start (newPackets : NewPackets Pack) {socket : SOCKET} (positive : 0 < socket)
    (websocket_key : Option Bytes) (carriage : Carriage) :
    Reads newPackets carriage.packets (start socket websocket_key carriage.frames)
      [] carriage.frames
      ⟨[], [], false⟩ := by
  refine ⟨?_, ⟨carriage.packets, carriage.carries⟩, carriage.isData, rfl, rfl,
    ⟨socket, websocket_key, positive, rfl⟩, fun _ => ⟨0, ⟨none, ⟨rfl, rfl⟩, rfl, rfl⟩, ?_⟩⟩
  · rw [List.nil_append, carriage.carries]
    exact Reader.Follows.start _ _
  · let sockets : Sockets := ⟨fun _ => ⟨[], .connected⟩, .empty, []⟩
    have idle : sockets.Idle := ⟨List.nodup_nil, rfl⟩
    have noData : (sockets.queue socket).buf = [] := by
      rw [Sockets.queue_of_empty (by simp [sockets, SocketBuffer.find]) rfl positive]
      rfl
    refine ⟨[], ⟨idle, noData, rfl, Nat.zero_le _, Nat.zero_le _, rfl, rfl⟩, rfl, Nat.le_refl _, ?_⟩
    intro frame isNext
    have := frame.two_le_length
    simp only [wire, List.flatMap_nil, List.length_nil]
    omega

/-- Data frames are reassembled. In every run, what `MQTTPacket_Factory` returned begins what the
stream of packets in the frames is parsed as; when all frames have arrived, as many further calls as
there are packets return all of them. -/
theorem frames_reassembled (newPackets : NewPackets Pack) {socket : SOCKET} (positive : 0 < socket)
    (websocket_key : Option Bytes) (carriage : Carriage) (inputs more : List Input) :
    ∃ s s', run newPackets (start socket websocket_key carriage.frames) inputs = some s ∧
      run newPackets s more = some s' ∧
      s'.returned <+: WirePacket.parsed newPackets carriage.packets ∧
      (s.coming = [] →
        (WirePacket.parsed newPackets carriage.packets).length ≤ more.count .factory →
          s'.returned = WirePacket.parsed newPackets carriage.packets) := by
  have reads := reads_start newPackets positive websocket_key carriage
  rcases reads.run inputs with ⟨s, ready, later, reader, ran, reads⟩
  rcases reads.run more with ⟨s', ready', later', reader', ran', reads'⟩
  refine ⟨s, s', ran, ran', reads'.isPrefix, ?_⟩
  intro arrived enough
  have drained : Drained newPackets carriage.packets s 0 := ⟨arrived, .inr (Nat.zero_le _)⟩
  rcases (drained.run reads ran').2 with all | count
  · exact all
  · apply reads'.isPrefix.eq_of_length_le
    rw [Nat.zero_add] at count
    exact Nat.le_trans enough count

/-- Two packets of two bytes in frames of one and of three bytes. -/
def twoPings : Carriage where
  packets := [⟨208, [0], [], rfl⟩, ⟨208, [0], [], rfl⟩]
  frames :=
    [⟨130, 1, [], [], [208], rfl, rfl, rfl, rfl⟩, ⟨130, 3, [], [], [0, 208, 0], rfl, rfl, rfl, rfl⟩]
  isData := by
    intro frame mem
    simp only [List.mem_cons, List.not_mem_nil, or_false] at mem
    rcases mem with rfl | rfl <;> exact ⟨rfl, .inr rfl, by simp, by simp⟩
  carries := rfl

theorem frames_reassembled_twoPings :
    ∃ s s' : FramedReader UInt8,
      run (fun header _ => .pack header) (start 5 none twoPings.frames)
          [.arrive 1, .factory, .arrive 3, .factory, .arrive 4] = some s ∧
        run (fun header _ => .pack header) s [.factory, .factory] = some s' ∧
        s'.returned = [.pack 208, .pack 208] := by
  rcases frames_reassembled (fun header _ => .pack header) (show 0 < 5 by decide) none twoPings
    [.arrive 1, .factory, .arrive 3, .factory, .arrive 4] [.factory, .factory] with
    ⟨s, s', ran, ran', -, complete⟩
  refine ⟨s, s', ran, ran', complete ?_ (Nat.le_refl 2)⟩
  cases ran
  rfl

end FramedReader

end Paho
