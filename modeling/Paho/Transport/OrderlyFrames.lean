import Paho.Transport.FramedPackets

/-!
# Control frames and fragments

A WebSocket connection whose frames are not only whole messages. PING and PONG do no harm where all
data before them has been used up, that is between packets; a message may be cut where data before
the cut waits for more, that is within a packet. Such frames give the packets of their stream
however their bytes arrive, and every PING that is received is answered.
-/

namespace Paho

open PacketStream Splitter WebSocket WireFrame

namespace PacketStream

/-- The packets of a stream, whatever they are. -/
def anyPackets : Splitter UInt8 Contents :=
  packets fun _ _ => (Parsed.unknown : Parsed Unit)

/-- What there is of a packet at the end of a stream. -/
def unfinished (stream : Bytes) : Bytes :=
  anyPackets.remainder stream

theorem unfinished_of_none {stream : Bytes} (incomplete : takePacket stream = none) :
    unfinished stream = stream :=
  @Splitter.remainder_of_none _ _ anyPackets _ incomplete

theorem unfinished_of_take {stream rest : Bytes} {contents : Contents}
    (taken : takePacket stream = some (contents, rest)) : unfinished stream = unfinished rest :=
  @Splitter.remainder_of_take _ _ anyPackets _ _ _ taken

theorem unfinished_append (stream more : Bytes) :
    unfinished (unfinished stream ++ more) = unfinished (stream ++ more) :=
  Splitter.remainder_append anyPackets stream more

@[simp]
theorem unfinished_unfinished (stream : Bytes) :
    unfinished (unfinished stream) = unfinished stream :=
  unfinished_of_none (Splitter.take_remainder anyPackets stream)

end PacketStream

namespace WireFrame

/-- Frames that come when `held` is left of the data before them. -/
inductive Orderly : Bytes → List WireFrame → Prop
  | nil (held : Bytes) : Orderly held []
  /-- A message, or the end of one. -/
  | whole {held : Bytes} {frame : WireFrame} {frames : List WireFrame}
      (data : ¬frame.isControl = true) (final : frame.is_final = true)
      (unmasked : frame.second.toNat < 128) (nonempty : frame.payload ≠ [])
      (orderly : Orderly (unfinished (held ++ frame.payload)) frames) :
      Orderly held (frame :: frames)
  /-- A part of a message, of which more comes. -/
  | fragment {held : Bytes} {frame : WireFrame} {frames : List WireFrame}
      (data : ¬frame.isControl = true) (more : ¬frame.is_final = true)
      (unmasked : frame.second.toNat < 128) (inside : held ≠ [])
      (next : ∃ next ∈ frames.head?, ¬next.isControl = true)
      (orderly : Orderly (unfinished (held ++ frame.payload)) frames) :
      Orderly held (frame :: frames)
  | control {frame : WireFrame} {frames : List WireFrame} (final : frame.is_final = true)
      (isControl : frame.opcode = opPing ∨ frame.opcode = opPong)
      (unmasked : frame.second.toNat < 128)
      (begins : ∀ next ∈ frames.head?, next.opcode ≠ opContinue) (orderly : Orderly [] frames) :
      Orderly [] (frame :: frames)

/-- The payloads of PING frames. -/
def pings (frames : List WireFrame) : List Bytes :=
  frames.flatMap fun frame => if frame.opcode = opPing then [frame.payload] else []

variable {held : Bytes} {frame : WireFrame} {frames later : List WireFrame}

theorem pings_append (left right : List WireFrame) :
    pings (left ++ right) = pings left ++ pings right :=
  List.flatMap_append

theorem opcode_ne_ping (data : ¬frame.isControl = true) : frame.opcode ≠ opPing := by
  have bound := opcode_le_two data
  rw [opPing]
  omega

theorem pings_of_data (data : ∀ frame ∈ frames, ¬frame.isControl = true) : pings frames = [] := by
  rw [pings, List.flatMap_eq_nil_iff]
  intro frame mem
  rw [if_neg (opcode_ne_ping (data frame mem))]

theorem isControl_of_opcode (isControl : frame.opcode = opPing ∨ frame.opcode = opPong) :
    frame.isControl = true := by
  rcases isControl with ping | pong
  · simp [WireFrame.isControl, ping, opClose, opPing]
  · simp [WireFrame.isControl, pong, opClose, opPong]

/-- A message that begins is there as a whole, or the frames that are there are parts of it and more
comes. -/
theorem Orderly.message (orderly : Orderly held (frames ++ later)) (isRest : unfinished held = held)
    (data : ∀ first ∈ frames.head?, ¬first.isControl = true) :
    (∃ payload front rest, message frames = some (payload, rest) ∧ frames = front ++ rest ∧
      payload ≠ [] ∧ pings front = [] ∧
      Orderly (unfinished (held ++ payload)) (rest ++ later)) ∨
    ((∀ frame ∈ frames, ¬frame.isControl = true) ∧ (∀ frame ∈ frames, ¬frame.is_final = true) ∧
      (frames = [] ∨ later ≠ []) ∧ Orderly (unfinished (held ++ payloads frames)) later) := by
  induction frames generalizing held with
  | nil =>
      refine .inr ⟨by simp, by simp, .inl rfl, ?_⟩
      rw [payloads_nil, List.append_nil, isRest]
      exact orderly
  | cons frame frames ih =>
      have isData : ¬frame.isControl = true := data frame rfl
      cases orderly with
      | whole _ final _ nonempty orderly =>
          left
          refine ⟨frame.payload, [frame], frames, ?_, rfl, nonempty, ?_, orderly⟩
          · rw [WireFrame.message, if_neg isData, if_pos final]
          · exact pings_of_data (by simpa using isData)
      | control _ isControl => exact absurd (isControl_of_opcode isControl) isData
      | fragment _ more _ _ next orderly =>
          have head : ∀ first ∈ frames.head?, ¬first.isControl = true := by
            intro first isFirst
            rcases next with ⟨next, isNext, nextData⟩
            cases frames with
            | nil => cases isFirst
            | cons _ _ =>
                cases isFirst
                cases isNext
                exact nextData
          rcases ih orderly (unfinished_unfinished _) head with
            ⟨payload, front, rest, isMessage, rfl, nonempty, noPings, after⟩ |
              ⟨allData, allMore, open_, after⟩
          · left
            refine ⟨frame.payload ++ payload, frame :: front, rest, ?_, rfl, ?_, ?_, ?_⟩
            · rw [WireFrame.message, if_neg isData, if_neg more, isMessage]
              rfl
            · exact fun empty => nonempty (List.append_eq_nil_iff.mp empty).2
            · rw [pings, List.flatMap_cons, if_neg (opcode_ne_ping isData)]
              exact noPings
            · rwa [unfinished_append, List.append_assoc] at after
          · right
            refine ⟨List.forall_mem_cons.mpr ⟨isData, allData⟩,
              List.forall_mem_cons.mpr ⟨more, allMore⟩, .inr ?_, ?_⟩
            · rcases open_ with rfl | isMore
              · rcases next with ⟨next, isNext, -⟩
                rintro rfl
                cases isNext
              · exact isMore
            · rw [payloads_cons, if_neg isData]
              rwa [unfinished_append, List.append_assoc] at after

/-- A control frame is received with what is behind it. -/
theorem fetches_control {whole kept : Bytes} {behind : List WireFrame} {pongs : List Bytes}
    (final : frame.is_final = true) (isControl : frame.opcode = opPing ∨ frame.opcode = opPong)
    (begins : ∀ next ∈ frames.head?, next.opcode ≠ opContinue)
    (fetches : Fetches HasPacket false [] frames whole behind kept pongs) :
    Fetches HasPacket false [] (frame :: frames) whole behind kept
      ((if frame.opcode = opPing then [frame.payload] else []) ++ pongs) := by
  cases fetches with
  | enough isEnough => exact absurd rfl isEnough
  | cut few receives => exact .cut few (.control final isControl begins receives)
  | received few receives fetches =>
      rw [← List.append_assoc]
      exact .received few (.control final isControl begins receives) fetches

/-- Orderly frames are received until there is a packet, or none is left. -/
theorem orderly_fetches {held : Bytes} {frames later : List WireFrame}
    (orderly : Orderly (unfinished held) (frames ++ later)) :
    ∃ whole kept front behind,
      Fetches HasPacket (!held.isEmpty) held frames whole behind kept (pings front) ∧
        frames = front ++ behind ∧ Orderly (unfinished (whole ++ kept)) (behind ++ later) ∧
        (¬HasPacket whole → behind = []) ∧ (later = [] → kept = []) := by
  by_cases isEnough : HasPacket held
  · refine ⟨held, [], [], frames, .enough isEnough, rfl, ?_, fun few => absurd isEnough few,
      fun _ => rfl⟩
    rwa [List.append_nil]
  · have isRest : unfinished held = held := unfinished_of_none (not_not.mp isEnough)
    cases frames with
    | nil =>
        refine ⟨held, [], [], [], .cut isEnough (.interrupted _), rfl, ?_, fun _ => rfl,
          fun _ => rfl⟩
        rwa [List.append_nil]
    | cons frame frames =>
        by_cases isControl : frame.isControl = true
        · have isOrderly := orderly
          rw [isRest] at isOrderly
          cases isOrderly with
          | whole data => exact absurd isControl data
          | fragment data => exact absurd isControl data
          | control final isControl' _ begins orderly' =>
              have begins' : ∀ next ∈ frames.head?, next.opcode ≠ opContinue := by
                cases frames with
                | nil => simp
                | cons _ _ => exact begins
              rw [← isRest] at orderly'
              rcases orderly_fetches orderly' with
                ⟨whole, kept, front, behind, fetches, rfl, orderly'', done, complete⟩
              exact ⟨whole, kept, frame :: front, behind,
                fetches_control final isControl' begins' fetches, rfl, orderly'', done, complete⟩
        · have head : ∀ first ∈ (frame :: frames).head?, ¬first.isControl = true := by
            rintro _ ⟨⟩
            exact isControl
          have isOrderly := orderly
          rw [isRest] at isOrderly
          rcases isOrderly.message isRest head with
            ⟨payload, front, rest, isMessage, isFront, nonempty, noPings, after⟩ |
              ⟨allData, allMore, isOpen, after⟩
          · have shorter : rest.length < (frame :: frames).length := length_message isMessage
            rcases orderly_fetches after with
              ⟨whole, kept, front', behind, fetches, rfl, orderly', done, complete⟩
            have linked : (!(held ++ payload).isEmpty) = true := by
              simp [nonempty]
            rw [linked] at fetches
            refine ⟨whole, kept, front ++ front', behind, ?_, ?_, orderly', done, complete⟩
            · rw [pings_append, noPings]
              exact .received isEnough (.complete isMessage nonempty) fetches
            · rw [isFront, List.append_assoc]
          · have inside : held ≠ [] := by
              cases isOrderly with
              | whole _ final => exact absurd final (allMore frame List.mem_cons_self)
              | fragment _ _ _ inside => exact inside
              | control _ isControl' => exact absurd (isControl_of_opcode isControl') isControl
            have linked : (!held.isEmpty) = true := by
              simp [inside]
            refine ⟨held, payloads (frame :: frames), frame :: frames, [], ?_, ?_, after,
              fun _ => rfl, fun none => ?_⟩
            · rw [pings_of_data allData, linked]
              exact .cut isEnough (.started allData allMore)
            · rw [List.append_nil]
            · exact absurd none (isOpen.resolve_left (List.cons_ne_nil _ _))
termination_by frames.length

/-- When there is a packet, nothing is kept that is not seen. -/
theorem kept_of_enough {enough : Bytes → Prop} {linked : Bool} {held whole kept : Bytes}
    {frames behind : List WireFrame} {pongs : List Bytes}
    (fetches : Fetches enough linked held frames whole behind kept pongs)
    (isEnough : enough whole) : kept = [] := by
  induction fetches with
  | enough => rfl
  | cut few => exact absurd isEnough few
  | received _ _ _ ih => exact ih isEnough

/-- Without frames nothing more is seen. -/
theorem whole_of_nil {enough : Bytes → Prop} {linked : Bool} {held whole kept : Bytes}
    {behind : List WireFrame} {pongs : List Bytes}
    (fetches : Fetches enough linked held [] whole behind kept pongs) : whole = held := by
  have same := congrArg List.length fetches.payloads
  have longer := fetches.isPrefix.length_le
  simp only [payloads_nil, List.append_nil, List.length_append] at same
  exact (fetches.isPrefix.eq_of_length (by omega)).symm

end WireFrame

namespace FramedReader

open MQTTPacket

variable {Pack : Type}

/-- A reader has read what the calls returned, of orderly frames. `ready` are the frames that have
arrived and are not received yet, and `later` those that have not arrived; the PING frames before
them are answered. -/
structure Serves (newPackets : NewPackets Pack) (packets : List WirePacket)
    (frames : List WireFrame) (socket : SOCKET) (s : FramedReader Pack)
    (ready later : List WireFrame) (reader : Reader UInt8 Contents) : Prop where
  follows : reader.Follows (PacketStream.packets newPackets) (WirePacket.stream packets)
    (payloads (ready ++ later))
  whole : ∃ rest, reader.unread ++ payloads (ready ++ later) = WirePacket.stream rest
  orderly : Orderly (unfinished reader.unread) (ready ++ later)
  returned : s.returned = Readers.results newPackets reader
  stopped : reader.stopped = s.closed
  net : ∃ websocket_key, s.net = webSocket socket websocket_key
  keeps : s.closed = false → ∃ start,
    Keeps s.t socket (!reader.unread.isEmpty) start 0 reader.unread ready later s.coming
  answered : ∃ front, frames = front ++ (ready ++ later) ∧
    s.t.pongs = ponged socket (pings front) []

variable {newPackets : NewPackets Pack} {packets : List WirePacket} {frames : List WireFrame}
  {socket : SOCKET} {s s' : FramedReader Pack} {ready later : List WireFrame}
  {reader : Reader UInt8 Contents}

theorem Serves.arrive (serves : Serves newPackets packets frames socket s ready later reader)
    (n : Nat) :
    ∃ s' more later', step newPackets s (.arrive n) = some s' ∧ later = more ++ later' ∧
      Serves newPackets packets frames socket s' (ready ++ more) later' reader ∧
      s'.returned = s.returned ∧ s'.coming = s.coming.drop n ∧ s'.closed = s.closed := by
  cases isClosed : s.closed with
  | true =>
      refine ⟨_, [], later, rfl, rfl, ?_, rfl, rfl, isClosed⟩
      rw [List.append_nil]
      refine ⟨serves.follows, serves.whole, serves.orderly, serves.returned, serves.stopped,
        serves.net, ?_, serves.answered⟩
      intro isOpen
      exact absurd (isClosed.symm.trans isOpen) (by simp)
  | false =>
      rcases serves.keeps isClosed with ⟨start, ⟨held, carries⟩⟩
      rcases carries.raw with ⟨bytes, raw, -⟩
      have isSocket : s.net.socket = socket := by
        rcases serves.net with ⟨websocket_key, net⟩
        rw [net]
        rfl
      let kernel := s.t.sockets.kernel s.net.socket
      let arrived := { kernel with arrived := kernel.arrived ++ s.coming.take n }
      let t : Transport :=
        { s.t with
          sockets := { s.t.sockets with
            kernel := Function.update s.t.sockets.kernel s.net.socket arrived } }
      have idle : t.sockets.Idle := ⟨raw.idle.distinct, raw.idle.default⟩
      rcases @Carries.arrive _ t _ _ _ _ carries n idle rfl
        (by simp [t, arrived, kernel, isSocket]) rfl rfl with ⟨more, later', rfl, carries'⟩
      have same : ready ++ more ++ later' = ready ++ (more ++ later') := List.append_assoc _ _ _
      refine ⟨_, more, later', rfl, rfl, ⟨?_, ?_, ?_, serves.returned, serves.stopped, serves.net,
        fun _ => ⟨start, held, carries'⟩, ?_⟩, rfl, rfl, isClosed⟩
      · rw [same]
        exact serves.follows
      · rw [same]
        exact serves.whole
      · rw [same]
        exact serves.orderly
      · rw [same]
        exact serves.answered

/-- What a call of `MQTTPacket_Factory` on an open connection comes to: a packet is returned, or all
frames that have arrived are received and no packet is there. -/
inductive Called (later : List WireFrame) (s s' : FramedReader Pack) (ready ready' : List WireFrame)
    (reader reader' : Reader UInt8 Contents) : Prop
  | returned (one : s'.returned.length = s.returned.length + 1)
      (there : takePacket reader.unread ≠ none ∨ ready ≠ [])
  | interrupted (same : s'.returned = s.returned) (isOpen : s'.closed = false) (all : ready' = [])
      (none : later = [] → takePacket reader'.unread = none)

theorem Serves.factory (serves : Serves newPackets packets frames socket s ready later reader)
    (positive : 0 < socket) (isOpen : s.closed = false) :
    ∃ s' ready' reader', step newPackets s .factory = some s' ∧
      Serves newPackets packets frames socket s' ready' later reader' ∧ s.returned <+: s'.returned ∧
      s'.coming = s.coming ∧ Called later s s' ready ready' reader reader' := by
  rcases serves.keeps isOpen with ⟨start, keeps⟩
  rcases serves.net with ⟨websocket_key, net⟩
  rcases serves.answered with ⟨before, isFrames, pongs⟩
  have going : reader.stopped = false := serves.stopped.trans isOpen
  rcases orderly_fetches serves.orderly with
    ⟨whole, kept, front, behind, fetches, rfl, orderly, done, complete⟩
  rcases fetches.isPrefix with ⟨more, isWhole⟩
  have payloads : payloads (front ++ behind ++ later) =
      more ++ kept ++ WireFrame.payloads (behind ++ later) := by
    have same := fetches.payloads
    rw [← isWhole, List.append_assoc, List.append_assoc] at same
    rw [payloads_append, List.append_cancel_left same, payloads_append]
    simp only [List.append_assoc]
  have follows : (reader.extend (more ++ kept)).Follows (PacketStream.packets newPackets)
      (WirePacket.stream packets) (WireFrame.payloads (behind ++ later)) := by
    apply Reader.Follows.extend
    rw [← payloads]
    exact serves.follows
  have isStream : ∃ rest, whole ++ (kept ++ WireFrame.payloads (behind ++ later)) =
      WirePacket.stream rest := by
    rcases serves.whole with ⟨rest, isRest⟩
    refine ⟨rest, ?_⟩
    rw [← isRest, payloads, ← isWhole]
    simp only [List.append_assoc]
  rcases isStream with ⟨rest, isStream⟩
  rcases factory_webSocket newPackets positive websocket_key
    (WirePacket.not_malformed isStream) keeps fetches with ⟨r, t, read, answered, spec⟩
  have stepped : step newPackets s .factory =
      some (s.handle (webSocket socket websocket_key) t r) := by
    simp only [step]
    rw [if_neg (by simp [isOpen]), net, read]
    rfl
  have isAnswered : ∃ front', frames = front' ++ (behind ++ later) ∧
      t.pongs = ponged socket (pings front') [] := by
    refine ⟨before ++ front, ?_, ?_⟩
    · rw [isFrames, List.append_assoc, List.append_assoc]
    · rw [answered, pongs, pings_append, ponged_append]
  have unread : (reader.extend (more ++ kept)).unread = whole ++ kept := by
    rw [← isWhole, List.append_assoc]
    rfl
  rw [stepped]
  cases taken : takePacket whole with
  | none =>
      rw [taken] at spec
      rcases spec with ⟨rfl, keeps'⟩
      refine ⟨_, behind, reader.extend (more ++ kept), rfl, ⟨follows, ⟨rest, ?_⟩, ?_,
        serves.returned, serves.stopped, ⟨websocket_key, rfl⟩,
        fun _ => ⟨start, ?_⟩, isAnswered⟩, List.prefix_rfl, rfl,
        .interrupted rfl isOpen (done fun isPacket => isPacket taken) fun none => ?_⟩
      · rw [unread, List.append_assoc]
        exact isStream
      · rw [unread]
        exact orderly
      · rw [unread]
        exact keeps'
      · rw [unread, complete none, List.append_nil]
        exact taken
  | some packet =>
      rcases packet with ⟨contents, left⟩
      have isPacket : HasPacket whole := by
        rw [HasPacket, taken]
        exact Option.some_ne_none _
      have noneKept := kept_of_enough fetches isPacket
      subst noneKept
      rw [List.append_nil] at follows orderly unread
      rw [taken] at spec
      rcases spec with ⟨rfl, start', keeps'⟩
      have next : (reader.extend more).next (PacketStream.packets newPackets) =
          { unread := left
            read := reader.read ++ [contents]
            stopped := (PacketStream.packets newPackets).stops contents } := by
        have taken' : (PacketStream.packets newPackets).take (reader.unread ++ more) =
            some (contents, left) := isWhole ▸ taken
        simp [Reader.next, Reader.extend, going, taken']
      have follows' := follows.next
      rw [next] at follows'
      rw [unfinished_of_take taken] at orderly
      rw [handle_result _ _ _ isOpen]
      refine ⟨_, behind, _, rfl, ⟨follows', WirePacket.stream_of_take isStream taken, orderly, ?_,
        rfl, ⟨websocket_key, rfl⟩, fun _ => ⟨start', keeps'⟩, isAnswered⟩,
        List.prefix_append _ _, rfl, .returned (by simp) ?_⟩
      · rw [serves.returned]
        simp [Readers.results]
      · by_cases noFrames : front ++ behind = []
        · left
          rw [noFrames] at fetches
          rw [← whole_of_nil fetches, taken]
          exact Option.some_ne_none _
        · exact .inr noFrames

/-- What has been returned begins what the stream is parsed as. -/
theorem Serves.isPrefix
    (serves : Serves newPackets packets frames socket s ready later reader) :
    s.returned <+: WirePacket.parsed newPackets packets := by
  rw [serves.returned, ← WirePacket.items_stream]
  exact serves.follows.isPrefix.map _

theorem Serves.step (serves : Serves newPackets packets frames socket s ready later reader)
    (positive : 0 < socket) (input : Input) :
    ∃ s' ready' later' reader', step newPackets s input = some s' ∧
      Serves newPackets packets frames socket s' ready' later' reader' := by
  cases input with
  | arrive n =>
      rcases serves.arrive n with ⟨s', more, later', stepped, -, serves', -⟩
      exact ⟨s', ready ++ more, later', reader, stepped, serves'⟩
  | factory =>
      cases isClosed : s.closed with
      | true =>
          refine ⟨s, ready, later, reader, ?_, serves⟩
          simp [FramedReader.step, isClosed]
      | false =>
          rcases serves.factory positive isClosed with ⟨s', ready', reader', stepped, serves', -⟩
          exact ⟨s', ready', later, reader', stepped, serves'⟩

theorem Serves.run (serves : Serves newPackets packets frames socket s ready later reader)
    (positive : 0 < socket) (inputs : List Input) :
    ∃ s' ready' later' reader', run newPackets s inputs = some s' ∧
      Serves newPackets packets frames socket s' ready' later' reader' := by
  induction inputs generalizing s ready later reader with
  | nil => exact ⟨s, ready, later, reader, rfl, serves⟩
  | cons input inputs ih =>
      rcases serves.step positive input with ⟨s', ready', later', reader', stepped, serves'⟩
      rw [run_cons stepped]
      exact ih serves'

/-- All frames have arrived, and all of them are received, or at least `n` packets are returned. -/
structure Emptied (newPackets : NewPackets Pack) (packets : List WirePacket)
    (frames : List WireFrame) (socket : SOCKET) (s : FramedReader Pack) (n : Nat) : Prop where
  arrived : s.coming = []
  serves : ∃ ready reader, Serves newPackets packets frames socket s ready [] reader ∧
    (s.closed = true ∨ (ready = [] ∧ takePacket reader.unread = none) ∨ n ≤ s.returned.length)

theorem Serves.emptied (serves : Serves newPackets packets frames socket s ready later reader)
    (arrived : s.coming = []) : Emptied newPackets packets frames socket s 0 := by
  refine ⟨arrived, ready ++ later, reader, ?_, .inr (.inr (Nat.zero_le _))⟩
  have same : ready ++ later ++ [] = ready ++ later := List.append_nil _
  refine ⟨?_, ?_, ?_, serves.returned, serves.stopped, serves.net, ?_, ?_⟩
  · rw [same]
    exact serves.follows
  · rw [same]
    exact serves.whole
  · rw [same]
    exact serves.orderly
  · intro isOpen
    rcases serves.keeps isOpen with ⟨start, keeps⟩
    rw [arrived] at keeps ⊢
    have none := later_of_arrived keeps
    subst none
    rw [List.append_nil]
    exact ⟨start, keeps⟩
  · rw [same]
    exact serves.answered

theorem Emptied.step {n : Nat} (emptied : Emptied newPackets packets frames socket s n)
    (positive : 0 < socket) {input : Input}
    (stepped : FramedReader.step newPackets s input = some s') :
    Emptied newPackets packets frames socket s' (n + [input].count .factory) := by
  rcases emptied with ⟨arrived, ready, reader, serves, done⟩
  cases input with
  | arrive k =>
      rcases serves.arrive k with
        ⟨_, more, later', stepped', none, serves', returned, coming, closed⟩
      cases stepped.symm.trans stepped'
      rcases List.append_eq_nil_iff.mp none.symm with ⟨rfl, rfl⟩
      rw [List.append_nil] at serves'
      refine ⟨by rw [coming, arrived, List.drop_nil], ready, reader, serves', ?_⟩
      rw [closed, returned]
      exact done
  | factory =>
      rw [List.count_singleton_self]
      cases isClosed : s.closed with
      | true =>
          have same : s' = s := by
            simp only [FramedReader.step, isClosed, if_true] at stepped
            exact (Option.some.inj stepped).symm
          rw [same]
          exact ⟨arrived, ready, reader, serves, .inl isClosed⟩
      | false =>
          rcases serves.factory positive isClosed with
            ⟨_, ready', reader', stepped', serves', -, coming, called⟩
          cases stepped.symm.trans stepped'
          refine ⟨coming.trans arrived, ready', reader', serves', .inr ?_⟩
          cases called with
          | interrupted same isOpen all none => exact .inl ⟨all, none rfl⟩
          | returned one there =>
              right
              rcases done with closed | ⟨noFrames, none⟩ | enough
              · cases isClosed.symm.trans closed
              · exact absurd noFrames (there.resolve_left fun packet => packet none)
              · omega

theorem Emptied.run {n : Nat} (emptied : Emptied newPackets packets frames socket s n)
    (positive : 0 < socket) {inputs : List Input}
    (ran : FramedReader.run newPackets s inputs = some s') :
    Emptied newPackets packets frames socket s' (n + inputs.count .factory) := by
  induction inputs generalizing s n with
  | nil =>
      cases ran
      exact emptied
  | cons input inputs ih =>
      rcases emptied.serves with ⟨ready, reader, serves, -⟩
      rcases serves.step positive input with ⟨next, -, -, -, stepped, -⟩
      rw [run_cons stepped] at ran
      have after := ih (emptied.step positive stepped) ran
      have count : (input :: inputs).count .factory =
          [input].count .factory + inputs.count .factory := @List.count_append _ _ _ [input] inputs
      rw [count, ← Nat.add_assoc]
      exact after

/-- All packets are returned. -/
theorem Emptied.returned {n : Nat} (emptied : Emptied newPackets packets frames socket s n)
    (enough : (WirePacket.parsed newPackets packets).length ≤ n) :
    s.returned = WirePacket.parsed newPackets packets := by
  rcases emptied.serves with ⟨ready, reader, serves, done⟩
  have complete (finished : (PacketStream.packets newPackets).items (WirePacket.stream packets) =
      reader.read) : s.returned = WirePacket.parsed newPackets packets := by
    rw [serves.returned, ← WirePacket.items_stream, finished]
    rfl
  rcases done with isClosed | ⟨rfl, none⟩ | all
  · have follows := serves.follows
    unfold Reader.Follows at follows
    rw [if_pos (serves.stopped.trans isClosed)] at follows
    exact complete follows
  · exact complete (serves.follows.complete (.inr none)).symm
  · exact serves.isPrefix.eq_of_length_le (Nat.le_trans enough all)

/-- Every PING is answered. -/
theorem Emptied.answered {n : Nat} (emptied : Emptied newPackets packets frames socket s n)
    (more : (WirePacket.parsed newPackets packets).length < n) (isOpen : s.closed = false) :
    s.t.pongs = ponged socket (pings frames) [] := by
  rcases emptied.serves with ⟨ready, reader, serves, done⟩
  rcases done with isClosed | ⟨rfl, -⟩ | all
  · cases isOpen.symm.trans isClosed
  · rcases serves.answered with ⟨front, isFrames, pongs⟩
    rw [pongs, isFrames, List.append_nil, List.append_nil]
  · have bound := serves.isPrefix.length_le
    omega

/-- Orderly frames that carry the packets of a stream. -/
structure OrderlyCarriage where
  packets : List WirePacket
  frames : List WireFrame
  orderly : Orderly [] frames
  carries : payloads frames = WirePacket.stream packets

theorem carries_start {socket : SOCKET} (positive : 0 < socket) (websocket_key : Option Bytes)
    (frames : List WireFrame) :
    Carries (start socket websocket_key frames : FramedReader Pack).t socket [] frames
      (wire frames) := by
  have idle : (⟨fun _ => ⟨[], .connected⟩, .empty, []⟩ : Sockets).Idle := ⟨List.nodup_nil, rfl⟩
  have noData : ((⟨fun _ => ⟨[], .connected⟩, .empty, []⟩ : Sockets).queue socket).buf = [] := by
    rw [Sockets.queue_of_empty (by simp [SocketBuffer.find]) rfl positive]
    rfl
  refine ⟨[], ⟨idle, noData, rfl, Nat.zero_le _, Nat.zero_le _, rfl, rfl⟩, rfl, Nat.le_refl _, ?_⟩
  intro frame isNext
  have := frame.two_le_length
  simp only [wire, List.flatMap_nil, List.length_nil]
  omega

theorem serves_start (newPackets : NewPackets Pack) {socket : SOCKET} (positive : 0 < socket)
    (websocket_key : Option Bytes) (carriage : OrderlyCarriage) :
    Serves newPackets carriage.packets carriage.frames socket
      (start socket websocket_key carriage.frames) [] carriage.frames ⟨[], [], false⟩ := by
  refine ⟨?_, ⟨carriage.packets, carriage.carries⟩, ?_, rfl, rfl, ⟨websocket_key, rfl⟩,
    fun _ => ⟨0, ⟨none, ⟨rfl, rfl⟩, rfl, rfl⟩, carries_start positive websocket_key _⟩,
    ⟨[], rfl, rfl⟩⟩
  · rw [List.nil_append, carriage.carries]
    exact Reader.Follows.start _ _
  · rw [unfinished_of_none rfl]
    exact carriage.orderly

/-- Orderly frames are reassembled. In every run, what `MQTTPacket_Factory` returned begins what the
stream of packets in the frames is parsed as, and the PING frames up to some place are answered in
order. When all frames have arrived, as many further calls as there are packets return all of them,
and one more has answered every PING, unless a packet has closed the connection. -/
theorem orderly_reassembled (newPackets : NewPackets Pack) {socket : SOCKET}
    (positive : 0 < socket) (websocket_key : Option Bytes) (carriage : OrderlyCarriage)
    (inputs more : List Input) :
    ∃ s s', run newPackets (start socket websocket_key carriage.frames) inputs = some s ∧
      run newPackets s more = some s' ∧
      s'.returned <+: WirePacket.parsed newPackets carriage.packets ∧
      (∃ front behind, carriage.frames = front ++ behind ∧
        s'.t.pongs = ponged socket (pings front) []) ∧
      (s.coming = [] →
        (WirePacket.parsed newPackets carriage.packets).length ≤ more.count .factory →
          s'.returned = WirePacket.parsed newPackets carriage.packets) ∧
      (s.coming = [] →
        (WirePacket.parsed newPackets carriage.packets).length < more.count .factory →
          s'.closed = false → s'.t.pongs = ponged socket (pings carriage.frames) []) := by
  have serves := serves_start newPackets positive websocket_key carriage
  rcases serves.run positive inputs with ⟨s, ready, later, reader, ran, serves⟩
  rcases serves.run positive more with ⟨s', ready', later', reader', ran', serves'⟩
  have emptied (arrived : s.coming = []) : Emptied newPackets carriage.packets carriage.frames
      socket s' (more.count .factory) := by
    have after := (serves.emptied arrived).run positive ran'
    rwa [Nat.zero_add] at after
  rcases serves'.answered with ⟨front, isFrames, pongs⟩
  exact ⟨s, s', ran, ran', serves'.isPrefix, ⟨front, ready' ++ later', isFrames, pongs⟩,
    fun arrived enough => (emptied arrived).returned enough,
    fun arrived more isOpen => (emptied arrived).answered more isOpen⟩

section ShortFrames

variable {first : UInt8} {payload : Bytes}

theorem validOpcode_of_listed (opcode : first.toNat % 16 ≤ opPong ∧
    (first.toNat % 16 ≤ opBinary ∨ opClose ≤ first.toNat % 16)) :
    validOpcode (first.toNat % 16) = true := by
  rw [validOpcode, Bool.and_eq_true, decide_eq_true_iff, Bool.not_eq_true', Bool.and_eq_false_iff,
    decide_eq_false_iff_not, decide_eq_false_iff_not]
  omega

theorem toNat_lengthByte (short : payload.length < 126) :
    (UInt8.ofNat payload.length).toNat = payload.length := by
  rw [UInt8.toNat_ofNat']
  omega

theorem short_extended (short : payload.length < 126) :
    ([] : Bytes).length = if (UInt8.ofNat payload.length).toNat % 128 = 126 then 2
      else if (UInt8.ofNat payload.length).toNat % 128 = 127 then 8 else 0 := by
  rw [toNat_lengthByte short, if_neg (by omega), if_neg (by omega), List.length_nil]

theorem short_key (short : payload.length < 126) :
    ([] : Bytes).length = if 128 ≤ (UInt8.ofNat payload.length).toNat then 4 else 0 := by
  rw [toNat_lengthByte short, if_neg (by omega), List.length_nil]

theorem short_length (short : payload.length < 126) :
    payload.length = if ([] : Bytes) = [] then (UInt8.ofNat payload.length).toNat % 128
      else bigEndian [] := by
  rw [toNat_lengthByte short, if_pos rfl]
  omega

/-- A frame without a key whose length is in the second byte. -/
def shortFrame (first : UInt8) (payload : Bytes)
    (opcode : first.toNat % 16 ≤ opPong ∧
      (first.toNat % 16 ≤ opBinary ∨ opClose ≤ first.toNat % 16))
    (short : payload.length < 126) : WireFrame where
  first := first
  second := UInt8.ofNat payload.length
  extended := []
  key := []
  payload := payload
  isOpcode := validOpcode_of_listed opcode
  isExtended := short_extended short
  isKey := short_key short
  isLength := short_length short

end ShortFrames

/-- A PING, two packets of two bytes in a frame and a message of two fragments, and a PONG. -/
def pingedPackets : OrderlyCarriage where
  packets := twoPings.packets
  frames :=
    [shortFrame 137 [7] (by decide) (by decide), shortFrame 130 [208] (by decide) (by decide),
      shortFrame 2 [0] (by decide) (by decide), shortFrame 128 [208, 0] (by decide) (by decide),
      shortFrame 138 [] (by decide) (by decide)]
  orderly := by
    have one : unfinished [208] = [208] := unfinished_of_none rfl
    have none : unfinished [] = [] := unfinished_of_none rfl
    have two : unfinished [208, 0] = [] := by
      rw [@unfinished_of_take [208, 0] [] (208, []) rfl, none]
    refine .control rfl (.inl rfl) (by decide) (by decide) ?_
    refine .whole (by decide) rfl (by decide) (by decide) ?_
    refine .fragment (by decide) (by decide) (by decide) ?_ ⟨_, rfl, by decide⟩ ?_
    · change unfinished [208] ≠ []
      rw [one]
      decide
    · change Orderly (unfinished (unfinished [208] ++ [0])) _
      rw [one, List.singleton_append, two]
      refine .whole (by decide) rfl (by decide) (by decide) ?_
      change Orderly (unfinished [208, 0]) _
      rw [two]
      exact .control rfl (.inr rfl) (by decide) (by simp) (.nil _)
  carries := rfl

theorem orderly_reassembled_pinged :
    ∃ s s' : FramedReader UInt8,
      run (fun header _ => .pack header) (start 5 none pingedPackets.frames)
          [.arrive 2, .factory, .arrive 5, .factory, .arrive 3, .factory, .arrive 9] = some s ∧
        run (fun header _ => .pack header) s [.factory, .factory, .factory] = some s' ∧
        s'.returned = [.pack 208, .pack 208] ∧ (s'.closed = false → s'.t.pongs = [(5, [7])]) := by
  rcases orderly_reassembled (fun header _ => .pack header) (show 0 < 5 by decide) none
    pingedPackets [.arrive 2, .factory, .arrive 5, .factory, .arrive 3, .factory, .arrive 9]
    [.factory, .factory, .factory] with ⟨s, s', ran, ran', -, -, complete, answered⟩
  have arrived : s.coming = [] := by
    cases ran
    rfl
  exact ⟨s, s', ran, ran', complete arrived (by decide), answered arrived (by decide)⟩

end FramedReader

end Paho
