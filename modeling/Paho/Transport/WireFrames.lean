import Paho.Transport.PlainReading

/-!
# Reading a frame from its bytes

What `WebSocket_receiveFrame` reads of one frame, however its bytes arrive. The bytes of an
incomplete frame are kept in `frame_buffer` and read again from the first one.
-/

namespace Paho

open Sockets

/-- A frame as it is on the wire. -/
structure WireFrame where
  first : UInt8
  second : UInt8
  /-- The bytes of a length that the second byte has no room for. -/
  extended : Bytes
  key : Bytes
  payload : Bytes
  isOpcode : WebSocket.validOpcode (first.toNat % 16) = true
  isExtended : extended.length =
    if second.toNat % 128 = 126 then 2 else if second.toNat % 128 = 127 then 8 else 0
  isKey : key.length = if 128 ≤ second.toNat then 4 else 0
  isLength : payload.length =
    if extended = [] then second.toNat % 128 else WebSocket.bigEndian extended

namespace WireFrame

def bytes (frame : WireFrame) : Bytes :=
  [frame.first, frame.second] ++ frame.extended ++ frame.key ++ frame.payload

/-- The bytes of some frames. -/
def wire (frames : List WireFrame) : Bytes :=
  frames.flatMap bytes

def is_final (frame : WireFrame) : Bool :=
  decide (128 ≤ frame.first.toNat)

/-- The opcode in the frame; 0 for a continuation. -/
def opcode (frame : WireFrame) : Nat :=
  frame.first.toNat % 16

theorem two_le_length (frame : WireFrame) : 2 ≤ frame.bytes.length := by
  simp [bytes]

end WireFrame

namespace WebSocket

/-- What has arrived on a socket and is not yet used of a frame: `bytes`, of which `index` have been
read in this call. `frame_buffer` holds at most `limit` of them. -/
structure Raw (t : Transport) (socket : SOCKET) (index limit : Nat) (bytes : Bytes) : Prop where
  idle : t.sockets.Idle
  noData : (t.sockets.queue socket).buf = []
  position : t.frame_buffer_index = index
  bound : index ≤ t.frame_buffer.length
  limit : t.frame_buffer.length ≤ limit
  bytes : t.frame_buffer ++ (t.sockets.kernel socket).arrived = bytes
  connected : (t.sockets.kernel socket).peer = .connected

/-- An operation on the raw data leaves the frames as they are. -/
structure SameFrames (t t' : Transport) : Prop where
  in_frames : t'.in_frames = t.in_frames
  pongs : t'.pongs = t.pongs

theorem SameFrames.trans {t t' t'' : Transport} (first : SameFrames t t')
    (second : SameFrames t' t'') : SameFrames t t'' :=
  ⟨second.in_frames.trans first.in_frames, second.pongs.trans first.pongs⟩

variable {t : Transport} {socket : SOCKET} {index limit : Nat} {bytes : Bytes}

theorem Raw.mono (raw : Raw t socket index limit bytes) {limit' : Nat} (more : limit ≤ limit') :
    Raw t socket index limit' bytes :=
  ⟨raw.idle, raw.noData, raw.position, raw.bound, Nat.le_trans raw.limit more, raw.bytes,
    raw.connected⟩

/-- The raw data of a connection, whatever follows the bytes that have arrived. -/
structure Buffered (t : Transport) (socket : SOCKET) (peer : Peer) (index limit : Nat)
    (bytes : Bytes) : Prop where
  idle : t.sockets.Idle
  noData : (t.sockets.queue socket).buf = []
  position : t.frame_buffer_index = index
  bound : index ≤ t.frame_buffer.length
  limit : t.frame_buffer.length ≤ limit
  bytes : t.frame_buffer ++ (t.sockets.kernel socket).arrived = bytes
  peer : (t.sockets.kernel socket).peer = peer

theorem Raw.buffered (raw : Raw t socket index limit bytes) :
    Buffered t socket .connected index limit bytes :=
  ⟨raw.idle, raw.noData, raw.position, raw.bound, raw.limit, raw.bytes, raw.connected⟩

theorem Buffered.raw (buffered : Buffered t socket .connected index limit bytes) :
    Raw t socket index limit bytes :=
  ⟨buffered.idle, buffered.noData, buffered.position, buffered.bound, buffered.limit,
    buffered.bytes,
    buffered.peer⟩

/-- There is still something to take off the socket, or all of `frame_buffer` has been read. -/
def AtFront (t : Transport) (socket : SOCKET) : Prop :=
  (t.sockets.kernel socket).arrived ≠ [] ∨ t.frame_buffer.length ≤ t.frame_buffer_index

/-- What reading does to the raw data: bytes are taken off the socket after all of `frame_buffer`,
and none are put back. -/
structure Proceeds (t t' : Transport) (socket : SOCKET) : Prop where
  drained : (t.sockets.kernel socket).arrived = [] → (t'.sockets.kernel socket).arrived = []
  atFront : AtFront t socket → AtFront t' socket

theorem Proceeds.refl (t : Transport) (socket : SOCKET) : Proceeds t t socket :=
  ⟨id, id⟩

theorem Proceeds.trans {t t' t'' : Transport} (first : Proceeds t t' socket)
    (second : Proceeds t' t'' socket) : Proceeds t t'' socket :=
  ⟨second.drained ∘ first.drained, second.atFront ∘ first.atFront⟩

/-- Reading raw data leaves the frames as they are. -/
structure Advances (t t' : Transport) (socket : SOCKET) : Prop extends Proceeds t t' socket where
  same : SameFrames t t'

theorem Advances.refl (t : Transport) (socket : SOCKET) : Advances t t socket :=
  ⟨.refl t socket, ⟨rfl, rfl⟩⟩

theorem Advances.trans {t t' t'' : Transport} (first : Advances t t' socket)
    (second : Advances t' t'' socket) : Advances t t'' socket :=
  ⟨first.toProceeds.trans second.toProceeds, first.same.trans second.same⟩

/-- The result when nothing more comes; `null` is the one for the `NULL` of a failed `recv`. -/
def dryResult (null : CompletionCode) : Peer → CompletionCode
  | .connected => .interrupted
  | .closed => .socketError
  | .failed => null

/-- A part of a frame is not there as a whole, and what there is of the frame is kept. -/
structure Stops (t t' : Transport) (socket : SOCKET) (peer : Peer) (limit : Nat) (bytes : Bytes)
    (null rc : CompletionCode) : Prop where
  kept : ∃ index, Buffered t' socket peer index limit bytes
  drained : (t'.sockets.kernel socket).arrived = []
  rc : rc = dryResult null peer ∨ (t.sockets.kernel socket).arrived ≠ [] ∧ rc = .interrupted

/-- Where a part begins does not matter. -/
theorem Stops.of_advances {t₀ t t' : Transport} {peer : Peer} {null rc : CompletionCode}
    (stops : Stops t t' socket peer limit bytes null rc) (advances : Advances t₀ t socket) :
    Stops t₀ t' socket peer limit bytes null rc := by
  refine ⟨stops.kept, stops.drained, stops.rc.imp_right fun more => ⟨?_, more.2⟩⟩
  exact fun drained => more.1 (advances.drained drained)

theorem Stops.connected {t' : Transport} {null rc : CompletionCode}
    (stops : Stops t t' socket .connected limit bytes null rc) :
    rc = .interrupted ∧ ∃ index, Raw t' socket index limit bytes := by
  refine ⟨stops.rc.elim id And.right, ?_⟩
  rcases stops.kept with ⟨index, kept⟩
  exact ⟨index, kept.raw⟩

theorem rc_data {bytes : Bytes} (some : 0 < bytes.length) :
    (Received.data bytes).rc ≠ 0 ∧ (Received.data bytes).rc ≠ socketError := by
  change (bytes.length : Int) ≠ 0 ∧ (bytes.length : Int) ≠ -1
  omega

/-- `Socket_getdata` with nothing queued. -/
theorem getdata_raw {s : Sockets} (positive : 0 < socket) (idle : s.Idle)
    (noData : (s.queue socket).buf = []) {n : Nat} (some : 0 < n) :
    ∃ rv received s', Socket.getdata s socket n = (rv, .some received, s') ∧ s'.Idle ∧
      (s'.kernel socket).peer = (s.kernel socket).peer ∧
      (s'.kernel socket).arrived = (s.kernel socket).arrived.drop n ∧
      ((s.kernel socket).arrived ≠ [] ∧ rv = .some ((s.kernel socket).arrived.take n) ∧
          received = .data ((s.kernel socket).arrived.take n) ∨
        (s.kernel socket).arrived = [] ∧ (s'.queue socket).buf = [] ∧
          match (s.kernel socket).peer with
          | .connected => rv = .some [] ∧ received = .wouldBlock
          | .closed => rv = .none ∧ received = .closed
          | .failed => rv = .none ∧ received = .failed) := by
  have nonzero : ¬n = 0 := Nat.ne_of_gt some
  have queued := getQueuedData_eq (idle.serves socket)
  rw [noData] at queued
  rcases @recv_spec s socket n some with ⟨received, s', result, peer, nothing | something⟩
  · rcases nothing with ⟨noneArrived, arrived, isReceived⟩
    have serves := recv_serves _ s' result (idle.serves socket)
    have isQueue := recv_queue _ s' result socket
    have isIdle : s'.Idle := by
      cases result
      exact ⟨idle.distinct, idle.default⟩
    rcases interrupted_spec serves positive [] with ⟨idle', queue', kernel', _⟩
    have none : (s.kernel socket).arrived.drop n = [] := by rw [noneArrived, List.drop_nil]
    cases isPeer : (s.kernel socket).peer with
    | connected =>
        rw [isPeer] at isReceived
        subst isReceived
        refine ⟨.some [], .wouldBlock, SocketBuffer.interrupted s' socket [], ?_, idle', ?_, ?_,
          .inr ⟨noneArrived, ?_, rfl, rfl⟩⟩
        · unfold Socket.getdata
          dsimp only
          rw [if_neg nonzero, queued, List.length_nil, Nat.sub_zero, result]
          simp [Ne.symm nonzero]
        · rw [kernel', peer, isPeer]
        · rw [kernel', arrived, none]
        · rw [queue']
    | closed =>
        rw [isPeer] at isReceived
        subst isReceived
        refine ⟨.none, .closed, s', ?_, isIdle, by rw [peer, isPeer], by rw [arrived, none],
          .inr ⟨noneArrived, by rw [isQueue, noData], rfl, rfl⟩⟩
        unfold Socket.getdata
        dsimp only
        rw [if_neg nonzero, queued, List.length_nil, Nat.sub_zero, result]
    | failed =>
        rw [isPeer] at isReceived
        subst isReceived
        refine ⟨.none, .failed, s', ?_, isIdle, by rw [peer, isPeer], by rw [arrived, none],
          .inr ⟨noneArrived, by rw [isQueue, noData], rfl, rfl⟩⟩
        unfold Socket.getdata
        dsimp only
        rw [if_neg nonzero, queued, List.length_nil, Nat.sub_zero, result]
  · rcases something with ⟨someArrived, isData, arrived⟩
    subst isData
    have serves := recv_serves _ s' result (idle.serves socket)
    have getdata : Socket.getdata s socket n = (.some ((s.kernel socket).arrived.take n),
        .some (.data ((s.kernel socket).arrived.take n)),
        if ((s.kernel socket).arrived.take n).length = n then SocketBuffer.complete s' socket
        else SocketBuffer.interrupted s' socket ((s.kernel socket).arrived.take n)) := by
      unfold Socket.getdata
      dsimp only
      rw [if_neg nonzero, queued, List.length_nil, Nat.sub_zero, result]
      rfl
    refine ⟨_, _, _, getdata, ?_⟩
    split
    · rcases complete_spec serves positive with ⟨idle', queue', kernel', _⟩
      exact ⟨idle', by rw [kernel', peer], by rw [kernel', arrived], .inl ⟨someArrived, rfl, rfl⟩⟩
    · rcases interrupted_spec serves positive ((s.kernel socket).arrived.take n) with
        ⟨idle', queue', kernel', _⟩
      exact ⟨idle', by rw [kernel', peer], by rw [kernel', arrived], .inl ⟨someArrived, rfl, rfl⟩⟩

variable {peer : Peer}

theorem Buffered.mono (buffered : Buffered t socket peer index limit bytes) {limit' : Nat}
    (more : limit ≤ limit') : Buffered t socket peer index limit' bytes :=
  { buffered with limit := Nat.le_trans buffered.limit more }

/-- A part that `frame_buffer` holds is taken off it. -/
theorem Buffered.getRawSocketData_buffered (buffered : Buffered t socket peer index limit bytes)
    {net : Net} {n : Nat} (some : 0 < n) (enough : index + n ≤ t.frame_buffer.length) :
    ∃ t', WebSocket.getRawSocketData t net n 1 = (.some ((bytes.drop index).take n),
      (n : Int), t') ∧
      Advances t t' socket ∧ Buffered t' socket peer (index + n) limit bytes := by
  have bound := buffered.bound
  have position := buffered.position
  have isPart : (t.frame_buffer.drop index).take n = (bytes.drop index).take n := by
    rw [← buffered.bytes, List.drop_append_of_le_length bound, List.take_append_of_le_length]
    rw [List.length_drop]
    omega
  refine ⟨{ t with frame_buffer_index := index + n }, ?_, ⟨⟨id, ?_⟩, ⟨rfl, rfl⟩⟩, buffered.idle,
    buffered.noData, rfl, enough, buffered.limit, buffered.bytes, buffered.peer⟩
  · simp only [WebSocket.getRawSocketData, position]
    rw [if_pos ⟨some, by omega⟩, isPart]
  · rintro (arrived | all)
    · exact .inl arrived
    · rw [position] at all
      omega

/-- When nothing has arrived, a part that is not in `frame_buffer` cannot be read. -/
theorem Buffered.getRawSocketData_dry (buffered : Buffered t socket peer index limit bytes)
    (positive : 0 < socket) {net : Net} (isNet : net.socket = socket) {n : Nat} (some : 0 < n)
    (few : t.frame_buffer.length < index + n) (drained : (t.sockets.kernel socket).arrived = []) :
    ∃ rv rc t', WebSocket.getRawSocketData t net n 1 = (rv, rc, t') ∧ Advances t t' socket ∧
      Buffered t' socket peer index limit bytes ∧ (t'.sockets.kernel socket).arrived = [] ∧
      match peer with
      | .connected => rv = .some [] ∧ rc ≠ socketError
      | .closed => rc = socketError
      | .failed => rv = .none ∧ rc ≠ socketError := by
  have bound := buffered.bound
  have position := buffered.position
  have missing : 0 < n - (t.frame_buffer.length - index) := by omega
  rcases getdata_raw positive buffered.idle buffered.noData missing with
    ⟨rv, received, s', got, idle, isPeer, arrived, more | nothing⟩
  · exact absurd drained more.1
  rcases nothing with ⟨-, noData, result⟩
  rw [drained, List.drop_nil] at arrived
  have direct : ¬(0 < n ∧ n ≤ t.frame_buffer.length - index) := by omega
  have isPeer' := isPeer.trans buffered.peer
  have kept : Buffered { t with sockets := s' } socket peer index limit bytes := by
    refine ⟨idle, noData, position, bound, buffered.limit, ?_, isPeer'⟩
    rw [← buffered.bytes]
    exact congrArg (t.frame_buffer ++ ·) (arrived.trans drained.symm)
  have advances : Advances t { t with sockets := s' } socket := by
    refine ⟨⟨fun _ => arrived, ?_⟩, ⟨rfl, rfl⟩⟩
    rintro (some | all)
    · exact absurd drained some
    · exact .inr all
  rw [buffered.peer] at result
  cases peer with
  | connected =>
      rcases result with ⟨rfl, rfl⟩
      refine ⟨.some [], 11, _, ?_, advances, kept, arrived, rfl, by decide⟩
      simp only [WebSocket.getRawSocketData, position, isNet]
      rw [if_neg direct, if_pos some, got]
      simp [Received.rc, Nat.ne_of_gt some]
  | closed =>
      rcases result with ⟨rfl, rfl⟩
      refine ⟨.none, socketError, _, ?_, advances, kept, arrived, rfl⟩
      simp only [WebSocket.getRawSocketData, position, isNet]
      rw [if_neg direct, if_pos some, got]
      simp [Received.rc]
  | failed =>
      rcases result with ⟨rfl, rfl⟩
      refine ⟨.none, 104, _, ?_, advances, kept, arrived, rfl, by decide⟩
      simp only [WebSocket.getRawSocketData, position, isNet]
      rw [if_neg direct, if_pos some, got]
      simp [Received.rc, Nat.ne_of_gt some]

/-- A part is taken off the socket, or what there is of it. -/
theorem Buffered.getRawSocketData_arrived (buffered : Buffered t socket peer index limit bytes)
    (positive : 0 < socket) {net : Net} (isNet : net.socket = socket) {n : Nat} (some : 0 < n)
    (room : index + n ≤ limit) (few : t.frame_buffer.length < index + n)
    (arrives : (t.sockets.kernel socket).arrived ≠ []) :
    ∃ rc t', WebSocket.getRawSocketData t net n 1 = (.some ((bytes.drop index).take n), rc, t') ∧
      rc ≠ socketError ∧ Advances t t' socket ∧
      Buffered t' socket peer (index + ((bytes.drop index).take n).length) limit bytes ∧
      (bytes.length < index + n → (t'.sockets.kernel socket).arrived = []) := by
  have bound := buffered.bound
  have isBytes := buffered.bytes
  have position := buffered.position
  generalize isMissing : n - (t.frame_buffer.length - index) = m
  have missing : 0 < m := by omega
  rcases getdata_raw positive buffered.idle buffered.noData missing with
    ⟨rv, received, s', got, idle, isPeer, arrived, more | nothing⟩
  swap
  · exact absurd nothing.1 arrives
  rcases more with ⟨-, rfl, rfl⟩
  have start : (if t.frame_buffer = [] then 0 else index) = index := by
    split
    next empty =>
      rw [empty, List.length_nil] at bound
      exact (Nat.le_zero.mp bound).symm
    · rfl
  have direct : ¬(0 < n ∧ n ≤ t.frame_buffer.length - index) := by omega
  have whole : t.frame_buffer ++ (t.sockets.kernel socket).arrived.take m ++
      (t.sockets.kernel socket).arrived.drop m = bytes := by
    rw [List.append_assoc, List.take_append_drop, isBytes]
  have isPart : ((t.frame_buffer ++ (t.sockets.kernel socket).arrived.take m).drop
      index).take n = (bytes.drop index).take n := by
    rw [← isBytes, List.drop_append_of_le_length bound, List.drop_append_of_le_length bound,
      List.take_append, List.take_append, List.take_take, List.length_drop, isMissing, Nat.min_self]
  have short := List.length_take_le m (t.sockets.kernel socket).arrived
  have length := congrArg List.length isPart
  have left : (t.sockets.kernel socket).arrived.length - m =
      ((t.sockets.kernel socket).arrived.drop m).length := List.length_drop.symm
  have total := congrArg List.length isBytes
  rw [List.length_append] at total
  rcases List.exists_cons_of_ne_nil arrives with ⟨first, others, isArrived⟩
  have taken : 0 < ((t.sockets.kernel socket).arrived.take m).length := by
    rw [List.length_take, isArrived, List.length_cons]
    omega
  rcases List.exists_cons_of_length_pos taken with ⟨first', rest, isTaken⟩
  rw [isTaken] at got isPart whole short length
  simp only [List.length_take, List.length_drop, List.length_append] at length
  rcases complete_spec (idle.serves socket) positive with ⟨idle', queue', kernel', _⟩
  let t' : Transport :=
    { t with
      sockets := SocketBuffer.complete s' socket
      frame_buffer := t.frame_buffer ++ first' :: rest
      frame_buffer_index := index + ((bytes.drop index).take n).length }
  have all : t'.frame_buffer.length ≤ t'.frame_buffer_index := by
    simp only [t', List.length_append, List.length_take, List.length_drop]
    omega
  refine ⟨(Received.data (first' :: rest)).rc, t', ?_, (rc_data (by simp)).2,
    ⟨⟨?_, ?_⟩, ⟨rfl, rfl⟩⟩, ?_, ?_⟩
  · simp only [WebSocket.getRawSocketData, position, isNet, isMissing]
    rw [if_neg direct, if_pos some, got]
    dsimp only [Option.map_some, Option.getD_some]
    rw [if_neg (rc_data (by simp)).1, if_neg (Nat.ne_of_gt some), start, isPart]
  · exact fun drained => absurd drained arrives
  · exact fun _ => .inr all
  · refine ⟨idle', ?_, rfl, ?_, ?_, ?_, ?_⟩
    · rw [queue']
      rfl
    · simp only [t', List.length_append, List.length_take, List.length_drop]
      omega
    · simp only [t', List.length_append]
      omega
    · simp only [t', kernel', arrived]
      exact whole
    · simp only [t', kernel']
      exact isPeer.trans buffered.peer
  · intro cut
    simp only [t', kernel', arrived]
    apply List.eq_nil_of_length_eq_zero
    rw [← left]
    omega

/-- A part of a frame is read when all of it is there. -/
theorem Buffered.readPart (buffered : Buffered t socket peer index limit bytes)
    (positive : 0 < socket) {net : Net} (isNet : net.socket = socket) {n : Nat} (some : 0 < n)
    (room : index + n ≤ limit) (null : CompletionCode) :
    ∃ t', Advances t t' socket ∧
      if index + n ≤ bytes.length then
        WebSocket.readPart t net n null = .read ((bytes.drop index).take n) t' ∧
          Buffered t' socket peer (index + n) limit bytes
      else
        ∃ rc, WebSocket.readPart t net n null = .exit rc t' ∧
          Stops t t' socket peer limit bytes null rc := by
  have bound := buffered.bound
  have total := congrArg List.length buffered.bytes
  rw [List.length_append] at total
  have read {t' : Transport} {rc : Rc} (noError : rc ≠ socketError)
    (enough : index + n ≤ bytes.length)
      (got : WebSocket.getRawSocketData t net n 1 = (.some ((bytes.drop index).take n), rc, t')) :
      WebSocket.readPart t net n null = .read ((bytes.drop index).take n) t' := by
    have full : ¬((bytes.drop index).take n).length < n := by
      rw [List.length_take, List.length_drop]
      omega
    simp only [WebSocket.readPart, got]
    rw [if_neg noError, if_neg full]
  by_cases isBuffered : index + n ≤ t.frame_buffer.length
  · have enough : index + n ≤ bytes.length := by omega
    rcases buffered.getRawSocketData_buffered some isBuffered with ⟨t', got, advances, buffered'⟩
    refine ⟨t', advances, ?_⟩
    rw [if_pos enough]
    refine ⟨read ?_ enough got, buffered'⟩
    change (n : Int) ≠ -1
    omega
  have few : t.frame_buffer.length < index + n := Nat.lt_of_not_le isBuffered
  by_cases arrives : (t.sockets.kernel socket).arrived = []
  · -- nothing can be taken off the socket
    rcases buffered.getRawSocketData_dry positive isNet some few arrives with
      ⟨rv, rc, t', got, advances, kept, drained, result⟩
    have cut : ¬index + n ≤ bytes.length := by
      rw [arrives, List.length_nil] at total
      omega
    refine ⟨t', advances, ?_⟩
    rw [if_neg cut]
    refine ⟨dryResult null peer, ?_, ⟨index, kept⟩, drained, .inl rfl⟩
    simp only [WebSocket.readPart, got]
    cases peer with
    | connected =>
        rcases result with ⟨rfl, noError⟩
        rw [if_neg noError]
        exact if_pos some
    | closed =>
        rw [if_pos result]
        rfl
    | failed =>
        rcases result with ⟨rfl, noError⟩
        rw [if_neg noError]
        rfl
  · rcases buffered.getRawSocketData_arrived positive isNet some room few arrives with
      ⟨rc, t', got, noError, advances, buffered', drained⟩
    refine ⟨t', advances, ?_⟩
    have length : ((bytes.drop index).take n).length = min n (bytes.length - index) := by
      rw [List.length_take, List.length_drop]
    split
    next enough =>
      have full : ((bytes.drop index).take n).length = n := by omega
      rw [full] at buffered'
      exact ⟨read noError enough got, buffered'⟩
    next cut =>
      refine ⟨.interrupted, ?_, ⟨_, buffered'⟩, drained (Nat.lt_of_not_le cut), .inr ⟨arrives, rfl⟩⟩
      simp only [WebSocket.readPart, got]
      rw [if_neg noError, if_pos (by omega)]

/-- When all that was kept has been read, the buffer is freed. -/
theorem Buffered.clear (buffered : Buffered t socket peer index index bytes) (positive : 0 < socket)
    {net : Net} (isNet : net.socket = socket) :
    ∃ t', WebSocket.getRawSocketData t net 0 1 = (some [], 1, t') ∧ Advances t t' socket ∧
      Buffered t' socket peer 0 0 (bytes.drop index) := by
  have all : t.frame_buffer.length = index := Nat.le_antisymm buffered.limit buffered.bound
  rcases complete_spec (buffered.idle.serves socket) positive with ⟨idle, queue, kernel, _⟩
  refine ⟨{ t with
      sockets := SocketBuffer.complete t.sockets socket
      frame_buffer := []
      frame_buffer_index := 0 }, ?_, ⟨⟨?_, fun _ => .inr (Nat.le_refl 0)⟩, ⟨rfl, rfl⟩⟩,
        idle, ?_, rfl,
      Nat.le_refl _, Nat.le_refl _, ?_, ?_⟩
  · simp [WebSocket.getRawSocketData, Socket.getdata, isNet]
  · rw [kernel]
    exact id
  · rw [queue]
    rfl
  · rw [kernel, ← buffered.bytes, ← all, List.drop_left]
    rfl
  · rw [kernel]
    exact buffered.peer

/-- What a frame is read as, after one with the opcode `opcode`. -/
def received (frame : WireFrame) (opcode : Nat) : WebSocket.Received :=
  { is_final := frame.is_final
    opcode := if frame.opcode ≠ opContinue then frame.opcode else opcode
    payload := frame.payload }

theorem received_validOpcode (frame : WireFrame) {opcode : Nat}
    (valid : validOpcode opcode = true) : validOpcode (received frame opcode).opcode = true := by
  simp only [received]
  split
  · exact frame.isOpcode
  · exact valid

theorem take_part {front part rest more : Bytes} (isBytes : bytes ++ more = front ++ part ++ rest)
    (enough : front.length + part.length ≤ bytes.length) :
    (bytes.drop front.length).take part.length = part := by
  have isFront : (bytes ++ more).drop front.length =
      bytes.drop front.length ++ more := List.drop_append_of_le_length (by omega)
  rw [isBytes, List.append_assoc, List.drop_left] at isFront
  have isPart := congrArg (List.take part.length) isFront
  rw [List.take_left, List.take_append_of_le_length] at isPart
  · exact isPart.symm
  · rw [List.length_drop]
    omega

/-- An optional part of a frame, whose length is in the first two bytes. -/
theorem Buffered.readOptional (buffered : Buffered t socket peer index limit bytes)
    (positive : 0 < socket) {net : Net} (isNet : net.socket = socket)
    {front part rest coming : Bytes} (isIndex : front.length = index)
    (isBytes : bytes ++ coming = front ++ part ++ rest) (room : index + part.length ≤ limit)
    (some : 0 < part.length) (null : CompletionCode) :
    ∃ t', Advances t t' socket ∧
      if index + part.length ≤ bytes.length then
        WebSocket.readPart t net part.length null = .read part t' ∧
          Buffered t' socket peer (index + part.length) limit bytes
      else
        ∃ rc, WebSocket.readPart t net part.length null = .exit rc t' ∧
          Stops t t' socket peer limit bytes null rc := by
  rcases buffered.readPart positive isNet some room null with ⟨t', advances, spec⟩
  refine ⟨t', advances, ?_⟩
  split at spec
  next enough =>
    rw [if_pos enough]
    subst isIndex
    rwa [take_part isBytes enough] at spec
  next few =>
    rw [if_neg few]
    exact spec

/-- The length of the payload is read. -/
theorem Buffered.readLength (buffered : Buffered t socket peer 2 limit bytes)
    (positive : 0 < socket) {net : Net} (isNet : net.socket = socket) (frame : WireFrame)
    {rest coming : Bytes}
    (isBytes : bytes ++ coming = [frame.first, frame.second] ++ frame.extended ++ rest)
    (room : 2 + frame.extended.length ≤ limit) :
    ∃ t', Advances t t' socket ∧
      if 2 + frame.extended.length ≤ bytes.length then
        WebSocket.readLength t net (frame.second.toNat % 128) = .read frame.payload.length t' ∧
          Buffered t' socket peer (2 + frame.extended.length) limit bytes
      else
        ∃ rc, WebSocket.readLength t net (frame.second.toNat % 128) = .exit rc t' ∧
          Stops t t' socket peer limit bytes .socketError rc := by
  have isExtended := frame.isExtended
  have isLength := frame.isLength
  have number {n : Nat} (size : frame.extended.length = n) (some : 0 < n)
      (isNumber : ∀ t', WebSocket.readPart t net n .socketError = .read frame.extended t' →
        WebSocket.readLength t net (frame.second.toNat % 128) = .read frame.payload.length t')
      (noNumber : ∀ rc t', WebSocket.readPart t net n .socketError = .exit rc t' →
        WebSocket.readLength t net (frame.second.toNat % 128) = .exit rc t') :
      ∃ t', Advances t t' socket ∧
        if 2 + frame.extended.length ≤ bytes.length then
          WebSocket.readLength t net (frame.second.toNat % 128) = .read frame.payload.length t' ∧
            Buffered t' socket peer (2 + frame.extended.length) limit bytes
        else
          ∃ rc, WebSocket.readLength t net (frame.second.toNat % 128) = .exit rc t' ∧
            Stops t t' socket peer limit bytes .socketError rc := by
    subst size
    rcases buffered.readOptional positive isNet rfl isBytes room some .socketError with
      ⟨t', advances, spec⟩
    refine ⟨t', advances, ?_⟩
    split at spec
    next enough =>
      rw [if_pos enough]
      exact ⟨isNumber t' spec.1, spec.2⟩
    next few =>
      rw [if_neg few]
      rcases spec with ⟨rc, exits, stops⟩
      exact ⟨rc, noNumber rc t' exits, stops⟩
  by_cases two : frame.second.toNat % 128 = 126
  · rw [if_pos two] at isExtended
    have notEmpty : frame.extended ≠ [] := by
      intro empty
      rw [empty] at isExtended
      cases isExtended
    rw [if_neg notEmpty] at isLength
    apply number isExtended (by decide)
    · intro t' read
      unfold WebSocket.readLength
      rw [if_pos two, read, isLength]
    · intro rc t' exits
      unfold WebSocket.readLength
      rw [if_pos two, exits]
  · rw [if_neg two] at isExtended
    by_cases eight : frame.second.toNat % 128 = 127
    · rw [if_pos eight] at isExtended
      have notEmpty : frame.extended ≠ [] := by
        intro empty
        rw [empty] at isExtended
        cases isExtended
      rw [if_neg notEmpty] at isLength
      apply number isExtended (by decide)
      · intro t' read
        unfold WebSocket.readLength
        rw [if_neg two, if_pos eight, read, isLength]
      · intro rc t' exits
        unfold WebSocket.readLength
        rw [if_neg two, if_pos eight, exits]
    · rw [if_neg eight] at isExtended
      have empty : frame.extended = [] := List.length_eq_zero_iff.mp isExtended
      rw [if_pos empty] at isLength
      refine ⟨t, .refl t socket, ?_⟩
      have enough : 2 + frame.extended.length ≤ bytes.length := by
        have bound := buffered.bound
        rw [isExtended, ← buffered.bytes, List.length_append]
        omega
      rw [if_pos enough, isExtended, isLength]
      unfold WebSocket.readLength
      rw [if_neg two, if_neg eight]
      exact ⟨rfl, buffered⟩

/-- The masking key is read, if there is one. -/
theorem Buffered.readMask (buffered : Buffered t socket peer index limit bytes)
    (positive : 0 < socket) {net : Net} (isNet : net.socket = socket) (frame : WireFrame)
    {front rest coming : Bytes} (isIndex : front.length = index)
    (isBytes : bytes ++ coming = front ++ frame.key ++ rest)
    (room : index + frame.key.length ≤ limit) :
    ∃ t', Advances t t' socket ∧
      if index + frame.key.length ≤ bytes.length then
        WebSocket.readMask t net (decide (128 ≤ frame.second.toNat)) = .read () t' ∧
          Buffered t' socket peer (index + frame.key.length) limit bytes
      else
        ∃ rc, WebSocket.readMask t net (decide (128 ≤ frame.second.toNat)) = .exit rc t' ∧
          Stops t t' socket peer limit bytes .socketError rc := by
  have isKey := frame.isKey
  by_cases masked : 128 ≤ frame.second.toNat
  · rw [if_pos masked] at isKey
    rcases buffered.readOptional positive isNet isIndex isBytes room (by omega) .socketError with
      ⟨t', advances, spec⟩
    refine ⟨t', advances, ?_⟩
    rw [decide_eq_true masked]
    unfold WebSocket.readMask
    rw [if_pos rfl, ← isKey]
    split at spec
    next enough =>
      rw [if_pos enough, spec.1]
      exact ⟨rfl, spec.2⟩
    next few =>
      rcases spec with ⟨rc, exits, stops⟩
      rw [if_neg few, exits]
      exact ⟨rc, rfl, stops⟩
  · rw [if_neg masked] at isKey
    have enough : index + frame.key.length ≤ bytes.length := by
      have bound := buffered.bound
      rw [isKey, ← buffered.bytes, List.length_append]
      omega
    refine ⟨t, .refl t socket, ?_⟩
    rw [decide_eq_false masked, if_pos enough, isKey]
    exact ⟨rfl, buffered⟩

/-- What `readFrame` does behind the first two bytes. -/
theorem readFrame_of_header {net : Net} {frame : WireFrame} {opcode : Nat} {t' : Transport}
    (valid : validOpcode opcode = true)
    (header : WebSocket.readPart t net 2 .interrupted = .read [frame.first, frame.second] t') :
    readFrame t net opcode =
      match readLength t' net (frame.second.toNat % 128) with
      | .exit rc t => .exit rc t
      | .read payload_len t =>
          match readMask t net (decide (128 ≤ frame.second.toNat)) with
          | .exit rc t => .exit rc t
          | .read _ t =>
              match readPart t net payload_len .socketError with
              | .exit rc t => .exit rc t
              | .read payload t => .read { received frame opcode with payload := payload } t := by
  unfold readFrame
  rw [header]
  change (if (!validOpcode (received frame opcode).opcode) = true then _ else _) = _
  rw [received_validOpcode frame valid]
  rfl

/-- A frame is read when all of it is there, and the buffer can be freed. What there is of an
incomplete frame is kept. A `NULL` for the first two bytes is no error. -/
theorem Buffered.readFrame {frame : WireFrame} {coming rest : Bytes}
    (buffered : Buffered t socket peer 0 frame.bytes.length bytes)
    (positive : 0 < socket) {net : Net} (isNet : net.socket = socket)
    (isBytes : bytes ++ coming = frame.bytes ++ rest) {opcode : Nat}
    (valid : validOpcode opcode = true) :
    ∃ t', Advances t t' socket ∧
      if frame.bytes.length ≤ bytes.length then
        WebSocket.readFrame t net opcode = .read (received frame opcode) t' ∧
          ∃ index kept, Buffered t' socket peer index index kept ∧
            kept.drop index = bytes.drop frame.bytes.length
      else
        ∃ rc, WebSocket.readFrame t net opcode = .exit rc t' ∧
          Stops t t' socket peer frame.bytes.length bytes
            (if bytes.length < 2 then .interrupted else .socketError) rc := by
  have length : frame.bytes.length =
      2 + frame.extended.length + frame.key.length + frame.payload.length := by
    simp only [WireFrame.bytes, List.length_append]
    rfl
  have header : [frame.first, frame.second].length = 2 := rfl
  have atHeader : bytes ++ coming = [] ++ [frame.first, frame.second] ++
      (frame.extended ++ frame.key ++ frame.payload ++ rest) := by
    simp [isBytes, WireFrame.bytes]
  have atLength : bytes ++ coming = [frame.first, frame.second] ++ frame.extended ++
      (frame.key ++ frame.payload ++ rest) := by
    simp [isBytes, WireFrame.bytes]
  have atKey : bytes ++ coming = ([frame.first, frame.second] ++ frame.extended) ++ frame.key ++
      (frame.payload ++ rest) := by
    simp [isBytes, WireFrame.bytes]
  have atPayload : bytes ++ coming = ([frame.first, frame.second] ++ frame.extended ++ frame.key) ++
      frame.payload ++ rest := by
    simp [isBytes, WireFrame.bytes]
  rcases buffered.readOptional positive isNet rfl atHeader (by omega) (by omega) .interrupted with
    ⟨t₁, advances₁, spec⟩
  rw [header, Nat.zero_add] at spec
  by_cases enough₁ : 2 ≤ bytes.length
  swap
  · rw [if_neg enough₁] at spec
    rcases spec with ⟨rc, exits, stops⟩
    refine ⟨t₁, advances₁, ?_⟩
    rw [if_neg (by omega), if_pos (by omega)]
    exact ⟨rc, by simp only [WebSocket.readFrame, exits], stops⟩
  rw [if_pos enough₁] at spec
  rcases spec with ⟨part₁, buffered₁⟩
  rw [if_neg (show ¬bytes.length < 2 by omega)]
  rcases buffered₁.readLength positive isNet frame atLength (by omega) with ⟨t₂, advances₂, spec⟩
  by_cases enough₂ : 2 + frame.extended.length ≤ bytes.length
  swap
  · rw [if_neg enough₂] at spec
    rcases spec with ⟨rc, exits, stops⟩
    refine ⟨t₂, advances₁.trans advances₂, ?_⟩
    rw [if_neg (by omega)]
    exact ⟨rc, by simp only [readFrame_of_header valid part₁, exits], stops.of_advances advances₁⟩
  rw [if_pos enough₂] at spec
  rcases spec with ⟨part₂, buffered₂⟩
  have isIndex : ([frame.first, frame.second] ++ frame.extended).length =
      2 + frame.extended.length := List.length_append
  rcases buffered₂.readMask positive isNet frame isIndex atKey (by omega) with ⟨t₃, advances₃, spec⟩
  have advances₁₂ := advances₁.trans advances₂
  by_cases enough₃ : 2 + frame.extended.length + frame.key.length ≤ bytes.length
  swap
  · rw [if_neg enough₃] at spec
    rcases spec with ⟨rc, exits, stops⟩
    refine ⟨t₃, advances₁₂.trans advances₃, ?_⟩
    rw [if_neg (by omega)]
    exact ⟨rc, by simp only [readFrame_of_header valid part₁, part₂, exits],
      stops.of_advances advances₁₂⟩
  rw [if_pos enough₃] at spec
  rcases spec with ⟨part₃, buffered₃⟩
  have isIndex' : ([frame.first, frame.second] ++ frame.extended ++ frame.key).length =
      2 + frame.extended.length + frame.key.length := by
    rw [List.length_append, isIndex]
  have advances₁₃ := advances₁₂.trans advances₃
  have read {t₄ : Transport} (part₄ : WebSocket.readPart t₃ net frame.payload.length .socketError =
      .read frame.payload t₄) : WebSocket.readFrame t net opcode =
        .read (received frame opcode) t₄ := by
    simp only [readFrame_of_header valid part₁, part₂, part₃, part₄]
    rfl
  rcases Nat.eq_zero_or_pos frame.payload.length with empty | some
  · -- a read of no bytes frees the buffer already
    have all : frame.bytes.length = 2 + frame.extended.length + frame.key.length := by omega
    rw [← all] at buffered₃ enough₃
    rcases buffered₃.clear positive isNet with ⟨t₄, cleared, advances₄, buffered₄⟩
    refine ⟨t₄, advances₁₃.trans advances₄, ?_⟩
    rw [if_pos enough₃]
    refine ⟨read ?_, 0, _, buffered₄, rfl⟩
    have isEmpty : frame.payload = [] := List.length_eq_zero_iff.mp empty
    unfold WebSocket.readPart
    rw [empty, isEmpty, cleared]
    rfl
  · rcases buffered₃.readOptional positive isNet isIndex' atPayload (by omega)
      some .socketError with
      ⟨t₄, advances₄, spec⟩
    refine ⟨t₄, advances₁₃.trans advances₄, ?_⟩
    rw [← length] at spec
    split at spec
    next enough =>
      rw [if_pos enough]
      exact ⟨read spec.1, _, _, spec.2, rfl⟩
    next few =>
      rcases spec with ⟨rc, exits, stops⟩
      rw [if_neg few]
      exact ⟨rc, by simp only [readFrame_of_header valid part₁, part₂, part₃, exits],
        stops.of_advances advances₁₃⟩

end WebSocket

end Paho
