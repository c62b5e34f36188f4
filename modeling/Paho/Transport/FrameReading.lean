import Paho.Transport.WireFrames

/-!
# Reading the frames of a connection

The bytes of a connection as a list of frames: those that have arrived as a whole, and those that
are still to come. One round of `WebSocket_receiveFrame` reads the next one, or is interrupted and
leaves all as it was.
-/

namespace Paho

open Sockets

namespace WireFrame

variable {frame : WireFrame} {frames more : List WireFrame}

@[simp]
theorem wire_cons (frame : WireFrame) (frames : List WireFrame) :
    wire (frame :: frames) = frame.bytes ++ wire frames :=
  rfl

@[simp]
theorem wire_append (frames more : List WireFrame) : wire (frames ++ more) =
    wire frames ++ wire more :=
  List.flatMap_append

/-- The length of the first of some frames. -/
def firstLength : List WireFrame → Nat
  | [] => 0
  | frame :: _ => frame.bytes.length

/-- Whether a frame is PING, PONG or CLOSE. -/
def isControl (frame : WireFrame) : Bool :=
  decide (WebSocket.opClose ≤ frame.opcode)

/-- The data in some frames. -/
def payloads (frames : List WireFrame) : Bytes :=
  frames.flatMap fun frame => if frame.isControl then [] else frame.payload

/-- The data of the message, or of the rest of one, that some frames begin with, and the frames
behind it. -/
def message : List WireFrame → Option (Bytes × List WireFrame)
  | [] => none
  | frame :: frames =>
      if frame.isControl then none
      else if frame.is_final then some (frame.payload, frames)
      else (message frames).map fun (payload, rest) => (frame.payload ++ payload, rest)

@[simp]
theorem payloads_nil : payloads [] = [] :=
  rfl

theorem payloads_cons (frame : WireFrame) (frames : List WireFrame) :
    payloads (frame :: frames) = (if frame.isControl then [] else frame.payload) ++
      payloads frames :=
  rfl

@[simp]
theorem payloads_append (frames more : List WireFrame) :
    payloads (frames ++ more) = payloads frames ++ payloads more :=
  List.flatMap_append

theorem payloads_message {payload : Bytes} {rest : List WireFrame}
    (isMessage : message frames = some (payload, rest)) :
    payloads frames = payload ++ payloads rest := by
  induction frames generalizing payload with
  | nil => cases isMessage
  | cons frame frames ih =>
      rw [payloads_cons]
      simp only [message] at isMessage
      split at isMessage
      · cases isMessage
      next data =>
        rw [if_neg data]
        split at isMessage
        · cases isMessage
          rfl
        · rcases Option.map_eq_some_iff.mp isMessage with ⟨⟨payload', rest'⟩, isRest, same⟩
          cases same
          rw [ih isRest, List.append_assoc]

theorem length_message {payload : Bytes} {rest : List WireFrame}
    (isMessage : message frames = some (payload, rest)) : rest.length < frames.length := by
  induction frames generalizing payload with
  | nil => cases isMessage
  | cons frame frames ih =>
      simp only [message] at isMessage
      split at isMessage
      · cases isMessage
      · split at isMessage
        · cases isMessage
          exact Nat.lt_succ_self _
        · rcases Option.map_eq_some_iff.mp isMessage with ⟨⟨payload', rest'⟩, isRest, same⟩
          cases same
          exact Nat.lt_succ_of_lt (ih isRest)

/-- The opcode of a frame with data. -/
theorem opcode_le_two (data : ¬frame.isControl = true) : frame.opcode ≤ 2 := by
  have valid := frame.isOpcode
  change WebSocket.validOpcode frame.opcode = true at valid
  simp only [isControl, decide_eq_true_eq, Nat.not_le] at data
  simp only [WebSocket.validOpcode, WebSocket.opBinary, WebSocket.opClose,
    WebSocket.opPong] at valid data
  grind

/-- How many of some frames `n` bytes hold. -/
theorem exists_whole (frames : List WireFrame) (n : Nat) :
    ∃ whole later, frames = whole ++ later ∧ (wire whole).length ≤ n ∧
      ∀ frame ∈ later.head?, n < (wire whole).length + frame.bytes.length := by
  induction frames generalizing n with
  | nil => exact ⟨[], [], rfl, Nat.zero_le _, by simp⟩
  | cons frame frames ih =>
      by_cases fits : frame.bytes.length ≤ n
      · rcases ih (n - frame.bytes.length) with ⟨whole, later, rfl, few, next⟩
        refine ⟨frame :: whole, later, rfl, ?_, ?_⟩
        · simp only [wire_cons, List.length_append]
          omega
        · intro other isNext
          have := next other isNext
          simp only [wire_cons, List.length_append]
          omega
      · refine ⟨[], frame :: frames, rfl, Nat.zero_le _, ?_⟩
        intro other isNext
        cases isNext
        simpa [wire] using fits

end WireFrame

namespace WebSocket

open WireFrame

/-- The connection carries some frames: `ready` have arrived, and `coming` are the bytes that have
not, which complete the frames `later`. -/
structure Carries (t : Transport) (socket : SOCKET) (ready later : List WireFrame)
    (coming : Bytes) : Prop where
  raw : ∃ bytes, Raw t socket 0 (firstLength (ready ++ later)) bytes ∧
    bytes ++ coming = wire (ready ++ later) ∧ (wire ready).length ≤ bytes.length ∧
    ∀ frame ∈ later.head?, bytes.length < (wire ready).length + frame.bytes.length

variable {t t' : Transport} {socket : SOCKET} {ready later : List WireFrame} {coming : Bytes}
  {net : Net} {frame : WireFrame} {opcode : Nat}

/-- As `Carries`, whatever follows the bytes that have arrived. -/
structure Brings (t : Transport) (socket : SOCKET) (peer : Peer) (ready later : List WireFrame)
    (coming : Bytes) : Prop where
  buffered : ∃ bytes, Buffered t socket peer 0 (firstLength (ready ++ later)) bytes ∧
    bytes ++ coming = wire (ready ++ later) ∧ (wire ready).length ≤ bytes.length ∧
    ∀ frame ∈ later.head?, bytes.length < (wire ready).length + frame.bytes.length

variable {peer : Peer}

theorem Carries.brings (carries : Carries t socket ready later coming) :
    Brings t socket .connected ready later coming := by
  rcases carries.raw with ⟨bytes, raw, rest⟩
  exact ⟨bytes, raw.buffered, rest⟩

theorem Brings.carries (brings : Brings t socket .connected ready later coming) :
    Carries t socket ready later coming := by
  rcases brings.buffered with ⟨bytes, buffered, rest⟩
  exact ⟨bytes, buffered.raw, rest⟩

/-- The raw data does not depend on the frames. -/
theorem Buffered.congr {index limit : Nat} {bytes : Bytes}
    (buffered : Buffered t socket peer index limit bytes) (sockets : t'.sockets = t.sockets)
    (buffer : t'.frame_buffer = t.frame_buffer)
    (position : t'.frame_buffer_index = t.frame_buffer_index) :
    Buffered t' socket peer index limit bytes := by
  refine ⟨?_, ?_, ?_, ?_, ?_, ?_, ?_⟩
  · rw [sockets]
    exact buffered.idle
  · rw [sockets]
    exact buffered.noData
  · rw [position]
    exact buffered.position
  · rw [buffer]
    exact buffered.bound
  · rw [buffer]
    exact buffered.limit
  · rw [buffer, sockets]
    exact buffered.bytes
  · rw [sockets]
    exact buffered.peer

theorem Brings.congr (brings : Brings t socket peer ready later coming)
    (sockets : t'.sockets = t.sockets) (buffer : t'.frame_buffer = t.frame_buffer)
    (position : t'.frame_buffer_index = t.frame_buffer_index) :
    Brings t' socket peer ready later coming := by
  rcases brings.buffered with ⟨bytes, buffered, rest⟩
  exact ⟨bytes, buffered.congr sockets buffer position, rest⟩

theorem Carries.congr (carries : Carries t socket ready later coming)
    (sockets : t'.sockets = t.sockets) (buffer : t'.frame_buffer = t.frame_buffer)
    (position : t'.frame_buffer_index = t.frame_buffer_index) :
    Carries t' socket ready later coming :=
  (carries.brings.congr sockets buffer position).carries

theorem Proceeds.congr (sockets : t'.sockets = t.sockets)
    (buffer : t'.frame_buffer = t.frame_buffer)
    (position : t'.frame_buffer_index = t.frame_buffer_index) : Proceeds t t' socket := by
  constructor
  · rw [sockets]
    exact id
  · unfold AtFront
    rw [sockets, buffer, position]
    exact id

theorem relink_sockets (t : Transport) (res : Option Frame) :
    (relink t res).sockets = t.sockets ∧ (relink t res).frame_buffer = t.frame_buffer ∧
      (relink t res).frame_buffer_index = t.frame_buffer_index := by
  unfold relink
  split <;> exact ⟨rfl, rfl, rfl⟩

theorem Buffered.relink {index limit : Nat} {bytes : Bytes}
    (buffered : Buffered t socket peer index limit bytes) (res : Option Frame) :
    Buffered (WebSocket.relink t res) socket peer index limit bytes := by
  rcases relink_sockets t res with ⟨sockets, buffer, position⟩
  exact buffered.congr sockets buffer position

theorem Brings.relink (brings : Brings t socket peer ready later coming) (res : Option Frame) :
    Brings (WebSocket.relink t res) socket peer ready later coming := by
  rcases relink_sockets t res with ⟨sockets, buffer, position⟩
  exact brings.congr sockets buffer position

theorem Proceeds.relink (t : Transport) (socket : SOCKET) (res : Option Frame) :
    Proceeds t (WebSocket.relink t res) socket := by
  rcases relink_sockets t res with ⟨sockets, buffer, position⟩
  exact .congr sockets buffer position

theorem relink_pongs (t : Transport) (res : Option Frame) :
    (relink t res).pongs = t.pongs := by
  unfold relink
  split <;> rfl

/-- The next frame is read, and the buffer is freed. -/
theorem Brings.readFrame (brings : Brings t socket peer (frame :: ready) later coming)
    (positive : 0 < socket) (isNet : net.socket = socket) (valid : validOpcode opcode = true) :
    ∃ t₁, WebSocket.readFrame t net opcode = .read (received frame opcode) t₁ ∧
      Advances t t₁ socket ∧
      ∀ res, ∃ t₂, (getRawSocketData (WebSocket.relink t₁ res) net 0 1).2.2 = t₂ ∧
        Advances (WebSocket.relink t₁ res) t₂ socket ∧ t₂.frame_buffer = [] ∧
        Brings t₂ socket peer ready later coming := by
  rcases brings.buffered with ⟨bytes, buffered, isBytes, isReady, next⟩
  simp only [List.cons_append, wire_cons, List.length_append] at isBytes isReady next
  have enough : frame.bytes.length ≤ bytes.length := by omega
  rcases Buffered.readFrame (buffered : Buffered t socket peer 0 frame.bytes.length bytes) positive
    isNet isBytes valid with ⟨t₁, advances, spec⟩
  rw [if_pos enough] at spec
  rcases spec with ⟨read, index, kept, buffered₁, isKept⟩
  refine ⟨t₁, read, advances, fun res => ?_⟩
  rcases (buffered₁.relink res).clear positive isNet with ⟨t₂, cleared, advances₂, buffered₂⟩
  refine ⟨t₂, by rw [cleared], advances₂,
    List.eq_nil_of_length_eq_zero (Nat.le_zero.mp buffered₂.limit),
    bytes.drop frame.bytes.length, ?_, ?_, ?_, ?_⟩
  · rw [← isKept]
    exact buffered₂.mono (Nat.zero_le _)
  · have left := congrArg (List.drop frame.bytes.length) isBytes
    rw [List.drop_append_of_le_length enough, List.drop_left] at left
    exact left
  · rw [List.length_drop]
    omega
  · intro other isNext
    have := next other isNext
    rw [List.length_drop]
    omega

/-- How many bytes have arrived of frames that are not there as a whole. -/
def begun (later : List WireFrame) (coming : Bytes) : Nat :=
  (wire later).length - coming.length

/-- The result of reading a frame that is not there as a whole, when nothing more comes. -/
def cutResult (later : List WireFrame) (coming : Bytes) (peer : Peer) : CompletionCode :=
  dryResult (if begun later coming < 2 then .interrupted else .socketError) peer

/-- A frame is not there as a whole. What there is of it is taken off the socket and kept. -/
structure Cut (t t' : Transport) (socket : SOCKET) (peer : Peer) (later : List WireFrame)
    (coming : Bytes) (rc : CompletionCode) : Prop where
  brings : Brings (rewindData t') socket peer [] later coming
  drained : (t'.sockets.kernel socket).arrived = []
  rc : rc = cutResult later coming peer ∨ (t.sockets.kernel socket).arrived ≠ [] ∧ rc = .interrupted

/-- No frame is there as a whole. -/
theorem Brings.readFrame_cut (brings : Brings t socket peer [] later coming)
    (positive : 0 < socket) (isNet : net.socket = socket) (valid : validOpcode opcode = true) :
    ∃ rc t₁, WebSocket.readFrame t net opcode = .exit rc t₁ ∧ Advances t t₁ socket ∧
      Cut t t₁ socket peer later coming rc := by
  rcases brings.buffered with ⟨bytes, buffered, isBytes, isReady, next⟩
  have isBegun : begun later coming = bytes.length := by
    have total := congrArg List.length isBytes
    rw [List.nil_append, List.length_append] at total
    unfold begun
    omega
  have rewound {t₁ : Transport} {index limit : Nat}
      (buffered₁ : Buffered t₁ socket peer index limit bytes) :
      Buffered (rewindData t₁) socket peer 0 limit bytes :=
    { buffered₁ with
      position := rfl
      bound := Nat.zero_le _ }
  have cut {rc : CompletionCode} {t₁ : Transport} {limit : Nat}
      (stops : Stops t t₁ socket peer limit bytes
        (if bytes.length < 2 then .interrupted else .socketError) rc)
      (room : t₁.frame_buffer.length ≤ firstLength ([] ++ later)) :
      Cut t t₁ socket peer later coming rc := by
    rcases stops with ⟨⟨index, kept⟩, drained, isRc⟩
    refine ⟨⟨bytes, { rewound kept with limit := room }, isBytes, isReady, next⟩, drained, ?_⟩
    unfold cutResult
    rw [isBegun]
    exact isRc
  cases later with
  | nil =>
      have none : bytes = [] := (List.append_eq_nil_iff.mp isBytes).1
      rcases (buffered.mono (Nat.zero_le 2)).readPart positive isNet Nat.two_pos (Nat.le_refl 2)
        .interrupted with ⟨t₁, advances, spec⟩
      rw [if_neg (by simp [none])] at spec
      rcases spec with ⟨rc, exits, stops⟩
      refine ⟨rc, t₁, by simp only [WebSocket.readFrame, exits], advances, @cut rc t₁ 2 ?_ ?_⟩
      · rw [if_pos (by simp [none])]
        exact stops
      · rcases stops.kept with ⟨index, kept⟩
        have empty : t₁.frame_buffer = [] := (List.append_eq_nil_iff.mp (kept.bytes.trans none)).1
        simp [empty]
  | cons frame later =>
      have few : ¬frame.bytes.length ≤ bytes.length := by
        have := next frame rfl
        simp only [wire, List.flatMap_nil, List.length_nil, Nat.zero_add] at this
        omega
      rcases Buffered.readFrame (buffered : Buffered t socket peer 0 frame.bytes.length bytes)
        positive
        isNet isBytes valid with ⟨t₁, advances, spec⟩
      rw [if_neg few] at spec
      rcases spec with ⟨rc, exits, stops⟩
      refine ⟨rc, t₁, exits, advances, cut stops ?_⟩
      rcases stops.kept with ⟨index, kept⟩
      exact kept.limit

theorem relink_of_unlinked (unlinked : t.in_frames = []) (res : Option Frame) :
    relink t res = t := by
  unfold relink
  rw [unlinked]

theorem relink_in_frames (t : Transport) (res : Option Frame) :
    (relink t res).in_frames =
      match t.in_frames with
      | [] => []
      | _ :: frames => res :: frames := by
  unfold relink
  cases frames : t.in_frames with
  | nil => exact frames
  | cons _ _ => rfl

/-- A round of the loops of `WebSocket_receiveFrame` that reads a frame. -/
theorem Brings.round (brings : Brings t socket peer (frame :: ready) later coming)
    (positive : 0 < socket) (isNet : net.socket = socket) (valid : validOpcode opcode = true)
    (res : Option Frame) (fuel : Nat) :
    let res' := appendPayload res frame.payload
    let opcode' := (received frame opcode).opcode
    ∃ t', Brings t' socket peer ready later coming ∧ Proceeds t t' socket ∧
      t'.in_frames = (WebSocket.relink t res').in_frames ∧
      t'.pongs = t.pongs ∧ t'.frame_buffer = [] ∧
      receiveFrames t net res opcode (fuel + 1) =
        if !frame.is_final then receiveFrames t' net (some res') opcode' fuel
        else if opcode' = opPing ∨ opcode' = opPong then
          let t' :=
            if opcode' = opPing ∧ net.websocket then
              { t' with pongs := (net.socket, res'.data) :: t'.pongs }
            else t'
          receiveFrames (WebSocket.relink t' none) net none opcode' fuel
        else if opcode' = opClose then
          some (.socketError, none, { net with websocket := false, websocket_key := none },
            WebSocket.relink t' none)
        else some (.complete, some res', net, t') := by
  intro res' opcode'
  rcases brings.readFrame positive isNet valid with ⟨t₁, read, advances, cleared⟩
  rcases cleared (some res') with ⟨t', isT', advances', buffer, brings'⟩
  have relinked : Proceeds t₁ (WebSocket.relink t₁ (some res')) socket := .relink t₁ socket _
  refine ⟨t', brings', (advances.toProceeds.trans relinked).trans advances'.toProceeds,
    ?_, ?_, buffer,
    ?_⟩
  · rw [advances'.same.in_frames, relink_in_frames, relink_in_frames, advances.same.in_frames]
  · rw [advances'.same.pongs, relink_pongs, advances.same.pongs]
  · rw [receiveFrames, read]
    change (if (!frame.is_final) = true then receiveFrames
      (getRawSocketData (WebSocket.relink t₁ (some res')) net 0 1).2.2 net (some res') opcode' fuel
      else _) = _
    rw [← isT']
    rfl

/-- A round that reads no frame. -/
theorem Brings.round_cut (brings : Brings t socket peer [] later coming)
    (positive : 0 < socket) (isNet : net.socket = socket) (valid : validOpcode opcode = true)
    (res : Option Frame) (fuel : Nat) :
    ∃ rc t', receiveFrames t net res opcode (fuel + 1) = some (rc, res, net, t') ∧
      Advances t t' socket ∧ Cut t t' socket peer later coming rc := by
  rcases brings.readFrame_cut positive isNet valid with ⟨rc, t', exits, advances, cut⟩
  refine ⟨rc, t', ?_, advances, cut⟩
  rw [receiveFrames, exits]

/-- A round that is interrupted. -/
theorem Carries.round_interrupted (carries : Carries t socket [] later coming)
    (positive : 0 < socket) (isNet : net.socket = socket) (valid : validOpcode opcode = true)
    (res : Option Frame) (fuel : Nat) :
    ∃ t', receiveFrames t net res opcode (fuel + 1) = some (.interrupted, res, net, t') ∧
      SameFrames t t' ∧ Carries (rewindData t') socket [] later coming := by
  rcases carries.brings.round_cut positive isNet valid res fuel with ⟨rc, t', result, advances, cut⟩
  have interrupted : rc = .interrupted := cut.rc.elim id And.right
  subst interrupted
  exact ⟨t', result, advances.same, cut.brings.carries⟩

/-- More bytes arrive, and with them more frames are there as a whole. -/
theorem Carries.arrive (carries : Carries t socket ready later coming) (n : Nat)
    (idle : t'.sockets.Idle) (queue : t'.sockets.queue socket = t.sockets.queue socket)
    (kernel : t'.sockets.kernel socket = { t.sockets.kernel socket with
      arrived := (t.sockets.kernel socket).arrived ++ coming.take n })
    (buffer : t'.frame_buffer = t.frame_buffer)
    (position : t'.frame_buffer_index = t.frame_buffer_index) :
    ∃ more later', later = more ++ later' ∧
      Carries t' socket (ready ++ more) later' (coming.drop n) := by
  rcases carries.raw with ⟨bytes, raw, isBytes, isReady, next⟩
  rcases exists_whole later (bytes.length + (coming.take n).length - (wire ready).length) with
    ⟨more, later', rfl, few, next'⟩
  refine ⟨more, later', rfl, bytes ++ coming.take n, ?_, ?_, ?_, ?_⟩
  · rw [List.append_assoc]
    refine ⟨idle, ?_, ?_, Nat.zero_le _, ?_, ?_, ?_⟩
    · rw [queue]
      exact raw.noData
    · rw [position]
      exact raw.position
    · rw [buffer]
      exact raw.limit
    · rw [buffer, kernel, ← List.append_assoc, raw.bytes]
    · rw [kernel]
      exact raw.connected
  · rw [List.append_assoc, List.take_append_drop, isBytes, List.append_assoc]
  · simp only [wire_append, List.length_append]
    omega
  · intro frame isNext
    have := next' frame isNext
    simp only [wire_append, List.length_append]
    omega

/-- What `WebSocket_receiveFrame` makes of the frames that have arrived: the result, the data that
it adds, the frames that are left and the payloads of the PONG frames. `linked` tells whether there
is an element in `in_frames`. No other case is described, neither control frames behind unread data
or a fragment nor a message that is cut off and has no element yet. -/
inductive Receives : Bool → List WireFrame → CompletionCode → Bytes → List WireFrame →
    List Bytes → Prop
  | interrupted (linked : Bool) : Receives linked [] .interrupted [] [] []
  | complete {linked : Bool} {frames rest : List WireFrame} {payload : Bytes}
      (isMessage : message frames = some (payload, rest)) (nonempty : payload ≠ []) :
      Receives linked frames .complete payload rest []
  | started {frames : List WireFrame} (data : ∀ frame ∈ frames, ¬frame.isControl = true)
      (fragments : ∀ frame ∈ frames, ¬frame.is_final = true) :
      Receives true frames .interrupted (payloads frames) [] []
  | control {frame : WireFrame} {frames rest : List WireFrame} {rc : CompletionCode}
      {payload : Bytes} {pongs : List Bytes} (final : frame.is_final = true)
      (isControl : frame.opcode = opPing ∨ frame.opcode = opPong)
      (begins : ∀ next ∈ frames.head?, next.opcode ≠ opContinue)
      (receives : Receives false frames rc payload rest pongs) :
      Receives false (frame :: frames) rc payload rest
        ((if frame.opcode = opPing then [frame.payload] else []) ++ pongs)

theorem Receives.payloads {linked : Bool} {frames rest : List WireFrame} {rc : CompletionCode}
    {payload : Bytes} {pongs : List Bytes}
    (receives : Receives linked frames rc payload rest pongs) :
    payloads frames = payload ++ WireFrame.payloads rest := by
  induction receives with
  | interrupted linked => rfl
  | complete isMessage nonempty => exact payloads_message isMessage
  | started data fragments => simp
  | @control frame frames rest rc payload pongs final isControl begins receives ih =>
      have control : frame.isControl = true := by
        rcases isControl with ping | pong
        · simp [WireFrame.isControl, ping, opClose, opPing]
        · simp [WireFrame.isControl, pong, opClose, opPong]
      rw [payloads_cons, if_pos control, ih]
      rfl

theorem Receives.nonempty {linked : Bool} {frames rest : List WireFrame} {rc : CompletionCode}
    {payload : Bytes} {pongs : List Bytes}
    (receives : Receives linked frames rc payload rest pongs) (completes : rc = .complete) :
    payload ≠ [] := by
  induction receives with
  | interrupted linked => cases completes
  | complete isMessage nonempty => exact nonempty
  | started data fragments => cases completes
  | control final isControl begins receives ih => exact ih completes

/-- A message takes frames. -/
theorem Receives.length_lt {linked : Bool} {frames rest : List WireFrame} {rc : CompletionCode}
    {payload : Bytes} {pongs : List Bytes}
    (receives : Receives linked frames rc payload rest pongs) (completes : rc = .complete) :
    rest.length < frames.length := by
  induction receives with
  | interrupted linked => cases completes
  | complete isMessage nonempty => exact length_message isMessage
  | started data fragments => cases completes
  | control final isControl begins receives ih =>
      have := ih completes
      rw [List.length_cons]
      omega

/-- Without an element there is nowhere to keep a part of a message. -/
theorem Receives.payload_of_unlinked {frames rest : List WireFrame} {rc : CompletionCode}
    {payload : Bytes} {pongs : List Bytes}
    (receives : Receives false frames rc payload rest pongs) (interrupted : rc ≠ .complete) :
    payload = [] := by
  generalize unlinked : false = linked at receives
  induction receives with
  | interrupted linked => rfl
  | complete isMessage nonempty => exact absurd rfl interrupted
  | started data fragments => cases unlinked
  | control final isControl begins receives ih => exact ih interrupted rfl

theorem appendPayload_append (res : Option Frame) (payload more : Bytes) :
    appendPayload (some (appendPayload res payload)) more =
      appendPayload res (payload ++ more) := by
  cases res with
  | none => rfl
  | some frame => simp [appendPayload]

/-- The frames of a message are put together. -/
theorem Brings.receive_message {frames : List WireFrame} {payload : Bytes}
    (brings : Brings t socket peer frames later coming) (positive : 0 < socket)
    (isNet : net.socket = socket) (isMessage : message frames = some (payload, ready))
    (valid : validOpcode opcode = true)
    (starts : opcode ≤ 2 ∨ ∀ next ∈ frames.head?, next.opcode ≠ opContinue) (res : Option Frame)
    {fuel : Nat} (enough : frames.length < fuel) :
    ∃ t', receiveFrames t net res opcode fuel = some (.complete, some (appendPayload res payload),
        net, t') ∧
      t'.in_frames = (WebSocket.relink t (some (appendPayload res payload))).in_frames ∧
      t'.pongs = t.pongs ∧ t'.frame_buffer = [] ∧ Brings t' socket peer ready later coming ∧
      Proceeds t t' socket := by
  induction frames generalizing t payload opcode res fuel with
  | nil => cases isMessage
  | cons frame frames ih =>
      rcases Nat.exists_eq_add_one.mpr (Nat.zero_lt_of_lt enough) with ⟨fuel, rfl⟩
      rcases brings.round positive isNet valid res fuel with
        ⟨t', brings', proceeds, in_frames, pongs, buffer, round⟩
      simp only [message] at isMessage
      split at isMessage
      · cases isMessage
      next data =>
        have small := opcode_le_two data
        have opcode' : (received frame opcode).opcode ≤ 2 := by
          simp only [received]
          split
          · exact small
          next continues =>
            rcases starts with isData | begins
            · exact isData
            · exact absurd (begins frame rfl) continues
        split at isMessage
        next final =>
          cases isMessage
          refine ⟨t', ?_, in_frames, pongs, buffer, brings', proceeds⟩
          rw [round, if_neg (by simp [final]), if_neg, if_neg]
          · simp only [opClose]
            omega
          · simp only [opPing, opPong]
            omega
        next fragment =>
          rcases Option.map_eq_some_iff.mp isMessage with ⟨⟨payload', rest'⟩, isRest, same⟩
          cases same
          rcases ih brings' isRest (received_validOpcode frame valid) (.inl opcode')
            (some (appendPayload res frame.payload)) (Nat.lt_of_succ_lt_succ enough) with
            ⟨t'', result, in_frames', pongs', buffer', brings'', proceeds'⟩
          rw [appendPayload_append] at result in_frames'
          refine ⟨t'', ?_, ?_, pongs'.trans pongs, buffer', brings'', proceeds.trans proceeds'⟩
          · rw [round, if_pos (by simp [fragment]), result]
          · rw [in_frames', relink_in_frames, in_frames, relink_in_frames, relink_in_frames]
            cases t.in_frames <;> rfl

/-- The fragments of a message that is cut off are kept in the element of `in_frames`. -/
theorem Carries.receive_started {frames : List WireFrame}
    (carries : Carries t socket frames later coming) (positive : 0 < socket)
    (isNet : net.socket = socket) (valid : validOpcode opcode = true)
    (fragments : ∀ frame ∈ frames, ¬frame.is_final = true)
    (data : ∀ frame ∈ frames, ¬frame.isControl = true) {res : Frame}
    (linked : t.in_frames = [some res]) {fuel : Nat} (enough : frames.length < fuel) :
    ∃ t', receiveFrames t net (some res) opcode fuel = some (.interrupted,
        some (appendPayload (some res) (payloads frames)), net, t') ∧
      t'.in_frames = [some (appendPayload (some res) (payloads frames))] ∧ t'.pongs = t.pongs ∧
      Carries (rewindData t') socket [] later coming := by
  induction frames generalizing t opcode res fuel with
  | nil =>
      rcases Nat.exists_eq_add_one.mpr enough with ⟨fuel, rfl⟩
      rcases carries.round_interrupted positive isNet valid (some res) fuel with
        ⟨t', result, same, carries'⟩
      have unchanged : appendPayload (some res) (payloads []) = res := by
        simp [appendPayload]
      rw [unchanged]
      exact ⟨t', result, same.in_frames.trans linked, same.pongs, carries'⟩
  | cons frame frames ih =>
      rcases Nat.exists_eq_add_one.mpr (Nat.zero_lt_of_lt enough) with ⟨fuel, rfl⟩
      rcases carries.brings.round positive isNet valid (some res) fuel with
        ⟨t', brings', _, in_frames, pongs, _, round⟩
      rw [relink_in_frames, linked] at in_frames
      rcases ih brings'.carries (received_validOpcode frame valid)
        (fun other mem => fragments other (List.mem_cons_of_mem _ mem))
        (fun other mem => data other (List.mem_cons_of_mem _ mem)) in_frames
        (Nat.lt_of_succ_lt_succ enough) with ⟨t'', result, in_frames', pongs', carries''⟩
      have whole : payloads (frame :: frames) = frame.payload ++ payloads frames := by
        rw [payloads_cons, if_neg (data frame List.mem_cons_self)]
      rw [appendPayload_append, ← whole] at result in_frames'
      refine ⟨t'', ?_, in_frames', pongs'.trans pongs, carries''⟩
      rw [round, if_pos (by simp [fragments frame List.mem_cons_self]), result]

/-- `in_frames` holds this data, and the position in it. -/
def Holds (t : Transport) (held : Option Bytes) (pos : Nat) : Prop :=
  match held with
  | none => t.in_frames = [] ∧ pos = 0
  | some data => t.in_frames = [some ⟨data, pos⟩] ∧ pos ≤ data.length

/-- The data that is held after a call of `WebSocket_receiveFrame`. -/
def holding (held : Option Bytes) (rc : CompletionCode) (payload : Bytes) : Option Bytes :=
  match rc with
  | .complete => some (held.getD [] ++ payload)
  | _ => held.map (· ++ payload)

/-- The PONG frames that a connection has sent, newest first. -/
def ponged (socket : SOCKET) (payloads : List Bytes) (pongs : List (SOCKET × Bytes)) :
    List (SOCKET × Bytes) :=
  (payloads.map fun payload => (socket, payload)).reverse ++ pongs

/-- `WebSocket_receiveFrame` when nothing is linked. -/
theorem Carries.receive_unlinked {frames rest : List WireFrame} {rc : CompletionCode}
    {payload : Bytes} {pongs : List Bytes} (receives : Receives false frames rc payload rest pongs)
    (carries : Carries t socket frames later coming) (positive : 0 < socket)
    (isNet : net.socket = socket) (isWebSocket : net.websocket = true)
    (valid : validOpcode opcode = true)
    (starts : opcode ≤ 2 ∨ ∀ next ∈ frames.head?, next.opcode ≠ opContinue)
    (unlinked : t.in_frames = []) {fuel : Nat} (enough : frames.length < fuel) :
    ∃ res t', receiveFrames t net none opcode fuel = some (rc, res, net, t') ∧
      t'.in_frames = [] ∧ t'.pongs = ponged socket pongs t.pongs ∧
      (rc = .complete ∧ res = some ⟨payload, 0⟩ ∧ t'.frame_buffer = [] ∧
          Carries t' socket rest later coming ∨
        rc = .interrupted ∧ payload = [] ∧ Carries (rewindData t') socket rest later coming) := by
  generalize isLinked : false = linked at receives
  induction receives generalizing t opcode fuel with
  | interrupted linked =>
      rcases Nat.exists_eq_add_one.mpr (Nat.zero_lt_of_lt enough) with ⟨fuel, rfl⟩
      rcases carries.round_interrupted positive isNet valid none fuel with
        ⟨t', result, same, carries'⟩
      exact ⟨none, t', result, same.in_frames.trans unlinked, same.pongs, .inr ⟨rfl, rfl, carries'⟩⟩
  | complete isMessage nonempty =>
      rcases carries.brings.receive_message positive isNet isMessage valid starts none enough with
        ⟨t', result, in_frames, pongs, buffer, brings', _⟩
      rw [relink_in_frames, unlinked] at in_frames
      exact ⟨_, t', result, in_frames, pongs, .inl ⟨rfl, rfl, buffer, brings'.carries⟩⟩
  | started data fragments => cases isLinked
  | @control frame frames rest rc payload pongs final isControl begins receives ih =>
      rcases Nat.exists_eq_add_one.mpr (Nat.zero_lt_of_lt enough) with ⟨fuel, rfl⟩
      rcases carries.brings.round positive isNet valid none fuel with
        ⟨t₁, brings₁, _, in_frames, same, _, round⟩
      rw [relink_in_frames, unlinked] at in_frames
      change t₁.in_frames = [] at in_frames
      have opcode' : (received frame opcode).opcode = frame.opcode := by
        rcases isControl with ping | pong
        · simp [received, ping, opPing, opContinue]
        · simp [received, pong, opPong, opContinue]
      have valid' := received_validOpcode frame valid
      rw [opcode'] at round valid'
      let t₂ : Transport :=
        { t₁ with
          pongs := ponged socket (if frame.opcode = opPing then [frame.payload] else []) t₁.pongs }
      have brings₂ : Brings t₂ socket .connected frames later coming := brings₁.congr rfl rfl rfl
      have carries₂ := brings₂.carries
      rcases ih carries₂ valid' (.inr begins) in_frames (Nat.lt_of_succ_lt_succ enough) rfl with
        ⟨res, t', result, in_frames', pongs', spec⟩
      refine ⟨res, t', ?_, in_frames', ?_, spec⟩
      · have same : WebSocket.relink (if frame.opcode = opPing ∧ net.websocket = true then
            { t₁ with pongs := (net.socket, frame.payload) :: t₁.pongs } else t₁) none = t₂ := by
          rcases isControl with ping | pong
          · rw [if_pos ⟨ping, isWebSocket⟩]
            apply (@relink_of_unlinked { t₁ with pongs := (net.socket, frame.payload) :: t₁.pongs }
              in_frames none).trans
            simp [t₂, ponged, ping, isNet]
          · have notPing : ¬frame.opcode = opPing := by
              rw [pong]
              decide
            rw [if_neg fun both => notPing both.1, relink_of_unlinked in_frames none]
            simp [t₂, ponged, notPing]
        rw [round, if_neg (by simp [final]), if_pos isControl, ← result, ← same]
        rfl
      · rw [pongs']
        simp [t₂, ponged, same]

theorem length_le_wire (frames : List WireFrame) : frames.length ≤ (wire frames).length := by
  induction frames with
  | nil => exact Nat.zero_le _
  | cons frame frames ih =>
      have := frame.two_le_length
      simp only [wire_cons, List.length_cons, List.length_append]
      omega

/-- There are enough rounds for the frames that have arrived. -/
theorem Carries.lt_rounds (carries : Carries t socket ready later coming) {net : Net}
    (isNet : net.socket = socket) : ready.length < rounds t net := by
  rcases carries.raw with ⟨bytes, raw, _, isReady, _⟩
  have few := length_le_wire ready
  have isBytes := congrArg List.length raw.bytes
  rw [List.length_append] at isBytes
  unfold rounds
  rw [isNet]
  omega

/-- `WebSocket_receiveFrame`, in the cases that are described. -/
theorem Carries.receive {held : Option Bytes} {pos : Nat} {frames rest : List WireFrame}
    {rc : CompletionCode} {payload : Bytes} {pongs : List Bytes}
    (receives : Receives held.isSome frames rc payload rest pongs)
    (carries : Carries t socket frames later coming) (positive : 0 < socket)
    (isNet : net.socket = socket) (isWebSocket : net.websocket = true) (holds : Holds t held pos) :
    ∃ t', receiveFrame t net = some (rc, net, t') ∧ Holds t' (holding held rc payload) pos ∧
      t'.pongs = ponged socket pongs t.pongs ∧ (rc = .complete → t'.frame_buffer = []) ∧
      Carries t' socket rest later coming := by
  have enough := carries.lt_rounds isNet
  cases held with
  | none =>
      rcases holds with ⟨unlinked, rfl⟩
      rcases carries.receive_unlinked receives positive isNet isWebSocket
        (show validOpcode opBinary = true from rfl) (.inl (Nat.le_refl 2)) unlinked enough with
        ⟨res, t', result, in_frames, pongs', ⟨rfl, rfl, buffer, carries'⟩ | ⟨rfl, rfl, carries'⟩⟩
      · refine ⟨{ t' with in_frames := [some ⟨payload, 0⟩] }, ?_, ⟨rfl, Nat.zero_le _⟩, pongs',
          fun _ => buffer, carries'.congr rfl rfl rfl⟩
        simp [receiveFrame, unlinked, result, in_frames]
      · refine ⟨rewindData t', ?_, ⟨in_frames, rfl⟩, pongs', nofun, carries'⟩
        simp [receiveFrame, unlinked, result]
  | some data =>
      rcases holds with ⟨linked, bound⟩
      cases receives with
      | interrupted =>
          rcases carries.receive_started positive isNet (show validOpcode opBinary = true from rfl)
            (by simp) (by simp) linked enough with ⟨t', result, in_frames, pongs', carries'⟩
          refine ⟨rewindData t', ?_, ⟨in_frames, ?_⟩, pongs', nofun, carries'⟩
          · simp [receiveFrame, linked, result]
          · rw [List.length_append]
            exact Nat.le_add_right_of_le bound
      | complete isMessage nonempty =>
          rcases carries.brings.receive_message positive isNet isMessage
            (show validOpcode opBinary = true from rfl) (.inl (Nat.le_refl 2)) (some ⟨data, pos⟩)
            enough with ⟨t', result, in_frames, pongs', buffer, brings', _⟩
          rw [relink_in_frames, linked] at in_frames
          refine ⟨t', ?_, ⟨in_frames, ?_⟩, pongs', fun _ => buffer, brings'.carries⟩
          · simp [receiveFrame, linked, result, in_frames]
          · rw [List.length_append]
            exact Nat.le_add_right_of_le bound
      | started isData fragments =>
          rcases carries.receive_started positive isNet (show validOpcode opBinary = true from rfl)
            fragments isData linked enough with ⟨t', result, in_frames, pongs', carries'⟩
          refine ⟨rewindData t', ?_, ⟨in_frames, ?_⟩, pongs', nofun, carries'⟩
          · simp [receiveFrame, linked, result]
          · rw [List.length_append]
            exact Nat.le_add_right_of_le bound

end WebSocket

end Paho
