import Paho.Transport.Sockets

/-!
# Reading from a WebSocket connection

The receiving side of `WebSocket.c`: raw data from the socket through `frame_buffer`, frames,
and the data of `in_frames` byte by byte. The variables are shared by all connections of the
process, as in the source. An access to memory that was freed has no outcome.
-/

namespace Paho

/-- The fields of `networkHandles` that reading uses. -/
structure Net where
  socket : SOCKET
  websocket : Bool
  websocket_key : Option Bytes
  deriving DecidableEq, Repr

/-- `ws_frame`. -/
structure Frame where
  data : Bytes
  pos : Nat
  deriving DecidableEq, Repr

namespace Frame

/-- The data that is not read yet. -/
def unread (frame : Frame) : Bytes :=
  frame.data.drop frame.pos

end Frame

/-- The sockets and the variables of `WebSocket.c`. An element of `in_frames` that points to
freed memory is `none`. An empty `frame_buffer` is `NULL`. `pongs` records the PONG frames that
were sent, newest first. -/
structure Transport where
  sockets : Sockets
  in_frames : List (Option Frame)
  frame_buffer : Bytes
  frame_buffer_index : Nat
  pongs : List (SOCKET × Bytes)

/-- The results of operations on sockets as `int`. -/
abbrev Rc := Int

/-- `SOCKET_ERROR`. -/
def socketError : Rc := -1

/-- `*rc` after `Socket_getdata`; `EAGAIN` and `ECONNRESET` are 11 and 104. -/
def Received.rc : Received → Rc
  | .data bytes => bytes.length
  | .wouldBlock => 11
  | .closed => 0
  | .failed => 104

namespace WebSocket

/-- `WebSocket_OP_BINARY` and the other opcodes. -/
def opContinue : Nat := 0
def opBinary : Nat := 2
def opClose : Nat := 8
def opPing : Nat := 9
def opPong : Nat := 10

/-- `WebSocket_getRawSocketData`: the data at the pointer that is returned, `none` for `NULL`, and
`*rc`, whose value before the call is `rc`. -/
def getRawSocketData (t : Transport) (net : Net) (bytes : Nat) (rc : Rc) :
    Option Bytes × Rc × Transport :=
  let available := t.frame_buffer.length - t.frame_buffer_index
  if 0 < bytes ∧ bytes ≤ available then
    (some ((t.frame_buffer.drop t.frame_buffer_index).take bytes), bytes,
      { t with frame_buffer_index := t.frame_buffer_index + bytes })
  else
    match Socket.getdata t.sockets net.socket (if 0 < bytes then bytes - available else 0) with
    | (rv, received, sockets) =>
        let t := { t with sockets := sockets }
        let rc := (received.map Received.rc).getD rc
        if rc = 0 then (rv, socketError, t)
        else if bytes = 0 then (rv, rc, { t with frame_buffer := [], frame_buffer_index := 0 })
        else
          match rv with
          | none => (none, rc, t)
          | some [] => (some [], rc, t)
          | some more =>
              let index := if t.frame_buffer = [] then 0 else t.frame_buffer_index
              let buffer := t.frame_buffer ++ more
              let taken := (buffer.drop index).take bytes
              (some taken, rc,
                { t with
                  sockets := SocketBuffer.complete t.sockets net.socket
                  frame_buffer := buffer
                  frame_buffer_index := index + taken.length })

/-- `WebSocket_rewindData`. -/
def rewindData (t : Transport) : Transport :=
  { t with frame_buffer_index := 0 }

/-- What a part of a frame is read as. -/
inductive Part (α : Type) where
  | read (value : α) (t : Transport)
  /-- Leave `WebSocket_receiveFrame` with this result. -/
  | exit (rc : CompletionCode) (t : Transport)

/-- A call of `WebSocket_getRawSocketData` in `WebSocket_receiveFrame` and the tests after it;
`null` is the result when the call returns `NULL`. The result of the call before was positive. -/
def readPart (t : Transport) (net : Net) (bytes : Nat) (null : CompletionCode) : Part Bytes :=
  match getRawSocketData t net bytes 1 with
  | (rv, rc, t) =>
      if rc = socketError then .exit .socketError t
      else
        match rv with
        | none => .exit null t
        | some b => if b.length < bytes then .exit .interrupted t else .read b t

/-- A number of several bytes, the most significant first. -/
def bigEndian (bytes : Bytes) : Nat :=
  bytes.foldl (fun value byte => 256 * value + byte.toNat) 0

/-- Whether `WebSocket_receiveFrame` accepts an opcode. -/
def validOpcode (opcode : Nat) : Bool :=
  opcode ≤ opPong && !(opBinary < opcode && opcode < opClose)

/-- The length of the payload, from the lower bits of the second byte of a frame. -/
def readLength (t : Transport) (net : Net) (length : Nat) : Part Nat :=
  if length = 126 then
    match readPart t net 2 .socketError with
    | .exit rc t => .exit rc t
    | .read b t => .read (bigEndian b) t
  else if length = 127 then
    match readPart t net 8 .socketError with
    | .exit rc t => .exit rc t
    | .read b t => .read (bigEndian b) t
  else .read length t

/-- The masking key of a frame. It is read into a variable of an inner block, so that the payload
is unmasked with zeros, that is, left as it is. -/
def readMask (t : Transport) (net : Net) (has_mask : Bool) : Part Unit :=
  if has_mask then
    match readPart t net 4 .socketError with
    | .exit rc t => .exit rc t
    | .read _ t => .read () t
  else .read () t

/-- A frame as it is received. -/
structure Received where
  is_final : Bool
  opcode : Nat
  payload : Bytes
  deriving DecidableEq, Repr

/-- The body of the loop of `WebSocket_receiveFrame` up to the unmasking of the payload. `opcode`
is that of the frame before. -/
def readFrame (t : Transport) (net : Net) (opcode : Nat) : Part Received :=
  match readPart t net 2 .interrupted with
  | .exit rc t => .exit rc t
  | .read b t =>
      let first := (b.headD 0).toNat
      let second := (b.getD 1 0).toNat
      let tmp_opcode := first % 16
      let opcode := if tmp_opcode ≠ opContinue then tmp_opcode else opcode
      if !validOpcode opcode then .exit .socketError t
      else
        match readLength t net (second % 128) with
        | .exit rc t => .exit rc t
        | .read payload_len t =>
            match readMask t net (decide (128 ≤ second)) with
            | .exit rc t => .exit rc t
            | .read _ t =>
                match readPart t net payload_len .socketError with
                | .exit rc t => .exit rc t
                | .read payload t => .read ⟨decide (128 ≤ first), opcode, payload⟩ t

/-- Link the frame in progress into `in_frames`, if there is an element there. -/
def relink (t : Transport) (res : Option Frame) : Transport :=
  match t.in_frames with
  | [] => t
  | _ :: frames => { t with in_frames := res :: frames }

/-- Add the payload of a frame to the frame in progress. -/
def appendPayload (res : Option Frame) (payload : Bytes) : Frame :=
  match res with
  | none => { data := payload, pos := 0 }
  | some frame => { frame with data := frame.data ++ payload }

/-- The loops of `WebSocket_receiveFrame`. `res` is the frame in progress. A round of the loops
reads a frame; that the rounds come to an end is `receiveFrames_returns`. -/
def receiveFrames (t : Transport) (net : Net) (res : Option Frame) (opcode : Nat) :
    Nat → Option (CompletionCode × Option Frame × Net × Transport)
  | 0 => none
  | fuel + 1 =>
      match readFrame t net opcode with
      | .exit rc t => some (rc, res, net, t)
      | .read frame t =>
          let res := appendPayload res frame.payload
          let t := (getRawSocketData (relink t (some res)) net 0 1).2.2
          if !frame.is_final then receiveFrames t net (some res) frame.opcode fuel
          else if frame.opcode = opPing ∨ frame.opcode = opPong then
            let t :=
              if frame.opcode = opPing ∧ net.websocket then
                { t with pongs := (net.socket, res.data) :: t.pongs }
              else t
            receiveFrames (relink t none) net none frame.opcode fuel
          else if frame.opcode = opClose then
            some (.socketError, none, { net with websocket := false, websocket_key := none },
              relink t none)
          else some (.complete, some res, net, t)

/-- Rounds that are enough for what has arrived: each takes at least two bytes. -/
def rounds (t : Transport) (net : Net) : Nat :=
  t.frame_buffer.length + (t.sockets.kernel net.socket).arrived.length + 1

/-- `WebSocket_receiveFrame`. The result is `none` when freed memory is accessed. -/
def receiveFrame (t : Transport) (net : Net) : Option (CompletionCode × Net × Transport) :=
  let received (res : Option Frame) :=
    (receiveFrames t net res opBinary (rounds t net)).map fun result =>
      match result with
      | (.complete, res, net, t) =>
          (.complete, net, if t.in_frames = [] then { t with in_frames := [res] } else t)
      | (.interrupted, _, net, t) => (.interrupted, net, rewindData t)
      | (.socketError, _, net, t) => (.socketError, net, t)
  match t.in_frames with
  | [] => received none
  | some frame :: _ => received (some frame)
  | none :: _ => none

/-- The first element of `in_frames`; the outer `none` stands for an access to freed memory. -/
def firstFrame (t : Transport) : Option (Option Frame) :=
  match t.in_frames with
  | [] => some none
  | some frame :: _ => some (some frame)
  | none :: _ => none

/-- Change the position of the first element of `in_frames`. -/
def seek (t : Transport) (pos : Nat) : Transport :=
  match t.in_frames with
  | some frame :: frames => { t with in_frames := some { frame with pos := pos } :: frames }
  | _ => t

/-- What `WebSocket_getch` stores and returns when it has a frame. -/
def takeChar (t : Transport) (net : Net) (frame : Option Frame) (rc : CompletionCode) :
    CompletionCode × Option UInt8 × Net × Transport :=
  match frame.bind fun frame => frame.data[frame.pos]?.map fun c => (c, frame.pos) with
  | some (c, pos) => (.complete, some c, net, seek t (pos + 1))
  | none => (rc, none, net, t)

/-- `WebSocket_getch`: the result, the byte that was stored, if any, and the new state. -/
def getch (t : Transport) (net : Net) :
    Option (CompletionCode × Option UInt8 × Net × Transport) :=
  if net.websocket then
    (firstFrame t).bind fun frame =>
      if frame.all fun frame => frame.data.length = frame.pos then
        (receiveFrame t net).bind fun result =>
          match result with
          | (.complete, net, t) =>
              (firstFrame t).map fun frame => takeChar t net frame .complete
          | (rc, net, t) => some (rc, none, net, t)
      else some (takeChar t net frame .socketError)
  else
    match Socket.getch t.sockets net.socket with
    | (rc, c, sockets) => some (rc, c, net, { t with sockets := sockets })

/-- The loop of `WebSocket_getdata`: receive frames until enough data is there. -/
def gather (t : Transport) (net : Net) (bytes : Nat) (frame : Frame) :
    Nat → Option (Bytes × Net × Transport)
  | 0 => none
  | fuel + 1 =>
      if frame.unread.length < bytes then
        (receiveFrame t net).bind fun result =>
          match result with
          | (.complete, net, t) =>
              (firstFrame t).bind fun next =>
                next.bind fun next => gather t net bytes next fuel
          | (_, net, t) => some (frame.unread, net, t)
      else if bytes < frame.unread.length then
        some (frame.unread, net, seek t (frame.pos + bytes))
      else some (frame.unread, net, { t with in_frames := t.in_frames.tail })

/-- `WebSocket_getdata`: the data at the pointer that is returned, `none` for `NULL`. -/
def getdata (t : Transport) (net : Net) (bytes : Nat) :
    Option (Option Bytes × Net × Transport) :=
  if net.websocket then
    (firstFrame t).bind fun frame =>
      if bytes = 0 then
        match frame with
        | some frame =>
            if frame.pos = frame.data.length then
              some (some [], net, { t with in_frames := t.in_frames.tail })
            else some (none, net, t)
        | none => some (none, net, t)
      else
        match frame with
        | some frame =>
            (gather t net bytes frame (rounds t net)).map fun (data, net, t) => (some data, net, t)
        | none =>
            (receiveFrame t net).bind fun result =>
              match result with
              | (.complete, net, t) =>
                  (firstFrame t).bind fun frame =>
                    match frame with
                    | some frame =>
                        (gather t net bytes frame (rounds t net)).map fun (data, net, t) =>
                          (some data, net, t)
                    | none => some (none, net, t)
              | (_, net, t) => some (none, net, t)
  else
    match Socket.getdata t.sockets net.socket bytes with
    | (rv, _, sockets) => some (rv, net, { t with sockets := sockets })

/-- `WebSocket_framePos`. -/
def framePos (t : Transport) : Option Nat :=
  (firstFrame t).map fun frame => (frame.map Frame.pos).getD 0

/-- `WebSocket_framePosSeekTo`. -/
def framePosSeekTo (t : Transport) (pos : Nat) : Option Transport :=
  (firstFrame t).map fun _ => seek t pos

end WebSocket

end Paho
