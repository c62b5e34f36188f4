import Paho.Packet.Types

/-!
# Sockets and their read queues

`Socket_getch` and `Socket_getdata` of `Socket.c` over the queues of `SocketBuffer.c`. A read
that does not get all it needs leaves what it got in the queue of its socket, and the packet is
read again from its first byte later.
-/

namespace Paho

/-- A file descriptor. No socket has the number 0. -/
abbrev SOCKET := Nat

/-- What follows the bytes that have arrived at a socket. -/
inductive Peer where
  | connected
  /-- The peer has closed the connection. -/
  | closed
  /-- The connection has failed. -/
  | failed
  deriving DecidableEq, Repr

/-- A socket as the kernel has it: the bytes that have arrived and are not read. -/
structure Kernel where
  arrived : Bytes
  peer : Peer
  deriving DecidableEq, Repr

/-- The results of `recv`. -/
inductive Received where
  | data (bytes : Bytes)
  /-- `EAGAIN` or `EWOULDBLOCK`. -/
  | wouldBlock
  | closed
  | failed
  deriving DecidableEq, Repr

namespace Kernel

/-- `recv` of at most `n` bytes. -/
def recv (kernel : Kernel) (n : Nat) : Received × Kernel :=
  if n = 0 then (.closed, kernel)
  else if kernel.arrived = [] then
    match kernel.peer with
    | .connected => (.wouldBlock, kernel)
    | .closed => (.closed, kernel)
    | .failed => (.failed, kernel)
  else (.data (kernel.arrived.take n), { kernel with arrived := kernel.arrived.drop n })

end Kernel

/-- `socket_queue`: the bytes of `fixed_header` up to `headerlen`, and those of `buf` up to
`datalen`. -/
structure SocketQueue where
  socket : SOCKET
  index : Nat
  fixed_header : Bytes
  buf : Bytes
  deriving DecidableEq, Repr

/-- An empty queue. -/
def SocketQueue.empty : SocketQueue :=
  { socket := 0, index := 0, fixed_header := [], buf := [] }

/-- The sockets and the variables of `SocketBuffer.c`. -/
structure Sockets where
  kernel : SOCKET → Kernel
  def_queue : SocketQueue
  queues : List SocketQueue

namespace SocketBuffer

/-- `ListFindItem` with `socketcompare`. -/
def find (s : Sockets) (socket : SOCKET) : Option SocketQueue :=
  s.queues.find? (·.socket == socket)

/-- Change the queue that `find` finds. -/
def update (socket : SOCKET) (change : SocketQueue → SocketQueue) :
    List SocketQueue → List SocketQueue
  | [] => []
  | queue :: queues =>
      if queue.socket = socket then change queue :: queues
      else queue :: update socket change queues

/-- `SocketBuffer_cleanup`. -/
def cleanup (s : Sockets) (socket : SOCKET) : Sockets :=
  { s with
    queues := s.queues.eraseP (·.socket == socket)
    def_queue := if s.def_queue.socket = socket then .empty else s.def_queue }

/-- `SocketBuffer_getQueuedData`: the data that is queued. -/
def getQueuedData (s : Sockets) (socket : SOCKET) : Bytes :=
  match find s socket with
  | some queue => queue.buf
  | none => []

/-- `SocketBuffer_getQueuedChar`. -/
def getQueuedChar (s : Sockets) (socket : SOCKET) : CompletionCode × Option UInt8 × Sockets :=
  match find s socket with
  | some queue =>
      match queue.fixed_header[queue.index]? with
      | some c =>
          (.complete, some c,
            { s with
              queues :=
                update socket (fun queue => { queue with index := queue.index + 1 }) s.queues })
      | none => if 4 < queue.index then (.socketError, none, s) else (.interrupted, none, s)
  | none => (.interrupted, none, s)

/-- `SocketBuffer_interrupted`: keep the data that was read. -/
def interrupted (s : Sockets) (socket : SOCKET) (buf : Bytes) : Sockets :=
  match find s socket with
  | some _ =>
      { s with
        queues := update socket (fun queue => { queue with index := 0, buf := buf }) s.queues }
  | none =>
      { s with
        queues := s.queues ++ [{ s.def_queue with socket := socket, index := 0, buf := buf }]
        def_queue := .empty }

/-- `SocketBuffer_complete`. -/
def complete (s : Sockets) (socket : SOCKET) : Sockets :=
  { s with
    queues := s.queues.eraseP (·.socket == socket)
    def_queue := .empty }

/-- Append a byte to the header of a queue, unless it is full. -/
def appendChar (c : UInt8) (queue : SocketQueue) : SocketQueue :=
  if 4 < queue.index then queue
  else
    { queue with
      fixed_header := queue.fixed_header.take queue.index ++ [c]
      index := queue.index + 1 }

/-- `SocketBuffer_queueChar`. A byte for a socket other than that of the default queue is lost. -/
def queueChar (s : Sockets) (socket : SOCKET) (c : UInt8) : Sockets :=
  match find s socket with
  | some _ => { s with queues := update socket (appendChar c) s.queues }
  | none =>
      if s.def_queue.socket = 0 then
        { s with
          def_queue := appendChar c { s.def_queue with socket := socket, index := 0, buf := [] } }
      else if s.def_queue.socket ≠ socket then s
      else { s with def_queue := appendChar c s.def_queue }

end SocketBuffer

namespace Socket

/-- `recv` on a socket. -/
def recv (s : Sockets) (socket : SOCKET) (n : Nat) : Received × Sockets :=
  let (received, kernel) := (s.kernel socket).recv n
  (received, { s with kernel := fun other => if other = socket then kernel else s.kernel other })

/-- What `Socket_getch` makes of the result of `recv`. -/
def receivedChar (socket : SOCKET) (s : Sockets) :
    Received → CompletionCode × Option UInt8 × Sockets
  | .wouldBlock => (.interrupted, none, SocketBuffer.interrupted s socket [])
  | .data [c] => (.complete, some c, SocketBuffer.queueChar s socket c)
  | _ => (.socketError, none, s)

/-- `Socket_getch`. -/
def getch (s : Sockets) (socket : SOCKET) : CompletionCode × Option UInt8 × Sockets :=
  match SocketBuffer.getQueuedChar s socket with
  | (.interrupted, _, s) =>
      let (received, s) := recv s socket 1
      receivedChar socket s received
  | queued => queued

/-- `Socket_getdata`: the data that was read, `none` for `NULL`, and the result of `recv`, if it
was called. -/
def getdata (s : Sockets) (socket : SOCKET) (bytes : Nat) :
    Option Bytes × Option Received × Sockets :=
  if bytes = 0 then (some [], none, SocketBuffer.complete s socket)
  else
    let queued := SocketBuffer.getQueuedData s socket
    match recv s socket (bytes - queued.length) with
    | (.failed, s) => (none, some .failed, s)
    | (.closed, s) => (none, some .closed, s)
    | (.wouldBlock, s) =>
        (some queued, some .wouldBlock,
          if queued.length = bytes then SocketBuffer.complete s socket
          else SocketBuffer.interrupted s socket queued)
    | (.data more, s) =>
        let buf := queued ++ more
        (some buf, some (.data more),
          if buf.length = bytes then SocketBuffer.complete s socket
          else SocketBuffer.interrupted s socket buf)

/-- `Socket_close`, as far as reading is concerned. -/
def close (s : Sockets) (socket : SOCKET) : Sockets :=
  SocketBuffer.cleanup s socket

end Socket

end Paho
