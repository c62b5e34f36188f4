import Paho.Transport.PartialWrites
import Paho.Transport.Sockets

/-!
# Sockets that are ready

`Socket_getReadySocket` of the build with `poll`, and `Socket_continueWrites`, which it calls for
the packets that were written in part. What `poll` and `writev` answer is chosen by the environment.
-/

namespace Paho

open PartialWrites

/-- The flags of `revents`. -/
structure Revents where
  pollin : Bool
  pollout : Bool
  pollhup : Bool
  pollnval : Bool
  deriving DecidableEq, Repr

/-- The variables of `Socket.c`, with the lists `writes` and `write_pending` as one, and the socket
that `current` of `write_pending` is at. `fds` are the sockets of `fds_read` and of `fds_write`, and
`saved` those of the copies that were polled; `cur_fd` is `none` for -1. `written` counts the bytes
that the kernel has accepted for a socket. -/
structure SocketModule where
  fds : List SOCKET
  saved : List SOCKET
  readEvents : SOCKET → Revents
  writeEvents : SOCKET → Revents
  cur_fd : Option Nat
  connect_pending : List SOCKET
  write_pending : List (SOCKET × PendingWrite)
  pending_current : Option SOCKET
  written : SOCKET → Nat

/-- What happens at an element of `write_pending`: the answer of `writev`; when the write is
complete, the bytes that `MQTTProtocol_writeAvailable` writes to the socket, and the pending write
that it leaves; and the sockets that `MQTTProtocol_checkPendingWrites` looks for. -/
structure Visit where
  answer : Writev
  available : Nat
  interrupted : Option PendingWrite
  checked : List SOCKET

/-- What `poll` answers for `fds_write` and for `fds_read`, and what happens at the pending writes.
-/
structure PollAnswers where
  writeRc : Int
  writeEvents : SOCKET → Revents
  visits : List Visit
  readRc : Int
  readEvents : SOCKET → Revents

namespace SocketModule

variable (s : SocketModule)

/-- The kernel accepts bytes for a socket. -/
def write (socket : SOCKET) (n : Nat) : SocketModule :=
  { s with written := Function.update s.written socket (s.written socket + n) }

/-- `Socket_noPendingWrites`. `ListFindItem` leaves `current` at what it has found. -/
def noPendingWrites (socket : SOCKET) : Bool × SocketModule :=
  if (s.write_pending.find? (·.1 == socket)).isNone then (true, s)
  else (false, { s with pending_current := some socket })

/-- The socket of the element behind one of `write_pending`. -/
def nextPending (socket : SOCKET) : Option SOCKET :=
  ((s.write_pending.map Prod.fst).dropWhile fun other => other ≠ socket).tail.head?

/-- The element of a socket is removed from `write_pending`. -/
def removePending (socket : SOCKET) : SocketModule :=
  { s with
    write_pending := s.write_pending.filter fun element => element.1 ≠ socket
    pending_current := if s.pending_current = some socket then s.nextPending socket else
      s.pending_current }

/-- `isReady`. -/
def isReady (index : Nat) : Bool × SocketModule :=
  let socket := s.saved.getD index 0
  if (s.readEvents socket).pollhup || (s.readEvents socket).pollnval then (true, s)
  else if socket ∈ s.connect_pending ∧ (s.writeEvents socket).pollout = true then
    (true, { s with connect_pending := s.connect_pending.erase socket })
  else if (s.readEvents socket).pollin && (s.writeEvents socket).pollout then
    s.noPendingWrites socket
  else (false, s)

/-- The loop that advances `cur_fd` to a socket that is ready. -/
def advance : List Nat → SocketModule → SocketModule
  | [], s => { s with cur_fd := none }
  | index :: rest, s =>
      match isReady s index with
      | (true, s) => { s with cur_fd := some index }
      | (false, s) => advance rest s

/-- The indices from the current one on. -/
def indices (first : Nat) : List Nat :=
  List.range' first (s.saved.length - first)

/-- The socket at an index, and the index behind it. -/
def takeSocket (index : Nat) : SOCKET × Int × SocketModule :=
  (s.saved.getD index 0, 0,
    { s with cur_fd := if index + 1 = s.saved.length then none else some (index + 1) })

/-- How many bytes the kernel has accepted. -/
def accepted : Writev → Nat
  | .accepted n => n
  | _ => 0

/-- The callbacks, when a write is complete or has failed. -/
def callBack (visit : Visit) (socket : SOCKET) (rc : Int) : SocketModule :=
  let s :=
    if rc = -1 then s
    else
      { s.write socket visit.available with
        write_pending := s.write_pending ++ (visit.interrupted.map fun pw => (socket, pw)).toList }
  visit.checked.foldl (fun s socket => (s.noPendingWrites socket).2) s

/-- `Socket_continueWrites` from the element of a socket on. After a removal it continues from
`current`. The result is the return code, and `*sock`. There is none where `fds_write` does not have
the socket. -/
def continueWrites : List Visit → Option SOCKET → SocketModule → Int × SOCKET →
    Option ((Int × SOCKET) × SocketModule)
  | _, none, s, result => some (result, s)
  | [], some _, _, _ => none
  | visit :: visits, some socket, s, result =>
      match s.write_pending.find? (·.1 == socket) with
      | none => none
      | some (_, pw) =>
          if socket ∉ s.saved then none
          else if (s.writeEvents socket).pollout then
            let (rc, pw, _) := continueWrite pw visit.answer
            let s := s.write socket (accepted visit.answer)
            if rc = 0 then
              let pending := s.write_pending.map fun element => if element.1 = socket then
                (socket, pw) else element
              continueWrites visits (s.nextPending socket)
                { s with write_pending := pending } result
            else
              let s := s.removePending socket
              continueWrites visits s.pending_current (s.callBack visit socket rc)
                (if rc = -1 then (-1, socket) else result)
          else continueWrites visits (s.nextPending socket) s result

/-- `Socket_getReadySocket` up to its call of `Socket_continueWrites`. There is no state if it
returns before. -/
def beforeWrites (answers : PollAnswers) : Option SocketModule :=
  if s.fds = [] ∧ s.saved = [] then none
  else
    let s :=
      match s.cur_fd with
      | some index => advance (s.indices index) s
      | none => s
    if s.cur_fd.isSome ∨ s.fds = [] then none
    else some { s with saved := s.fds, writeEvents := answers.writeEvents }

/-- What `Socket_getReadySocket` returns before its call of `Socket_continueWrites`. -/
def withoutPoll : SOCKET × Int × SocketModule :=
  if s.fds = [] ∧ s.saved = [] then (0, 0, s)
  else
    let s :=
      match s.cur_fd with
      | some index => advance (s.indices index) s
      | none => s
    match s.cur_fd with
    | some index => s.takeSocket index
    | none => (0, 0, { s with saved := s.fds })

/-- `Socket_getReadySocket` after its call of `Socket_continueWrites`. -/
def afterWrites (answers : PollAnswers) : SOCKET × Int × SocketModule :=
  let s := { s with readEvents := answers.readEvents }
  if answers.readRc = -1 then (0, -1, s)
  else if answers.writeRc = 0 ∧ answers.readRc = 0 then (0, 0, s)
  else
    let s := advance (s.indices 0) s
    match s.cur_fd with
    | some index => s.takeSocket index
    | none => (0, 0, s)

/-- `Socket_getReadySocket`: the socket, `*rc` and the variables. -/
def getReadySocket (answers : PollAnswers) : Option (SOCKET × Int × SocketModule) :=
  match s.beforeWrites answers with
  | none => some s.withoutPoll
  | some s =>
      if 0 < answers.writeRc then
        (continueWrites answers.visits (s.write_pending.head?.map Prod.fst) s (0, 0)).map
          fun ((rc, sock), s) =>
          if rc = -1 then (sock, -1, s) else s.afterWrites answers
      else some (s.afterWrites answers)

end SocketModule

end Paho
