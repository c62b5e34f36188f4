import Paho.Transport.PlainReading
import Paho.Transport.ReadySockets

/-!
# A cycle of the synchronous client

`MQTTClient_cycle`, between `Socket_getReadySocket` and the functions that handle a packet, and what
becomes of a pending write that fails.
-/

namespace Paho

/-- `connect_state`. -/
inductive ConnectState where
  | notInProgress
  | tcpInProgress
  | sslInProgress
  | websocketInProgress
  | waitForConnack
  | proxyConnectInProgress
  | disconnecting
  deriving DecidableEq, Repr

/-- The fields of a client that `MQTTClient_cycle` uses. -/
structure CycleClient where
  net : Net
  connect_state : ConnectState
  deriving DecidableEq, Repr

/-- The variables that a cycle works on. -/
structure CycleState where
  handles : List CycleClient
  t : Transport
  sockets : SocketModule

/-- What a function that handles a packet returns, and the bytes that it writes to the sockets. -/
structure Handling where
  rc : Int
  wrote : SOCKET → Nat

/-- What is called in a cycle, besides reading: `MQTTProtocol_handlePublishes` and the other
functions for the packets that are handled, `WebSocket_upgrade`, and `MQTTClient_retry` by what it
writes. -/
structure Callees (Pack : Type) where
  newPackets : NewPackets Pack
  handle : Pack → Option Handling
  upgrade : Transport → Net → Int × Transport
  retryWrote : SOCKET → Nat

namespace CycleState

variable {Pack : Type} (calls : Callees Pack)

/-- `*rc` after `MQTTPacket_Factory`, where an interrupted read is none. -/
def errorRc : CompletionCode → Int
  | .socketError => -1
  | _ => 0

/-- Other functions have written to the sockets. -/
def wrote (s : CycleState) (bytes : SOCKET → Nat) : CycleState :=
  { s with
    sockets :=
      { s.sockets with written := fun socket => s.sockets.written socket + bytes socket } }

/-- The `net` of a client has changed. -/
def setNet (s : CycleState) (client : CycleClient) (net : Net) : CycleState :=
  { s with
    handles := s.handles.map fun other => if other = client then
      { client with net := net } else other }

/-- Read a packet and handle it: `*rc`, the packet that is returned, and the state. There is no
outcome when freed memory is accessed. -/
def servePacket (s : CycleState) (client : CycleClient) :
    Option (Int × Option Pack × CycleState) :=
  (MQTTPacket.factory calls.newPackets s.t client.net).map fun (result, net, t) =>
    let s := { s with t := t }.setNet client net
    match result with
    | .none error => (errorRc error, none, s)
    | .pack pack =>
        match calls.handle pack with
        | some handling => (handling.rc, none, s.wrote handling.wrote)
        | none => (0, some pack, s)

/-- What is done with a client whose socket is ready. -/
def serve (s : CycleState) (client : CycleClient) : Option (Int × Option Pack × CycleState) :=
  match client.connect_state with
  | .tcpInProgress | .sslInProgress => some (0, none, s)
  | .websocketInProgress =>
      let (rc, t) := calls.upgrade s.t client.net
      some (rc, none, { s with t := t })
  | _ => s.servePacket calls client

/-- `MQTTClient_cycle` without TLS: `*sock`, `*rc`, the packet and the state. What
`Socket_getReadySocket` stores in `*rc` is overwritten with `rc1`, which is 0. -/
def cycle (answers : PollAnswers) (s : CycleState) :
    Option (SOCKET × Int × Option Pack × CycleState) :=
  (s.sockets.getReadySocket answers).bind fun (sock, _, sockets) =>
    let s := { s with sockets := sockets }
    let served : Option (Int × Option Pack × CycleState) :=
      if 0 < sock then
        match s.handles.find? (·.net.socket == sock) with
        | some client => s.serve calls client
        | none => some (0, none, s)
      else some (0, none, s)
    served.map fun (rc, pack, s) => (sock, rc, pack, s.wrote calls.retryWrote)

/-! ## A pending write that fails -/

/-- `Socket_continueWrites` reports an error for a socket in the call of `Socket_getReadySocket`,
and these are the variables then. -/
def ContinueFails (answers : PollAnswers) (s : CycleState) (sock : SOCKET) (after : SocketModule) :
    Prop :=
  ∃ before, s.sockets.beforeWrites answers = some before ∧ 0 < answers.writeRc ∧
    SocketModule.continueWrites answers.visits (before.write_pending.head?.map Prod.fst)
      before (0, 0) =
      some ((-1, sock), after)

/-- Nothing is read from a socket, and no PONG is sent. -/
def Unread (t t' : Transport) (sock : SOCKET) : Prop :=
  (t'.sockets.kernel sock).arrived = (t.sockets.kernel sock).arrived ∧ t'.pongs = t.pongs

/-- No byte is written to the socket or read from it between these states. A CLOSE frame would have
changed the client. -/
def Untouched (s s' : CycleState) (sock : SOCKET) : Prop :=
  s'.sockets.written sock = s.sockets.written sock ∧ s'.handles = s.handles ∧ Unread s.t s'.t sock

/-- The cycle reports the error for this socket, which is not used any more. -/
def ReportsError (answers : PollAnswers) (s : CycleState) (sock : SOCKET) (after : SocketModule) :
    Prop :=
  ∃ pack s', s.cycle calls answers = some (sock, -1, pack, s') ∧
    Untouched { s with sockets := after } s' sock

/-- `MQTTPacket_Factory` fails before it has read a byte; or it returns a packet without a byte of
the socket, and the function that handles it fails and writes nothing. -/
def PacketFails (t : Transport) (sock : SOCKET) (net : Net) : Prop :=
  ∃ result t', MQTTPacket.factory calls.newPackets t net = some (result, net, t') ∧
    Unread t t' sock ∧
    (result = .none .socketError ∨
      ∃ pack handling, result = .pack pack ∧ calls.handle pack = some handling ∧
        handling.rc = -1 ∧ handling.wrote sock = 0)

/-- A client fails once more, before a byte is read. -/
def FailsAgain (t : Transport) (sock : SOCKET) (client : CycleClient) : Prop :=
  match client.connect_state with
  | .tcpInProgress | .sslInProgress => False
  | .websocketInProgress =>
      (calls.upgrade t client.net).1 = -1 ∧ Unread t (calls.upgrade t client.net).2 sock
  | _ => PacketFails calls t sock client.net

/-! ### Plain connections -/

section Plain

variable {socket : SOCKET}

/-- What has arrived at a socket gets no longer. -/
def Shrinks (socket : SOCKET) (s s' : Sockets) : Prop :=
  (s'.kernel socket).arrived.length ≤ (s.kernel socket).arrived.length

theorem Shrinks.of_kernel {s s' : Sockets} (same : s'.kernel = s.kernel) : Shrinks socket s s' := by
  apply Nat.le_of_eq
  rw [same]

theorem recv_shrinks (s : Sockets) (n : Nat) : Shrinks socket s (Socket.recv s socket n).2 := by
  simp only [Shrinks, Socket.recv, Kernel.recv, if_true]
  split
  · exact Nat.le_refl _
  · split
    · split <;> exact Nat.le_refl _
    · simp

theorem getQueuedChar_kernel (s : Sockets) :
    (SocketBuffer.getQueuedChar s socket).2.2.kernel = s.kernel := by
  unfold SocketBuffer.getQueuedChar
  repeat' split
  all_goals rfl

theorem interrupted_kernel (s : Sockets) (buf : Bytes) :
    (SocketBuffer.interrupted s socket buf).kernel = s.kernel := by
  unfold SocketBuffer.interrupted
  split <;> rfl

theorem queueChar_kernel (s : Sockets) (c : UInt8) :
    (SocketBuffer.queueChar s socket c).kernel = s.kernel := by
  unfold SocketBuffer.queueChar
  repeat' split
  all_goals rfl

theorem receivedChar_kernel (s : Sockets) (received : Paho.Received) :
    (Socket.receivedChar socket s received).2.2.kernel = s.kernel := by
  unfold Socket.receivedChar
  split
  · apply interrupted_kernel
  · apply queueChar_kernel
  · rfl

theorem getch_shrinks (s : Sockets) : Shrinks socket s (Socket.getch s socket).2.2 := by
  have queued := @getQueuedChar_kernel socket s
  unfold Socket.getch
  split
  next s' isQueued =>
    rw [isQueued] at queued
    have read := @recv_shrinks socket s' 1
    simp only [Shrinks, receivedChar_kernel] at read ⊢
    rw [queued] at read
    exact read
  · exact .of_kernel queued

theorem getdata_shrinks (s : Sockets)
    (n : Nat) : Shrinks socket s (Socket.getdata s socket n).2.2 := by
  unfold Socket.getdata
  split
  · exact .of_kernel rfl
  · have read := @recv_shrinks socket s (n - (SocketBuffer.getQueuedData s socket).length)
    dsimp only
    split
    next result =>
      rw [result] at read
      exact read
    next result =>
      rw [result] at read
      exact read
    next result =>
      rw [result] at read
      dsimp only
      split
      · exact read
      · simp only [Shrinks, interrupted_kernel] at read ⊢
        exact read
    next result =>
      rw [result] at read
      dsimp only
      split
      · exact read
      · simp only [Shrinks, interrupted_kernel] at read ⊢
        exact read

open MQTTPacket

/-- The first byte of a packet has been read. -/
theorem decodeLoop_shrinks {left : Nat} {t t' : Transport} {multiplier value value' : Nat}
    {rc : CompletionCode} {net : Net}
    (decoded : decodeLoop (plain socket) left t multiplier value = some (rc, value', net, t')) :
    net = plain socket ∧ Shrinks socket t.sockets t'.sockets := by
  induction left generalizing t multiplier value with
  | zero =>
      cases decoded
      exact ⟨rfl, Nat.le_refl _⟩
  | succ left ih =>
      have read := @getch_shrinks socket t.sockets
      generalize result : Socket.getch t.sockets socket = queued at read
      rcases queued with ⟨rc₁, c, s⟩
      rcases Option.bind_eq_some_iff.1 decoded with ⟨outcome, got, decoded⟩
      cases (getch_plain result).symm.trans got
      cases rc₁ with
      | complete =>
          cases c with
          | none => cases decoded
          | some c =>
              by_cases more : 128 ≤ c.toNat
              · rcases ih ((if_pos more).symm.trans decoded) with ⟨same, after⟩
                exact ⟨same, Nat.le_trans after read⟩
              · cases (if_neg more).symm.trans decoded
                exact ⟨rfl, read⟩
      | interrupted | socketError =>
          cases decoded
          exact ⟨rfl, read⟩

theorem seek_sockets (t : Transport) (pos : Nat) : (WebSocket.seek t pos).sockets = t.sockets := by
  unfold WebSocket.seek
  split <;> rfl

theorem rewind_sockets {Pack : Type} {pos : Nat} {net net' : Net} {t t' : Transport}
    {result : FactoryResult Pack} (left : rewind pos net t = some (result, net', t')) :
    t'.sockets = t.sockets := by
  rcases Option.map_eq_some_iff.1 left with ⟨sought, isSought, outcome⟩
  rcases Option.map_eq_some_iff.1 isSought with ⟨_, _, rfl⟩
  cases outcome
  apply seek_sockets

theorem leave_shrinks {Pack : Type} {pos : Nat} {error : CompletionCode} {net net' : Net}
    {t t' : Transport} {result : FactoryResult Pack}
    (left : leave pos error net t = some (result, net', t')) :
    Shrinks socket t.sockets t'.sockets := by
  cases error with
  | interrupted => exact .of_kernel (congrArg Sockets.kernel (rewind_sockets left))
  | complete | socketError =>
      cases left
      exact .of_kernel rfl

theorem afterData_sockets {Pack : Type} {newPackets : NewPackets Pack} {pos n : Nat}
    {header : UInt8} {data : Option Bytes} {net net' : Net} {t t' : Transport}
    {result : FactoryResult Pack}
    (read : afterData newPackets pos header n data net t = some (result, net', t')) :
    t'.sockets = t.sockets := by
  unfold afterData at read
  split at read
  · cases read
    rfl
  · split at read
    · exact rewind_sockets read
    · cases read
      rfl

theorem afterDecode_shrinks {Pack : Type} {newPackets : NewPackets Pack} {pos n : Nat}
    {header : UInt8} {rc : CompletionCode} {net' : Net} {t t' : Transport}
    {result : FactoryResult Pack}
    (read : afterDecode newPackets pos header n (plain socket) t rc = some (result, net', t')) :
    Shrinks socket t.sockets t'.sockets := by
  cases rc with
  | complete =>
      have shrinks := @getdata_shrinks socket t.sockets n
      rcases got : Socket.getdata t.sockets socket n with ⟨rv, received, s⟩
      rw [got] at shrinks
      simp only [afterDecode, getdata_plain got, Option.bind_some] at read
      unfold Shrinks
      rw [afterData_sockets read]
      exact shrinks
  | interrupted => exact @leave_shrinks socket Pack pos .interrupted _ _ _ _ _ read
  | socketError => exact @leave_shrinks socket Pack pos .socketError _ _ _ _ _ read

/-- Behind the first byte of a packet. -/
theorem afterHeader_shrinks {Pack : Type} {newPackets : NewPackets Pack} {pos : Nat}
    {header : Option UInt8} {rc : CompletionCode} {net' : Net} {t t' : Transport}
    {result : FactoryResult Pack}
    (read : afterHeader newPackets pos header (plain socket) t rc = some (result, net', t')) :
    Shrinks socket t.sockets t'.sockets := by
  cases rc with
  | complete =>
      rcases Option.bind_eq_some_iff.1 read with ⟨header, _, read⟩
      rcases Option.bind_eq_some_iff.1 read with ⟨⟨rc, n, net, t₁⟩, decoded, read⟩
      rcases decodeLoop_shrinks decoded with ⟨rfl, shrinks⟩
      exact Nat.le_trans (afterDecode_shrinks read) shrinks
  | interrupted => exact @leave_shrinks socket Pack pos .interrupted _ _ _ _ _ read
  | socketError => exact @leave_shrinks socket Pack pos .socketError _ _ _ _ _ read

/-- A plain connection of which nothing is saved fails before a byte is read when there is nothing
to read and the peer is gone. -/
theorem packetFails_plain_iff {Pack : Type} (calls : Callees Pack) {t : Transport}
    (positive : 0 < socket) (noFrames : t.in_frames = [])
    (waiting : t.sockets.Waiting socket (t.sockets.kernel socket).arrived) :
    PacketFails calls t socket (plain socket) ↔
      (t.sockets.kernel socket).arrived = [] ∧ (t.sockets.kernel socket).peer ≠ .connected := by
  have pos : WebSocket.framePos t = some 0 := by
    simp [WebSocket.framePos, WebSocket.firstFrame, noFrames]
  have start {rc : CompletionCode} {header : Option UInt8} {s : Sockets}
      (read : Socket.getch t.sockets socket = (rc, header, s)) :
      factory calls.newPackets t (plain socket) =
        afterHeader calls.newPackets 0 header (plain socket) { t with sockets := s } rc := by
    simp [factory, pos, getch_plain read]
  cases arrived : (t.sockets.kernel socket).arrived with
  | nil =>
      rw [arrived] at waiting
      rcases waiting.reading.getch_nil positive (Nat.zero_le _) rfl with
        ⟨rc, s', read, _, _, after⟩
      have same : (s'.kernel socket).arrived = [] := by
        have shrinks := @getch_shrinks socket t.sockets
        rw [read, Shrinks, arrived] at shrinks
        exact List.length_eq_zero_iff.1 (Nat.le_zero.1 shrinks)
      split at after
      next connected =>
        have nothing := start read
        rw [after.1] at nothing
        simp [PacketFails, nothing, connected, afterHeader, leave, rewind]
      next gone =>
        refine iff_of_true ⟨.none .socketError, { t with sockets := s' }, ?_, ⟨?_, rfl⟩, .inl rfl⟩
          ⟨rfl, gone⟩
        · rw [start read, after.1]
          rfl
        · rw [arrived]
          exact same
  | cons first rest =>
      rw [arrived] at waiting
      rcases waiting.reading.getch_cons positive
        (by rintro n ⟨_, _, impossible, _⟩; cases impossible)
          (Nat.zero_le _) rfl with ⟨s', read, reading, _, _⟩
      constructor
      · rintro ⟨result, t', isResult, unread, _⟩
        rw [start read] at isResult
        have shrinks := afterHeader_shrinks isResult
        rcases reading.split with ⟨more, _, isRest⟩
        have counted := congrArg List.length isRest
        simp only [Shrinks, unread.1, arrived, List.length_cons,
          List.length_append] at shrinks counted
        omega
      · rintro ⟨impossible, _⟩
        cases impossible

end Plain

section Failures

variable {calls : Callees Pack} {answers : PollAnswers} {s : CycleState} {sock : SOCKET}
  {after : SocketModule}

theorem setNet_handles {client : CycleClient} {net : Net} (member : client ∈ s.handles) :
    (s.setNet client net).handles = s.handles ↔ net = client.net := by
  constructor
  · intro same
    have unchanged : s.handles.map _ = s.handles.map id := same.trans (List.map_id _).symm
    have atClient := List.map_inj_left.1 unchanged client member
    simpa using congrArg CycleClient.net atClient
  · rintro rfl
    have unchanged (other : CycleClient) :
        (if other = client then { client with net := client.net } else other) = other := by
      split
      next same => exact same.symm
      · rfl
    simp [setNet, unchanged]

theorem servePacket_fails_iff {client : CycleClient} (member : client ∈ s.handles) :
    (∃ pack s', s.servePacket calls client = some (-1, pack, s') ∧ Untouched s s' sock) ↔
      PacketFails calls s.t sock client.net := by
  unfold servePacket PacketFails
  cases read : MQTTPacket.factory calls.newPackets s.t client.net with
  | none => simp
  | some outcome =>
      rcases outcome with ⟨result, net, t⟩
      have sameNet := @setNet_handles { s with t := t } client net member
      cases result with
      | none error =>
          have onlyFails : errorRc error = -1 ↔ error = .socketError := by
            cases error <;> simp [errorRc]
          simp only [Option.map_some, Option.some.injEq, Prod.mk.injEq, onlyFails]
          constructor
          · rintro ⟨_, _, ⟨rfl, _, rfl⟩, _, same, unread⟩
            exact ⟨_, t, ⟨rfl, sameNet.1 same, rfl⟩, unread, .inl rfl⟩
          · rintro ⟨_, _, ⟨rfl, same, rfl⟩, unread, failed | ⟨_, _, isPack, _⟩⟩
            · injection failed with failed
              exact ⟨none, _, ⟨failed, rfl, rfl⟩, rfl, sameNet.2 same, unread⟩
            · cases isPack
      | pack pack =>
          cases handled : calls.handle pack with
          | none =>
              simp only [Option.map_some, handled]
              constructor
              · rintro ⟨_, _, ends, _⟩
                simp at ends
              · rintro ⟨_, _, outcome, _, failed | ⟨_, _, rfl, handled', _⟩⟩
                · simp [failed] at outcome
                · simp only [Option.some.injEq, Prod.mk.injEq, FactoryResult.pack.injEq] at outcome
                  simp [← outcome.1, handled] at handled'
          | some handling =>
              simp only [Option.map_some, handled, Option.some.injEq, Prod.mk.injEq]
              constructor
              · rintro ⟨_, _, ⟨failed, _, rfl⟩, written, same, unread⟩
                have nothing : handling.wrote sock = 0 := Nat.left_eq_add.1 written.symm
                exact ⟨_, t, ⟨rfl, sameNet.1 same, rfl⟩, unread,
                  .inr ⟨_, handling, rfl, handled, failed, nothing⟩⟩
              · rintro ⟨_, _, ⟨rfl, same, rfl⟩, unread, failed |
                  ⟨_, _, isPack, handled', failed, nothing⟩⟩
                · cases failed
                · injection isPack with isPack
                  subst isPack
                  injection handled'.symm.trans handled with isHandling
                  subst isHandling
                  exact ⟨none, _, ⟨failed, rfl, rfl⟩, Nat.add_eq_left.2 nothing, sameNet.2 same,
                    unread⟩

theorem written_le {client : CycleClient} {rc : Int} {pack : Option Pack} {s' : CycleState}
    (served : s.serve calls client = some (rc, pack, s')) :
    s.sockets.written sock ≤ s'.sockets.written sock := by
  unfold serve at served
  split at served
  · cases served
    exact Nat.le_refl _
  · cases served
    exact Nat.le_refl _
  · cases served
    exact Nat.le_refl _
  · rcases Option.map_eq_some_iff.1 served with ⟨⟨result, net, t⟩, _, outcome⟩
    cases result with
    | none error =>
        cases outcome
        exact Nat.le_refl _
    | pack pack =>
        dsimp only at outcome
        split at outcome
        · cases outcome
          exact Nat.le_add_right ..
        · cases outcome
          exact Nat.le_refl _

/-- What a client is served with after the error was lost. -/
theorem serve_fails_iff {client : CycleClient} (member : client ∈ s.handles) :
    (∃ pack s', s.serve calls client = some (-1, pack, s') ∧ Untouched s s' sock) ↔
      FailsAgain calls s.t sock client := by
  unfold serve FailsAgain
  cases client.connect_state with
  | tcpInProgress | sslInProgress => simp
  | websocketInProgress => simp [Untouched]
  | notInProgress | waitForConnack | proxyConnectInProgress | disconnecting =>
      exact servePacket_fails_iff member

/--
**A pending write that fails**

The error of a pending write is reported by the cycle, and no more bytes are written to the socket
or read from it, exactly when a client has this socket that fails once more before a byte is read,
and `MQTTClient_retry` has nothing to write to it.
-/
theorem reportsError_iff (fails : ContinueFails answers s sock after) (positive : 0 < sock) :
    ReportsError calls answers s sock after ↔
      calls.retryWrote sock = 0 ∧
        ∃ client, s.handles.find? (·.net.socket == sock) = some client ∧
          FailsAgain calls s.t sock client := by
  have ready : s.sockets.getReadySocket answers = some (sock, -1, after) := by
    rcases fails with ⟨before, atWrites, asked, failed⟩
    simp [SocketModule.getReadySocket, atWrites, asked, failed]
  unfold ReportsError cycle
  rw [ready]
  simp only [Option.bind_some, positive, if_true]
  cases found : s.handles.find? (·.net.socket == sock) with
  | none => simp
  | some client =>
      have lost := @serve_fails_iff Pack calls { s with sockets := after } sock client
        (List.mem_of_find?_eq_some found)
      constructor
      · rintro ⟨pack, s', reported, written, same, unread⟩
        rcases Option.map_eq_some_iff.1 reported with ⟨⟨rc, pack', s₁⟩, served, outcome⟩
        simp only [Prod.mk.injEq, true_and] at outcome
        rcases outcome with ⟨rfl, rfl, rfl⟩
        have grows := @written_le Pack calls { s with sockets := after } sock client _ _ _ served
        simp only [wrote] at written grows
        have nothing : calls.retryWrote sock = 0 := by omega
        rw [nothing] at written
        exact ⟨nothing, client, rfl, lost.1 ⟨_, _, served, written, same, unread⟩⟩
      · rintro ⟨nothing, _, same, failed⟩
        injection same with same
        subst same
        rcases lost.2 failed with ⟨pack, s₁, served, written, same, unread⟩
        refine ⟨pack, s₁.wrote calls.retryWrote, ?_, ?_, same, unread⟩
        · simp only [served, Option.map_some]
        · simpa [wrote, nothing] using written

end Failures

/-- `poll` says that a socket can be written to, but `writev` fails. -/
def brokenPipe : PollAnswers :=
  { writeRc := 1
    writeEvents := fun _ => ⟨false, true, false, false⟩
    visits := [⟨.failed, 0, none, []⟩]
    readRc := 0
    readEvents := fun _ => ⟨false, false, false, false⟩ }

/-- A client with the second half of a PINGREQ to write, and what its kernel has. -/
def halfWritten (kernel : Kernel) : CycleState :=
  { handles := [⟨MQTTPacket.plain 3, .notInProgress⟩]
    t :=
      { sockets := { kernel := fun _ => kernel, def_queue := .empty, queues := [] }
        in_frames := []
        frame_buffer := []
        frame_buffer_index := 0
        pongs := [] }
    sockets :=
      { fds := [3]
        saved := []
        readEvents := fun _ => ⟨false, false, false, false⟩
        writeEvents := fun _ => ⟨false, false, false, false⟩
        cur_fd := none
        connect_pending := []
        write_pending := [(3, ⟨1, 2, [⟨some ⟨0, 0⟩, 2⟩], [true]⟩)]
        pending_current := none
        written := fun _ => 1 } }

/-- Packets are taken as they are, handling one does nothing, and nothing is sent again. -/
def idleCallees : Callees Bytes :=
  { newPackets := fun header data => .pack (header :: data)
    handle := fun _ => some ⟨0, fun _ => 0⟩
    upgrade := fun t _ => (0, t)
    retryWrote := fun _ => 0 }

/-- `Socket_continueWrites` fails for the socket. -/
theorem halfWritten_fails (kernel : Kernel) :
    ∃ after, ContinueFails brokenPipe (halfWritten kernel) 3 after :=
  ⟨_, _, rfl, by decide, rfl⟩

/-- The connection has failed for reading as well. -/
theorem reportsError_iff_reset :
    ∃ after, ReportsError idleCallees brokenPipe (halfWritten ⟨[], .failed⟩) 3 after := by
  rcases halfWritten_fails ⟨[], .failed⟩ with ⟨after, fails⟩
  have waiting := @Sockets.waiting_of_noQueues (halfWritten ⟨[], .failed⟩).t.sockets 3 rfl rfl
    (by decide)
  have again := (packetFails_plain_iff idleCallees (by decide) rfl waiting).2 ⟨rfl, by decide⟩
  exact ⟨after, (reportsError_iff fails (by decide)).2
    ⟨rfl, ⟨MQTTPacket.plain 3, .notInProgress⟩, rfl, again⟩⟩

/-- The peer had sent a PINGRESP before it closed the connection. -/
theorem not_reportsError :
    ∃ after, ContinueFails brokenPipe (halfWritten ⟨[208, 0], .closed⟩) 3 after ∧
      ¬ReportsError idleCallees brokenPipe (halfWritten ⟨[208, 0], .closed⟩) 3 after := by
  refine ⟨_, ⟨_, rfl, by decide, rfl⟩, ?_⟩
  rintro ⟨pack, s', cycled, _⟩
  have noError : some (0 : Int) = some (-1) := by
    have outcome := congrArg (Option.map fun result => result.2.1) cycled
    exact outcome
  exact absurd noError (by decide)

end CycleState

end Paho
