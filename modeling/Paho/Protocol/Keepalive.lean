import Paho.Library.Run
import Paho.Protocol.Send
import Mathlib.Tactic.NormNum

/-!
# Keepalive

`MQTTProtocol_keepalive` sends PINGREQ on a quiet connection and closes one whose server does
not answer. A PINGREQ that a pending write holds up is noted as due, and the note outlives the
pending write: once something has been received after it, the connection is neither pinged nor
closed any more.
-/

namespace Paho

/-- `MQTTTime_difftime`: milliseconds between two times in microseconds. -/
def MQTTTime.difftime (new old : Int) : Int :=
  (new - old) / 1000

/-- The value of an expression of type `int` that may overflow. -/
def int32 (value : Int) : Int :=
  value.bmod (2 ^ 32)

/-- What happened on a connection, for stating properties of runs. -/
inductive KeepaliveEvent where
  | connected
  | pingreq (time : Int)
  /-- A packet, or a part of one, was received. -/
  | received
  | closed
  deriving DecidableEq, Repr

/-- The fields of `Clients` and `networkHandles` that keepalive depends on. -/
structure KeepaliveClient where
  connected : Bool
  keepAliveInterval : Int
  pingOutstanding : Bool
  pingDue : Bool
  pingDueTime : Int
  lastSent : Int
  lastReceived : Int
  lastPing : Int
  net : NetworkHandles
  history : List KeepaliveEvent
  deriving DecidableEq

namespace KeepaliveClient

/-- A client as it is created. -/
def create : KeepaliveClient :=
  { connected := false
    keepAliveInterval := 0
    pingOutstanding := false
    pingDue := false
    pingDueTime := 0
    lastSent := 0
    lastReceived := 0
    lastPing := 0
    net := { pendingWrites := false, writes := [] }
    history := [] }

/-- `MQTTProtocol_closeSession`. -/
def closeSession (client : KeepaliveClient) : KeepaliveClient :=
  { client with
    connected := false
    pingOutstanding := false
    pingDue := false
    net := { client.net with pendingWrites := false }
    history := .closed :: client.history }

/-- `MQTTPacket_send`. -/
def send (client : KeepaliveClient) (now : Int) : CompletionCode × KeepaliveClient :=
  let result := Socket.putdatas client.net
  (result.1,
    { client with
      net := result.2
      lastSent := if result.1 = .complete then now else client.lastSent })

/-- The parts of `MQTTProtocol_keepalive` that send a PINGREQ. -/
def sendPingreq (client : KeepaliveClient) (now : Int) : KeepaliveClient :=
  match client.send now with
  | (.complete, client) =>
      { client with
        pingDue := false
        lastPing := now
        pingOutstanding := true
        history := .pingreq now :: client.history }
  | (_, client) => client.closeSession

/-- The loop body of `MQTTProtocol_keepalive`. -/
def keepalive (client : KeepaliveClient) (now : Int) : KeepaliveClient :=
  let limit := int32 (client.keepAliveInterval * 1500)
  let interval := int32 (client.keepAliveInterval * 1000)
  if !client.connected ∨ client.keepAliveInterval = 0 then client
  else if client.pingOutstanding then
    if limit ≤ MQTTTime.difftime now client.lastPing ∧
        limit ≤ MQTTTime.difftime now client.lastReceived then client.closeSession
    else client
  else if client.pingDue ∧ limit ≤ MQTTTime.difftime now client.pingDueTime then
    -- the note is taken for a ping that the server has had time to answer
    if MQTTTime.difftime now client.pingDueTime ≤ MQTTTime.difftime now client.lastReceived then
      client.closeSession
    else client
  else if interval ≤ MQTTTime.difftime now client.lastSent then
    if Socket.noPendingWrites client.net then client.sendPingreq now
    else if !client.pingDue then { client with pingDue := true, pingDueTime := now }
    else client
  else if interval ≤ MQTTTime.difftime now client.lastReceived then
    if Socket.noPendingWrites client.net then client.sendPingreq now else client
  else client

/-- A connection is made: CONNECT was sent and CONNACK received. -/
def connect (client : KeepaliveClient) (keepAliveInterval now : Int) : KeepaliveClient :=
  if client.connected then client
  else
    { client with
      connected := true
      keepAliveInterval := keepAliveInterval
      lastSent := now
      lastReceived := now
      net := { client.net with pendingWrites := false }
      history := .connected :: client.history }

/-- `MQTTAsync_writeContinue`, and `MQTTAsync_writeComplete` when the write is finished. -/
def writeContinue (client : KeepaliveClient) (finished : Bool) (now : Int) : KeepaliveClient :=
  if client.net.pendingWrites then
    { client with
      lastSent := now
      net := { client.net with pendingWrites := !finished } }
  else client

/-- `MQTTPacket_Factory` with a packet or a part of one, and `MQTTProtocol_handlePingresps`. -/
def receive (client : KeepaliveClient) (pingresp : Bool) (now : Int) : KeepaliveClient :=
  if client.connected then
    { client with
      lastReceived := now
      pingOutstanding := client.pingOutstanding && !pingresp
      history := .received :: client.history }
  else client

/-- The ping that was due is forgotten: the note is old, and something was received after it. -/
def ForgetsPing (client : KeepaliveClient) (now : Int) : Prop :=
  client.pingDue = true ∧
    int32 (client.keepAliveInterval * 1500) ≤ MQTTTime.difftime now client.pingDueTime ∧
    MQTTTime.difftime now client.lastReceived < MQTTTime.difftime now client.pingDueTime

instance (client : KeepaliveClient) (now : Int) : Decidable (client.ForgetsPing now) :=
  inferInstanceAs (Decidable (_ ∧ _ ∧ _))

end KeepaliveClient

/-- `MQTTProtocol_keepalive`. -/
def MQTTProtocol.keepalive (now : Int) (clients : List KeepaliveClient) : List KeepaliveClient :=
  clients.map (·.keepalive now)

namespace Keepalive

/-- The clients of a process, and the clock. -/
structure ClientStates where
  clock : Int
  clients : List KeepaliveClient
  deriving DecidableEq

inductive Action where
  | create
  | connect (client : Nat) (keepAliveInterval : Int)
  /-- The results of the next socket writes of a client are settled. -/
  | socket (client : Nat) (writes : List CompletionCode)
  | send (client : Nat)
  | writeContinue (client : Nat) (finished : Bool)
  | receive (client : Nat) (pingresp : Bool)
  | close (client : Nat)
  | keepalive
  deriving DecidableEq, Repr

/-- An action, and the microseconds since the one before. -/
structure Input where
  action : Action
  elapsed : Nat := 0
  deriving DecidableEq, Repr

open KeepaliveClient

/-- One step of the process. -/
def step (s : ClientStates) (input : Input) : ClientStates :=
  let now := s.clock + input.elapsed
  { clock := now
    clients :=
      match input.action with
      | .create => s.clients ++ [KeepaliveClient.create]
      | .connect i keepAliveInterval => s.clients.modify i (·.connect keepAliveInterval now)
      | .socket i writes =>
          s.clients.modify i fun client =>
            { client with net := { client.net with writes := writes } }
      | .send i =>
          s.clients.modify i fun client =>
            if client.connected then (client.send now).2 else client
      | .writeContinue i finished => s.clients.modify i (·.writeContinue finished now)
      | .receive i pingresp => s.clients.modify i (·.receive pingresp now)
      | .close i => s.clients.modify i fun client =>
          if client.connected then client.closeSession else client
      | .keepalive => MQTTProtocol.keepalive now s.clients }

/-- The process before a client is created. -/
def start : ClientStates :=
  { clock := 0, clients := [] }

end Keepalive

theorem int32_le {value : Int} (nonneg : 0 ≤ value) : int32 value ≤ value := by
  have modulus : ((2 ^ 32 : Nat) : Int) = 4294967296 := by norm_num
  unfold int32 Int.bmod
  rw [modulus]
  dsimp only
  split <;> omega

/-- A number of whole milliseconds has passed. -/
theorem le_difftime {now old limit : Int} (passed : limit * 1000 ≤ now - old) :
    limit ≤ MQTTTime.difftime now old := by
  unfold MQTTTime.difftime
  omega

theorem difftime_mono {now old older : Int} (later : older ≤ old) :
    MQTTTime.difftime now old ≤ MQTTTime.difftime now older := by
  unfold MQTTTime.difftime
  omega

namespace KeepaliveClient

variable {client : KeepaliveClient} {now clock : Int}

/-- The client is closed, or has just sent a PINGREQ. -/
def PingsOrCloses (client after : KeepaliveClient) (now : Int) : Prop :=
  after.connected = false ∨ after.history = .pingreq now :: client.history

theorem send_history (client : KeepaliveClient) (now : Int) :
    (client.send now).2.history = client.history :=
  rfl

theorem pingsOrCloses_sendPingreq (client : KeepaliveClient) (now : Int) :
    PingsOrCloses client (client.sendPingreq now) now := by
  have history := send_history client now
  unfold sendPingreq
  rcases result : client.send now with ⟨rc, after⟩
  rw [result] at history
  cases rc with
  | complete =>
      right
      exact congrArg (KeepaliveEvent.pingreq now :: ·) history
  | interrupted => exact .inl rfl
  | socketError => exact .inl rfl

/-- With no ping outstanding, no pending write and nothing sent for the keepalive interval, a
PINGREQ is sent or the session is closed, unless a ping that was due is forgotten. -/
theorem pingsOrCloses_iff (connected : client.connected = true)
    (positive : 0 < client.keepAliveInterval) (none : client.pingOutstanding = false)
    (idle : Socket.noPendingWrites client.net = true)
    (quiet : client.keepAliveInterval * 1000000 ≤ now - client.lastSent) :
    PingsOrCloses client (client.keepalive now) now ↔ ¬client.ForgetsPing now := by
  have interval : int32 (client.keepAliveInterval * 1000) ≤
      MQTTTime.difftime now client.lastSent := by
    calc int32 (client.keepAliveInterval * 1000)
        ≤ client.keepAliveInterval * 1000 := int32_le (by omega)
      _ ≤ MQTTTime.difftime now client.lastSent := le_difftime (by omega)
  have enters : ¬((!client.connected) = true ∨ client.keepAliveInterval = 0) := by
    rw [connected]
    simp only [Bool.not_true, Bool.false_eq_true, false_or]
    omega
  unfold keepalive
  dsimp only
  rw [if_neg enters, none, if_neg Bool.false_ne_true]
  split
  next due =>
    split
    next received =>
      constructor
      · intro _ forgets
        have later := forgets.2.2
        omega
      · intro _
        exact .inl rfl
    next received =>
      constructor
      · intro pings
        rcases pings with closed | sent
        · rw [connected] at closed
          cases closed
        · exact absurd sent.symm (List.cons_ne_self _ _)
      · intro remembers
        exact absurd ⟨due.1, due.2, Int.not_le.mp received⟩ remembers
  next notDue =>
    constructor
    · intro _ forgets
      exact notDue ⟨forgets.1, forgets.2.1⟩
    · intro _
      exact pingsOrCloses_sendPingreq client now

/-- What was received and pinged, seen from the clock. When the last event is a PINGREQ, it is
outstanding and nothing was received after it. -/
structure InTime (client : KeepaliveClient) (clock : Int) : Prop where
  received : client.lastReceived ≤ clock
  pinged : ∀ time older, client.history = .pingreq time :: older →
    client.pingOutstanding = true ∧ client.lastPing = time ∧ client.lastReceived ≤ time

theorem InTime.later (inTime : client.InTime clock) (elapsed : Nat) :
    client.InTime (clock + elapsed) := by
  refine ⟨?_, inTime.pinged⟩
  have received := inTime.received
  omega

/-- A change that leaves the pings and what was received as they are. -/
theorem InTime.of_same {after : KeepaliveClient} (inTime : client.InTime clock)
    (received : after.lastReceived = client.lastReceived)
    (history : after.history = client.history)
    (outstanding : after.pingOutstanding = client.pingOutstanding)
    (lastPing : after.lastPing = client.lastPing) : after.InTime clock := by
  constructor
  · rw [received]
    exact inTime.received
  · intro time older isPing
    rw [history] at isPing
    rw [outstanding, lastPing, received]
    exact inTime.pinged time older isPing

theorem inTime_create (nonneg : 0 ≤ clock) : create.InTime clock := by
  refine ⟨nonneg, ?_⟩
  intro time older isPing
  cases isPing

theorem InTime.send (inTime : client.InTime clock) (now : Int) :
    (client.send now).2.InTime clock :=
  inTime.of_same rfl rfl rfl rfl

theorem InTime.closeSession (inTime : client.InTime clock) : client.closeSession.InTime clock := by
  refine ⟨inTime.received, ?_⟩
  intro time older isPing
  cases isPing

theorem InTime.sendPingreq (inTime : client.InTime clock) :
    (client.sendPingreq clock).InTime clock := by
  have sent := inTime.send clock
  unfold KeepaliveClient.sendPingreq
  rcases result : client.send clock with ⟨rc, after⟩
  rw [result] at sent
  cases rc with
  | complete =>
      refine ⟨sent.received, ?_⟩
      intro time older isPing
      cases isPing
      exact ⟨rfl, rfl, sent.received⟩
  | interrupted => exact sent.closeSession
  | socketError => exact sent.closeSession

theorem InTime.keepalive (inTime : client.InTime clock) :
    (client.keepalive clock).InTime clock := by
  unfold KeepaliveClient.keepalive
  dsimp only
  split
  · exact inTime
  · split
    · split
      · exact inTime.closeSession
      · exact inTime
    · split
      · split
        · exact inTime.closeSession
        · exact inTime
      · split
        · split
          · exact inTime.sendPingreq
          · split
            · exact inTime.of_same rfl rfl rfl rfl
            · exact inTime
        · split
          · split
            · exact inTime.sendPingreq
            · exact inTime
          · exact inTime

theorem InTime.connect (inTime : client.InTime clock) (keepAliveInterval : Int) :
    (client.connect keepAliveInterval clock).InTime clock := by
  unfold KeepaliveClient.connect
  split
  · exact inTime
  · refine ⟨Int.le_refl clock, ?_⟩
    intro time older isPing
    cases isPing

theorem InTime.writeContinue (inTime : client.InTime clock) (finished : Bool) :
    (client.writeContinue finished clock).InTime clock := by
  unfold KeepaliveClient.writeContinue
  split
  · exact inTime.of_same rfl rfl rfl rfl
  · exact inTime

theorem InTime.receive (inTime : client.InTime clock) (pingresp : Bool) :
    (client.receive pingresp clock).InTime clock := by
  unfold KeepaliveClient.receive
  split
  · refine ⟨Int.le_refl clock, ?_⟩
    intro time older isPing
    cases isPing
  · exact inTime

/-- A PINGREQ that nothing followed for one and a half keepalive intervals closes the session. -/
theorem closes_of_unanswered (inTime : client.InTime clock) (connected : client.connected = true)
    (positive : 0 < client.keepAliveInterval) {time : Int} {older : List KeepaliveEvent}
    (unanswered : client.history = .pingreq time :: older)
    (overdue : client.keepAliveInterval * 1500000 ≤ now - time) :
    (client.keepalive now).connected = false := by
  rcases inTime.pinged time older unanswered with ⟨outstanding, lastPing, received⟩
  have passed : client.keepAliveInterval * 1500 * 1000 ≤ now - client.lastPing := by
    rw [lastPing]
    omega
  have limit : int32 (client.keepAliveInterval * 1500) ≤
      MQTTTime.difftime now client.lastPing := by
    calc int32 (client.keepAliveInterval * 1500)
        ≤ client.keepAliveInterval * 1500 := int32_le (by omega)
      _ ≤ MQTTTime.difftime now client.lastPing := le_difftime passed
  have silent : MQTTTime.difftime now client.lastPing ≤
      MQTTTime.difftime now client.lastReceived := by
    rw [lastPing]
    exact difftime_mono received
  have enters : ¬((!client.connected) = true ∨ client.keepAliveInterval = 0) := by
    rw [connected]
    simp only [Bool.not_true, Bool.false_eq_true, false_or]
    omega
  unfold keepalive
  dsimp only
  rw [if_neg enters, if_pos outstanding, if_pos ⟨limit, Int.le_trans limit silent⟩]
  rfl

end KeepaliveClient

namespace Keepalive

open KeepaliveClient

/-- Every client is in time, and the clock does not run backwards. -/
def InTime (s : ClientStates) : Prop :=
  0 ≤ s.clock ∧ ∀ client ∈ s.clients, client.InTime s.clock

theorem inTime_start : InTime start := by
  refine ⟨Int.le_refl 0, ?_⟩
  intro client mem
  cases mem

/-- What is done to one client keeps all of them in time. -/
theorem inTime_modify {clients : List KeepaliveClient} {now : Int}
    (inTime : ∀ client ∈ clients, client.InTime now) (i : Nat)
    {change : KeepaliveClient → KeepaliveClient}
    (keeps : ∀ client : KeepaliveClient, client.InTime now → (change client).InTime now) :
    ∀ client ∈ clients.modify i change, client.InTime now := by
  intro client mem
  rcases List.mem_iff_getElem?.mp mem with ⟨j, found⟩
  rw [List.getElem?_modify] at found
  rcases Option.map_eq_some_iff.mp found with ⟨old, isOld, same⟩
  have oldInTime := inTime old (List.mem_of_getElem? isOld)
  split at same
  · rw [← same]
    exact keeps old oldInTime
  · rw [← same]
    exact oldInTime

theorem inTime_step {s : ClientStates} (inTime : InTime s) (input : Input) :
    InTime (step s input) := by
  rcases inTime with ⟨clock, clients⟩
  have forward : 0 ≤ s.clock + input.elapsed := by omega
  have later : ∀ client ∈ s.clients, client.InTime (s.clock + input.elapsed) :=
    fun client mem => (clients client mem).later input.elapsed
  refine ⟨forward, ?_⟩
  change ∀ client ∈ (step s input).clients, client.InTime (s.clock + input.elapsed)
  unfold step
  dsimp only
  split
  · intro client mem
    rcases List.mem_append.mp mem with old | new
    · exact later client old
    · rw [List.mem_singleton.mp new]
      exact inTime_create forward
  · exact inTime_modify later _ fun client inTime => inTime.connect _
  · exact inTime_modify later _ fun client inTime => inTime.of_same rfl rfl rfl rfl
  · apply inTime_modify later
    intro client inTime
    split
    · exact inTime.send _
    · exact inTime
  · exact inTime_modify later _ fun client inTime => inTime.writeContinue _
  · exact inTime_modify later _ fun client inTime => inTime.receive _
  · apply inTime_modify later
    intro client inTime
    split
    · exact inTime.closeSession
    · exact inTime
  · intro client mem
    rcases List.mem_map.mp mem with ⟨old, oldMem, rfl⟩
    exact (later old oldMem).keepalive

theorem inTime_run (inputs : List Input) : InTime (Machine.run step start inputs) :=
  @Machine.invariant_of_run _ _ step InTime (fun _ input inTime => inTime_step inTime input) _
    inTime_start inputs

/-- A quiet connection without pending writes is pinged or closed, unless a ping that was due is
forgotten, and one whose PINGREQ stays without any answer is closed. -/
theorem keepalive_never_stalls (inputs : List Input) (elapsed i : Nat) (client : KeepaliveClient)
    (found : (Machine.run step start inputs).clients[i]? = some client)
    (connected : client.connected = true) (positive : 0 < client.keepAliveInterval) :
    let now := (Machine.run step start inputs).clock + elapsed
    ∃ after,
      (MQTTProtocol.keepalive now (Machine.run step start inputs).clients)[i]? = some after ∧
      (client.pingOutstanding = false → Socket.noPendingWrites client.net = true →
        client.keepAliveInterval * 1000000 ≤ now - client.lastSent →
          (PingsOrCloses client after now ↔ ¬client.ForgetsPing now)) ∧
      ∀ time older, client.history = .pingreq time :: older →
        client.keepAliveInterval * 1500000 ≤ now - time → after.connected = false := by
  intro now
  have inTime := (inTime_run inputs).2 client (List.mem_of_getElem? found)
  refine ⟨client.keepalive now, ?_, ?_, ?_⟩
  · unfold MQTTProtocol.keepalive
    rw [List.getElem?_map, found]
    rfl
  · intro none idle quiet
    exact pingsOrCloses_iff connected positive none idle quiet
  · intro time older unanswered overdue
    exact closes_of_unanswered inTime connected positive unanswered overdue

/-- A PINGREQ is due while a write is pending; the write is finished and acknowledged. -/
def blockedPing : List Input :=
  [{ action := .create }, { action := .connect 0 10 },
    { action := .socket 0 [.interrupted], elapsed := 9000000 }, { action := .send 0 },
    { action := .keepalive, elapsed := 1000000 },
    { action := .writeContinue 0 true, elapsed := 1000000 },
    { action := .receive 0 false, elapsed := 1000000 }]

/-- Fifteen seconds after the write, the connection is still neither pinged nor closed. -/
theorem keepalive_stalls :
    ∃ client, (Machine.run step start blockedPing).clients[0]? = some client ∧
      client.connected = true ∧ client.keepAliveInterval = 10 ∧ client.pingOutstanding = false ∧
      Socket.noPendingWrites client.net = true ∧ client.lastSent = 11000000 ∧
      (MQTTProtocol.keepalive 26000000 (Machine.run step start blockedPing).clients)[0]? =
        some client := by
  decide

/-- A connection on which nothing was sent for ten seconds is pinged. -/
theorem keepalive_never_stalls_quiet :
    ∃ after,
      (MQTTProtocol.keepalive 10000000
        (Machine.run step start [{ action := .create }, { action := .connect 0 10 }]).clients)[0]? =
          some after ∧
      PingsOrCloses (create.connect 10 0) after 10000000 := by
  have found : (Machine.run step start
      [{ action := .create }, { action := .connect 0 10 }]).clients[0]? =
        some (create.connect 10 0) := by decide
  rcases keepalive_never_stalls _ 10000000 0 _ found rfl (by decide) with ⟨after, isAfter, pings, _⟩
  exact ⟨after, isAfter, (pings rfl rfl (by decide)).mpr (by decide)⟩

end Keepalive

end Paho
