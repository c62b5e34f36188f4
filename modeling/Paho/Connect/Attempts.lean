import Paho.Connect.Client

/-!
# The order of the attempts

With `MQTTVERSION_DEFAULT`, the synchronous client tries each server with 3.1.1 and then with
3.1. The asynchronous client does so only for an attempt that fails in
`MQTTAsync_processCommand`, and never tries 3.1 with the last server, since
`MQTTAsync_checkConn` takes 3.1 rather than 3.1.1 as the version that leaves one more to try.
-/

namespace Paho

namespace Connect

/-- The server and the protocol version of an attempt. -/
def Attempt.pair (attempt : Attempt) : Nat × Nat :=
  (attempt.currentURI, attempt.mqttVersion)

/-- The pairs that are to be tried with `count` servers, from the entry `currentURI` on. -/
def allPairs (currentURI : Nat) : Nat → List (Nat × Nat)
  | 0 => []
  | count + 1 =>
      (currentURI, mqttVersion311) :: (currentURI, mqttVersion31) ::
        allPairs (currentURI + 1) count

/-- The pairs of the synchronous client, from the entry `currentURI` on. -/
def triedPairs (currentURI : Nat) : Nat → Pattern → List (Nat × Nat)
  | 0, _ => []
  | count + 1, pattern =>
      if pattern 0 = .connected then [(currentURI, mqttVersion311)]
      else if pattern 1 = .connected then
        [(currentURI, mqttVersion311), (currentURI, mqttVersion31)]
      else
        (currentURI, mqttVersion311) :: (currentURI, mqttVersion31) ::
          triedPairs (currentURI + 1) count (pattern.after 2)

namespace Sync

theorem connectURI_default (attempt : Nat → Attempt) (pattern : Pattern) :
    (connectURI mqttVersionDefault attempt pattern).1 =
        (if pattern 0 = .connected then [attempt mqttVersion311]
        else [attempt mqttVersion311, attempt mqttVersion31]) ∧
      (connectURI mqttVersionDefault attempt pattern).2 =
        (decide (pattern 0 = .connected) || decide (pattern 1 = .connected)) := by
  by_cases first : pattern 0 = .connected
  · simp [connectURI, first]
  · simp [connectURI, first]

theorem connectLoop_pairs (client : Client) (currentURI : Nat) (serverURIs : List URI)
    (pattern : Pattern) :
    (connectLoop mqttVersionDefault client currentURI serverURIs pattern).attempts.map
        Attempt.pair = triedPairs currentURI serverURIs.length pattern := by
  induction serverURIs generalizing client currentURI pattern with
  | nil => rfl
  | cons serverURI serverURIs ih =>
      have tried := connectURI_default (fun version =>
        ⟨currentURI, true, serverURI, selectInConnectAll client.flags serverURI, version⟩) pattern
      by_cases first : pattern 0 = .connected
      · simp [connectLoop, triedPairs, tried, first, Attempt.pair]
      · by_cases second : pattern 1 = .connected
        · simp [connectLoop, triedPairs, tried, first, second, Attempt.pair]
        · have rest := ih { client with
              flags := (selectInConnectAll client.flags serverURI).flags }
            (currentURI + 1) (pattern.after 2)
          simp [connectLoop, triedPairs, tried, first, second, Attempt.pair, rest]

end Sync

namespace Async

/-- The pairs tried so far. -/
def State.pairs (state : State) : List (Nat × Nat) :=
  state.attempts.map Attempt.pair

/-- A client with `count` servers and `MQTTVERSION_DEFAULT`, its CONNECT and its connection. -/
structure At (count : Nat) (phase : Phase) (command : Option Conn) (state : State) : Prop where
  phase : state.phase = phase
  command : state.command = command
  version : state.client.mqttVersion = mqttVersionDefault
  length : state.client.serverURIs.length = count

/-- The pair that is tried for a CONNECT. -/
def Conn.tried (conn : Conn) : Nat × Nat :=
  (conn.currentURI,
    if conn.mqttVersion = mqttVersionDefault then mqttVersion311 else mqttVersion31)

/-- There is a server for the CONNECT, and one more when it is for 3.1. -/
def Conn.InRange (count : Nat) (conn : Conn) : Prop :=
  conn.mqttVersion = mqttVersionDefault ∧ conn.currentURI < count ∨
    conn.mqttVersion = mqttVersion311 ∧ conn.currentURI + 1 < count

/-- The CONNECT that is put back when a connection is lost before it is established. -/
def afterLost (count : Nat) (conn : Conn) : Option Conn :=
  if conn.currentURI + 1 < count then some ⟨conn.currentURI + 1, mqttVersionDefault⟩ else none

/-- The CONNECT that is put back when `MQTTProtocol_connect` fails. -/
def afterFailed (count : Nat) (conn : Conn) : Option Conn :=
  if conn.currentURI + 1 < count then
    if conn.mqttVersion = mqttVersionDefault then some { conn with mqttVersion := mqttVersion311 }
    else some ⟨conn.currentURI + 1, mqttVersionDefault⟩
  else none

/-- The CONNECT that is in the list when an attempt is over. -/
def followUp (count : Nat) (conn : Conn) : Outcome → Option Conn
  | .connected => none
  | .failsAtOnce false => afterFailed count conn
  | .failsAtOnce true => (afterFailed count conn).bind (afterLost count)
  | .failsLater => afterLost count conn

section

variable {count : Nat} {phase : Phase} {conn : Conn} {state : State}

theorem not_lt_of_afterFailed (noneLeft : afterFailed count conn = none) :
    ¬conn.currentURI + 1 < count := by
  intro more
  by_cases isDefault : conn.mqttVersion = mqttVersionDefault
  · simp [afterFailed, more, isDefault] at noneLeft
  · simp [afterFailed, more, isDefault] at noneLeft

theorem afterFailed_mqttVersion {next : Conn} (putBack : afterFailed count conn = some next) :
    next.mqttVersion ≠ mqttVersion31 := by
  by_cases more : conn.currentURI + 1 < count
  · by_cases isDefault : conn.mqttVersion = mqttVersionDefault
    · simp only [afterFailed, more, isDefault, if_pos, Option.some.injEq] at putBack
      simp [← putBack, mqttVersion311, mqttVersion31]
    · simp only [afterFailed, more, isDefault, if_pos, if_false, Option.some.injEq] at putBack
      simp [← putBack, mqttVersionDefault, mqttVersion31]
  · simp [afterFailed, more] at putBack

theorem stepDown_tried (version : state.client.mqttVersion = mqttVersionDefault)
    (inRange : conn.InRange count) :
    stepDown state.client conn = ⟨conn.tried.1, conn.tried.2⟩ := by
  rcases inRange with ⟨isDefault, -⟩ | ⟨is311, -⟩
  · simp [stepDown, version, Conn.tried, isDefault]
  · simp [stepDown, version, Conn.tried, is311, mqttVersion311, mqttVersionDefault]

/-- An attempt that is begun. -/
theorem processCommand_begun (ready : At count .notConnected (some conn) state)
    (inRange : conn.InRange count) :
    let state' := processCommand state none
    At count .inProgress none state' ∧ state'.connect = ⟨conn.tried.1, conn.tried.2⟩ ∧
      state'.pairs = state.pairs ++ [conn.tried] ∧ state'.reports = state.reports := by
  have down := stepDown_tried ready.version inRange
  simp only [processCommand, ready.command, ready.phase, down, if_pos]
  refine ⟨⟨rfl, rfl, ready.version, ready.length⟩, trivial, ?_, trivial⟩
  simp [State.pairs, Attempt.pair, attemptFor, down, Conn.tried]

/-- An attempt that is not begun. -/
theorem processCommand_failed (ready : At count .notConnected (some conn) state)
    (inRange : conn.InRange count) (proxy : Bool) :
    let state' := processCommand state (some proxy)
    At count (if proxy then .inProgress else .notConnected) (afterFailed count conn) state' ∧
      state'.pairs = state.pairs ++ [conn.tried] ∧
      state'.reports =
        (if (afterFailed count conn).isSome then state.reports else state.reports ++ [false]) ∧
      (afterFailed count conn = none → state'.connect = ⟨conn.tried.1, conn.tried.2⟩) := by
  have down := stepDown_tried ready.version inRange
  have tried : (attemptFor state.client conn).pair = conn.tried := by
    simp [Attempt.pair, attemptFor, down, Conn.tried]
  have checked : checkConn { state.client with
      flags := (selectServer state.client conn).2.flags } ⟨conn.tried.1, conn.tried.2⟩ false =
        decide (conn.currentURI + 1 < count) := by
    rcases inRange with ⟨isDefault, -⟩ | ⟨is311, more⟩
    · simp [checkConn, ready.length, Conn.tried, isDefault, mqttVersion311, mqttVersion31]
    · simp [checkConn, ready.length, Conn.tried, more]
  by_cases more : conn.currentURI + 1 < count
  · have next : afterFailed count conn =
        some (afterFailedCommand state.client ⟨conn.tried.1, conn.tried.2⟩) := by
      rcases inRange with ⟨isDefault, -⟩ | ⟨is311, -⟩
      · simp [afterFailed, more, afterFailedCommand, ready.version, Conn.tried, isDefault,
          mqttVersion311, mqttVersion31]
      · simp [afterFailed, more, afterFailedCommand, ready.version, Conn.tried, is311,
          mqttVersion311, mqttVersionDefault]
    have put : (processCommand state (some proxy)) = { state with
        client := { state.client with flags := (selectServer state.client conn).2.flags }
        command := some (afterFailedCommand state.client ⟨conn.tried.1, conn.tried.2⟩)
        phase := if proxy then .inProgress else .notConnected
        attempts := state.attempts ++ [attemptFor state.client conn] } := by
      simp only [processCommand, ready.command, ready.phase, down, if_pos, commandFailed, checked,
        more, decide_true, addCommand]
      rfl
    rw [put, next]
    refine ⟨⟨rfl, rfl, ready.version, ready.length⟩, by simp [State.pairs, tried], rfl, ?_⟩
    intro isNone
    cases isNone
  · simp only [processCommand, ready.command, ready.phase, down, if_pos, commandFailed, checked,
      more, decide_false, afterFailed]
    refine ⟨⟨rfl, rfl, ready.version, ready.length⟩, ?_, rfl, fun _ => rfl⟩
    simp [State.pairs, tried]

/-- A CONNECT that is taken while `connect_state` says that a connection is in progress. -/
theorem processCommand_inProgress (waiting : At count .inProgress (some conn) state) :
    let state' := processCommand state none
    At count .inProgress none state' ∧ state'.connect = conn ∧
      state'.pairs = state.pairs ∧ state'.reports = state.reports := by
  simp only [processCommand, waiting.command, waiting.phase, reduceCtorEq, if_false]
  exact ⟨⟨rfl, rfl, waiting.version, waiting.length⟩, trivial, rfl, trivial⟩

/-- A connection that is lost before it is established. -/
theorem lost_inProgress (inProgress : At count .inProgress none state)
    (version : state.connect.mqttVersion = mqttVersion31 →
      state.connect.currentURI + 1 < count) :
    let state' := step state .lost
    At count .notConnected (afterLost count state.connect) state' ∧
      state'.pairs = state.pairs ∧
      state'.reports =
        if (afterLost count state.connect).isSome then state.reports
        else state.reports ++ [false] := by
  have checked : checkConn state.client state.connect false =
      decide (state.connect.currentURI + 1 < count) := by
    by_cases is31 : state.connect.mqttVersion = mqttVersion31
    · simp [checkConn, inProgress.length, version is31]
    · simp [checkConn, inProgress.length, is31]
  by_cases more : state.connect.currentURI + 1 < count
  · have next : afterLostConnection state.client state.connect false =
        ⟨state.connect.currentURI + 1, mqttVersionDefault⟩ := by
      simp [afterLostConnection, inProgress.version]
    simp only [step, nextOrClose, inProgress.phase, inProgress.command, reduceCtorEq,
      decide_false, checked, more, next, afterLost, addCommand, if_false]
    exact ⟨⟨rfl, rfl, inProgress.version, inProgress.length⟩, rfl, rfl⟩
  · simp only [step, nextOrClose, inProgress.phase, reduceCtorEq, decide_false, checked, more,
      afterLost, if_false]
    exact ⟨⟨rfl, inProgress.command, inProgress.version, inProgress.length⟩, rfl, rfl⟩

/-- One attempt: the pair tried, the CONNECT put back, and what is reported. -/
theorem run_inputs (ready : At count .notConnected (some conn) state)
    (inRange : conn.InRange count) (outcome : Outcome) :
    let state' := Machine.run step state (inputs outcome)
    At count (if outcome = .connected then .connected else .notConnected)
        (followUp count conn outcome) state' ∧
      state'.pairs = state.pairs ++ [conn.tried] ∧
      (outcome = .connected → state'.reports = state.reports ++ [true]) ∧
      (outcome ≠ .connected → (followUp count conn outcome).isSome →
        state'.reports = state.reports) ∧
      (followUp count conn outcome = none →
        decide (outcome = .connected) ∈ state'.reports) := by
  have begun := processCommand_begun ready inRange
  have version : (⟨conn.tried.1, conn.tried.2⟩ : Conn).mqttVersion = mqttVersion31 →
      conn.currentURI + 1 < count := by
    rcases inRange with ⟨isDefault, -⟩ | ⟨-, more⟩
    · simp [Conn.tried, isDefault, mqttVersion311, mqttVersion31]
    · exact fun _ => more
  cases outcome with
  | connected =>
      rcases begun with ⟨inProgress, connect, pairs, reports⟩
      simp only [inputs, Machine.run_cons, Machine.run_nil, step, inProgress.phase,
        if_pos, followUp]
      exact ⟨⟨rfl, inProgress.command, inProgress.version, inProgress.length⟩, pairs,
        fun _ => by rw [reports], fun failed => absurd rfl failed, fun _ => by simp⟩
  | failsLater =>
      rcases begun with ⟨inProgress, connect, pairs, reports⟩
      have lost := lost_inProgress inProgress (by rw [connect]; exact version)
      rw [connect, pairs, reports] at lost
      rcases lost with ⟨closed, pairs', reports'⟩
      refine ⟨closed, pairs', by simp, fun _ more => ?_, fun noneLeft => ?_⟩
      · exact reports'.trans (if_pos more)
      · have noneLeft : afterLost count ⟨conn.tried.1, conn.tried.2⟩ = none := noneLeft
        rw [noneLeft] at reports'
        exact reports' ▸ by simp
  | failsAtOnce proxy =>
      have failed := processCommand_failed ready inRange proxy
      rcases failed with ⟨failed, pairs, reports, connect⟩
      cases proxy with
      | false =>
          refine ⟨failed, pairs, by simp, fun _ more => ?_, fun noneLeft => ?_⟩
          · exact reports.trans (if_pos more)
          · have noneLeft : afterFailed count conn = none := noneLeft
            rw [noneLeft] at reports
            exact reports ▸ by simp
      | true =>
          -- the state is still in progress: the CONNECT is taken again, to no effect, and times out
          rcases putBack : afterFailed count conn with _ | next
          · rw [putBack] at failed reports
            have taken : processCommand (processCommand state (some true)) none =
                processCommand state (some true) := by
              simp only [processCommand.eq_def _ none, failed.command]
            have lost := lost_inProgress failed (by rw [connect putBack]; exact version)
            have noneLeft : afterLost count ⟨conn.tried.1, conn.tried.2⟩ = none :=
              if_neg (not_lt_of_afterFailed putBack)
            rw [connect putBack, noneLeft, pairs, reports] at lost
            simp only [inputs, Machine.run_cons, Machine.run_nil, step, taken, followUp, putBack]
            rcases lost with ⟨closed, pairs', reports'⟩
            exact ⟨closed, pairs', by simp, by simp, fun _ => reports' ▸ by simp⟩
          · rw [putBack] at failed reports
            have taken := processCommand_inProgress failed
            rcases taken with ⟨inProgress, connect', pairs', reports''⟩
            have lost := lost_inProgress inProgress (by
              rw [connect']
              exact fun is31 => absurd is31 (afterFailed_mqttVersion putBack))
            rw [connect', pairs', reports'', pairs, reports] at lost
            rcases lost with ⟨closed, pairs₂, reports₂⟩
            simp only [inputs, Machine.run_cons, Machine.run_nil, step, followUp, putBack]
            refine ⟨closed, pairs₂, by simp, fun _ more => ?_, fun noneLeft => ?_⟩
            · exact reports₂.trans (if_pos more)
            · have noneLeft : afterLost count next = none := noneLeft
              rw [noneLeft] at reports₂
              exact reports₂ ▸ by simp

/-- How many attempts there can still be. -/
def Conn.remaining (count : Nat) (conn : Conn) : Nat :=
  2 * (count - conn.currentURI) - if conn.mqttVersion = mqttVersionDefault then 0 else 1

theorem afterLost_spec {next : Conn} (putBack : afterLost count conn = some next) :
    next.InRange count ∧ conn.currentURI < next.currentURI ∧
      next.remaining count < conn.remaining count := by
  by_cases more : conn.currentURI + 1 < count
  · simp only [afterLost, more, if_pos, Option.some.injEq] at putBack
    subst putBack
    refine ⟨Or.inl ⟨rfl, more⟩, by simp, ?_⟩
    simp only [Conn.remaining, if_pos]
    split_ifs <;> omega
  · simp [afterLost, more] at putBack

theorem afterFailed_spec {next : Conn} (putBack : afterFailed count conn = some next) :
    next.InRange count ∧ conn.currentURI ≤ next.currentURI ∧
      next.remaining count < conn.remaining count := by
  by_cases more : conn.currentURI + 1 < count
  · by_cases isDefault : conn.mqttVersion = mqttVersionDefault
    · simp only [afterFailed, more, isDefault, if_pos, Option.some.injEq] at putBack
      subst putBack
      refine ⟨Or.inr ⟨rfl, more⟩, by simp, ?_⟩
      have differ : mqttVersion311 ≠ mqttVersionDefault := by decide
      simp only [Conn.remaining, isDefault, differ, if_pos, if_false]
      omega
    · simp only [afterFailed, more, isDefault, if_pos, if_false, Option.some.injEq] at putBack
      subst putBack
      refine ⟨Or.inl ⟨rfl, more⟩, by simp, ?_⟩
      simp only [Conn.remaining, isDefault, if_pos, if_false]
      omega
  · simp [afterFailed, more] at putBack

theorem followUp_spec {outcome : Outcome} {next : Conn}
    (putBack : followUp count conn outcome = some next) :
    next.InRange count ∧ conn.currentURI ≤ next.currentURI ∧
      next.remaining count < conn.remaining count := by
  cases outcome with
  | connected => cases putBack
  | failsLater =>
      rcases afterLost_spec putBack with ⟨inRange, less, fewer⟩
      exact ⟨inRange, Nat.le_of_lt less, fewer⟩
  | failsAtOnce proxy =>
      cases proxy with
      | false => exact afterFailed_spec putBack
      | true =>
          rcases Option.bind_eq_some_iff.mp putBack with ⟨between, failed, lost⟩
          rcases afterFailed_spec failed with ⟨-, le, fewer⟩
          rcases afterLost_spec lost with ⟨inRange, less, fewer'⟩
          exact ⟨inRange, Nat.le_trans le (Nat.le_of_lt less), Nat.lt_trans fewer' fewer⟩

/-! ## The attempts of one connect -/

theorem attemptAll_of_none (steps : Nat) {pattern : Pattern} (isNone : state.command = none) :
    attemptAll steps state pattern = state := by
  cases steps with
  | zero => rfl
  | succ steps => simp [attemptAll, isNone]

theorem attemptAll_of_some (steps : Nat) {pattern : Pattern} (isSome : state.command = some conn) :
    attemptAll (steps + 1) state pattern =
      attemptAll steps (Machine.run step state (inputs (pattern 0))) (pattern.after 1) := by
  simp [attemptAll, isSome]

/-- Every attempt is for a server in the list, from that of the CONNECT on. -/
theorem attemptAll_pairs (steps : Nat) (pattern : Pattern)
    (ready : At count .notConnected (some conn) state) (inRange : conn.InRange count) :
    ∃ pairs, (attemptAll steps state pattern).pairs = state.pairs ++ pairs ∧
      ∀ pair ∈ pairs, conn.currentURI ≤ pair.1 ∧ pair.1 < count := by
  induction steps generalizing state conn pattern with
  | zero => exact ⟨[], by simp [attemptAll], by simp⟩
  | succ steps ih =>
      have tried := run_inputs ready inRange (pattern 0)
      rcases tried with ⟨after, pairs, -, -⟩
      have here : conn.tried.1 < count := by
        rcases inRange with ⟨-, less⟩ | ⟨-, less⟩
        · exact less
        · exact Nat.lt_of_succ_lt less
      rw [attemptAll_of_some steps ready.command]
      rcases putBack : followUp count conn (pattern 0) with _ | next
      · rw [putBack] at after
        rw [attemptAll_of_none steps after.command]
        exact ⟨[conn.tried], pairs, by simpa [Conn.tried] using here⟩
      · rw [putBack] at after
        rcases followUp_spec putBack with ⟨inRange', le, -⟩
        have failed : pattern 0 ≠ .connected := by
          intro connected
          rw [connected] at putBack
          cases putBack
        rw [if_neg failed] at after
        rcases ih (pattern.after 1) after inRange' with ⟨rest, pairs', bounds⟩
        refine ⟨conn.tried :: rest, by simp [pairs', pairs], ?_⟩
        intro pair mem
        rcases List.mem_cons.mp mem with rfl | mem
        · exact ⟨Nat.le_refl _, here⟩
        · exact ⟨Nat.le_trans le (bounds pair mem).1, (bounds pair mem).2⟩

/-- The attempts come to an end, and the application is told how. -/
theorem attemptAll_ends (steps : Nat) (pattern : Pattern)
    (ready : At count .notConnected (some conn) state) (inRange : conn.InRange count)
    (enough : conn.remaining count ≤ steps) :
    (attemptAll steps state pattern).command = none ∧
      (attemptAll steps state pattern).reports ≠ [] := by
  induction steps generalizing state conn pattern with
  | zero =>
      simp only [Conn.remaining] at enough
      rcases inRange with ⟨isDefault, less⟩ | ⟨is311, less⟩ <;> split_ifs at enough <;> omega
  | succ steps ih =>
      have tried := run_inputs ready inRange (pattern 0)
      rcases tried with ⟨after, -, -, -, reported⟩
      rw [attemptAll_of_some steps ready.command]
      rcases putBack : followUp count conn (pattern 0) with _ | next
      · rw [putBack] at after
        rw [attemptAll_of_none steps after.command]
        exact ⟨after.command, List.ne_nil_of_mem (reported putBack)⟩
      · rw [putBack] at after
        rcases followUp_spec putBack with ⟨inRange', -, fewer⟩
        have failed : pattern 0 ≠ .connected := by
          intro connected
          rw [connected] at putBack
          cases putBack
        rw [if_neg failed] at after
        exact ih (pattern.after 1) after inRange' (by omega)

/-- What is tried after an attempt is for the servers from `bound` on. -/
theorem attemptAll_after (steps : Nat) (pattern : Pattern) {bound : Nat}
    (ready : At count .notConnected (some conn) state) (inRange : conn.InRange count)
    {outcome : Outcome} (failed : outcome ≠ .connected)
    (later : ∀ next, followUp count conn outcome = some next → bound ≤ next.currentURI) :
    ∃ pairs,
      (attemptAll steps (Machine.run step state (inputs outcome)) pattern).pairs =
        state.pairs ++ conn.tried :: pairs ∧ ∀ pair ∈ pairs, bound ≤ pair.1 := by
  have tried := run_inputs ready inRange outcome
  rcases tried with ⟨after, pairs, -⟩
  rw [if_neg failed] at after
  rcases putBack : followUp count conn outcome with _ | next
  · rw [putBack] at after
    rw [attemptAll_of_none steps after.command]
    exact ⟨[], pairs, by simp⟩
  · rw [putBack] at after
    rcases attemptAll_pairs steps pattern after (followUp_spec putBack).1 with
      ⟨rest, pairs', bounds⟩
    refine ⟨rest, by simp [pairs', pairs], ?_⟩
    intro pair mem
    exact Nat.le_trans (later next putBack) (bounds pair mem).1

theorem followUp_lt {outcome : Outcome} {next : Conn} (other : outcome ≠ .failsAtOnce false)
    (putBack : followUp count conn outcome = some next) :
    conn.currentURI + 1 ≤ next.currentURI := by
  cases outcome with
  | connected => cases putBack
  | failsLater => exact (afterLost_spec putBack).2.1
  | failsAtOnce proxy =>
      cases proxy with
      | false => exact absurd rfl other
      | true =>
          rcases Option.bind_eq_some_iff.mp putBack with ⟨between, failed, lost⟩
          exact Nat.lt_of_le_of_lt (afterFailed_spec failed).2.1 (afterLost_spec lost).2.1

end

/--
The first attempt that succeeds is at most that of the server `last` with 3.1.1; before it, those
with 3.1.1 fail in `MQTTAsync_processCommand`, those with 3.1 there or later.
-/
def Conforming (last : Nat) (pattern : Pattern) : Prop :=
  ∃ index ≤ 2 * last, pattern index = .connected ∧
    ∀ earlier < index, pattern earlier = .failsAtOnce false ∨
      earlier % 2 = 1 ∧ pattern earlier = .failsLater

theorem conforming_of_connected (last : Nat) {pattern : Pattern}
    (first : pattern 0 = .connected) : Conforming last pattern :=
  ⟨0, Nat.zero_le _, first, fun _ less => absurd less (Nat.not_lt_zero _)⟩

theorem Conforming.first {last : Nat} {pattern : Pattern} (conforming : Conforming last pattern) :
    pattern 0 = .connected ∨ pattern 0 = .failsAtOnce false ∧ 0 < last := by
  rcases conforming with ⟨index, le, connected, before⟩
  cases index with
  | zero => exact Or.inl connected
  | succ index =>
      rcases before 0 (Nat.succ_pos _) with failed | ⟨odd, -⟩
      · exact Or.inr ⟨failed, by omega⟩
      · cases odd

theorem conforming_succ {last : Nat} {pattern : Pattern}
    (first : pattern 0 = .failsAtOnce false) :
    Conforming (last + 1) pattern ↔
      pattern 1 = .connected ∨
        (pattern 1 = .failsAtOnce false ∨ pattern 1 = .failsLater) ∧
          Conforming last (pattern.after 2) := by
  constructor
  · rintro ⟨index, le, connected, before⟩
    rcases index with _ | _ | index
    · rw [first] at connected
      cases connected
    · exact Or.inl connected
    · refine Or.inr ⟨?_, index, by omega, connected, ?_⟩
      · rcases before 1 (by omega) with failed | ⟨-, failed⟩
        · exact Or.inl failed
        · exact Or.inr failed
      · intro earlier less
        rcases before (earlier + 2) (by omega) with failed | ⟨odd, failed⟩
        · exact Or.inl failed
        · exact Or.inr ⟨by omega, failed⟩
  · rintro (connected | ⟨failed, index, le, connected, before⟩)
    · refine ⟨1, by omega, connected, ?_⟩
      intro earlier less
      have isZero : earlier = 0 := by omega
      exact Or.inl (isZero ▸ first)
    · refine ⟨index + 2, by omega, connected, ?_⟩
      intro earlier less
      rcases earlier with _ | _ | earlier
      · exact Or.inl first
      · rcases failed with failed | failed
        · exact Or.inl failed
        · exact Or.inr ⟨rfl, failed⟩
      · rcases before earlier (by omega) with failed | ⟨odd, failed⟩
        · exact Or.inl failed
        · exact Or.inr ⟨by omega, failed⟩

section

variable {count currentURI : Nat} {state : State}

/-- A CONNECT that is put back for a later server misses the attempt with 3.1. -/
theorem pairs_ne_of_later (steps : Nat) {pattern : Pattern} {rest : List (Nat × Nat)}
    (ready : At count .notConnected (some ⟨currentURI, mqttVersionDefault⟩) state)
    (inRange : currentURI < count) (first : pattern 0 ≠ .connected)
    (later : ∀ next, followUp count ⟨currentURI, mqttVersionDefault⟩ (pattern 0) = some next →
      currentURI + 1 ≤ next.currentURI) :
    (attemptAll (steps + 1) state pattern).pairs ≠
      state.pairs ++ (currentURI, mqttVersion311) :: (currentURI, mqttVersion31) :: rest := by
  intro same
  rw [attemptAll_of_some steps ready.command] at same
  rcases attemptAll_after steps (pattern.after 1) ready (Or.inl ⟨rfl, inRange⟩) first later with
    ⟨pairs, tried, bounds⟩
  rw [tried] at same
  have tail : pairs = (currentURI, mqttVersion31) :: rest :=
    (List.cons.inj (List.append_cancel_left same)).2
  have bound := bounds (currentURI, mqttVersion31) (tail ▸ List.mem_cons_self)
  simp only at bound
  omega

theorem after_after (pattern : Pattern) : (pattern.after 1).after 1 = pattern.after 2 :=
  rfl

theorem inRange_default (inRange : currentURI < count) :
    (⟨currentURI, mqttVersionDefault⟩ : Conn).InRange count :=
  Or.inl ⟨rfl, inRange⟩

theorem attemptAll_connected (steps : Nat) (pattern : Pattern) {conn : Conn}
    (ready : At count .notConnected (some conn) state) (inRange : conn.InRange count)
    (first : pattern 0 = .connected) :
    (attemptAll (steps + 1) state pattern).pairs = state.pairs ++ [conn.tried] ∧
      (attemptAll (steps + 1) state pattern).reports = state.reports ++ [true] := by
  rcases run_inputs ready inRange .connected with ⟨after, pairs, reports, -⟩
  rw [attemptAll_of_some steps ready.command, first, attemptAll_of_none steps after.command]
  exact ⟨pairs, reports rfl⟩

theorem attemptAll_failed (steps : Nat) (pattern : Pattern) {conn next : Conn}
    (ready : At count .notConnected (some conn) state) (inRange : conn.InRange count)
    (putBack : followUp count conn (pattern 0) = some next) :
    ∃ state', attemptAll (steps + 1) state pattern = attemptAll steps state' (pattern.after 1) ∧
      At count .notConnected (some next) state' ∧
      state'.pairs = state.pairs ++ [conn.tried] ∧ state'.reports = state.reports := by
  have failed : pattern 0 ≠ .connected := by
    intro connected
    rw [connected] at putBack
    cases putBack
  rcases run_inputs ready inRange (pattern 0) with ⟨after, pairs, -, reports, -⟩
  rw [if_neg failed, putBack] at after
  exact ⟨_, attemptAll_of_some steps ready.command, after, pairs,
    reports failed (by simp [putBack])⟩

/-- The attempts from the server `currentURI` on, with `last` servers after it. -/
theorem attemptAll_agrees (last extra : Nat) (pattern : Pattern)
    (ready : At (currentURI + last + 1) .notConnected (some ⟨currentURI, mqttVersionDefault⟩)
      state) :
    ((attemptAll (2 * last + 2 + extra) state pattern).pairs =
        state.pairs ++ triedPairs currentURI (last + 1) pattern ↔ Conforming last pattern) ∧
      (Conforming last pattern →
        (attemptAll (2 * last + 2 + extra) state pattern).reports = state.reports ++ [true]) := by
  induction last generalizing state currentURI pattern extra with
  | zero =>
      have inRange : currentURI < currentURI + 0 + 1 := Nat.lt_succ_self _
      have steps : 2 * 0 + 2 + extra = extra + 1 + 1 := by omega
      rw [steps]
      by_cases first : pattern 0 = .connected
      · have conforming := conforming_of_connected 0 first
        rcases attemptAll_connected (extra + 1) pattern ready (inRange_default inRange) first with
          ⟨pairs, reports⟩
        rw [pairs, reports]
        simp [triedPairs, first, Conn.tried, conforming]
      · have notConforming : ¬Conforming 0 pattern := by
          intro conforming
          rcases conforming.first with connected | ⟨-, less⟩
          · exact first connected
          · exact absurd less (Nat.lt_irrefl 0)
        have later : ∀ next, followUp (currentURI + 0 + 1) ⟨currentURI, mqttVersionDefault⟩
            (pattern 0) = some next → currentURI + 1 ≤ next.currentURI := by
          intro next putBack
          by_cases atOnce : pattern 0 = .failsAtOnce false
          · simp [atOnce, followUp, afterFailed] at putBack
          · exact followUp_lt atOnce putBack
        refine ⟨iff_of_false ?_ notConforming, fun conforming => absurd conforming notConforming⟩
        rw [triedPairs, if_neg first]
        split_ifs
        · exact pairs_ne_of_later (extra + 1) ready inRange first later
        · exact pairs_ne_of_later (extra + 1) ready inRange first later
  | succ last ih =>
      have inRange : currentURI < currentURI + (last + 1) + 1 := by omega
      have steps : 2 * (last + 1) + 2 + extra = 2 * last + 2 + extra + 1 + 1 := by omega
      rw [steps]
      by_cases first : pattern 0 = .connected
      · have conforming := conforming_of_connected (last + 1) first
        rcases attemptAll_connected (2 * last + 2 + extra + 1) pattern ready
          (inRange_default inRange) first with ⟨pairs, reports⟩
        rw [pairs, reports]
        simp [triedPairs, first, Conn.tried, conforming]
      by_cases atOnce : pattern 0 = .failsAtOnce false
      · have putBack : followUp (currentURI + (last + 1) + 1) ⟨currentURI, mqttVersionDefault⟩
            (pattern 0) = some ⟨currentURI, mqttVersion311⟩ := by
          simp [atOnce, followUp, afterFailed]
        rcases attemptAll_failed (2 * last + 2 + extra + 1) pattern ready
          (inRange_default inRange) putBack with ⟨state₁, attempts₁, ready₁, pairs₁, reports₁⟩
        have inRange₁ := (followUp_spec putBack).1
        rw [attempts₁, conforming_succ atOnce]
        by_cases second : pattern 1 = .connected
        · rcases attemptAll_connected (2 * last + 2 + extra) (pattern.after 1) ready₁ inRange₁
            second with ⟨pairs, reports⟩
          rw [pairs, reports, pairs₁, reports₁]
          simp [triedPairs, atOnce, second, Conn.tried, mqttVersion311, mqttVersionDefault]
        · have rest : triedPairs currentURI (last + 1 + 1) pattern =
              (currentURI, mqttVersion311) :: (currentURI, mqttVersion31) ::
                triedPairs (currentURI + 1) (last + 1) (pattern.after 2) := by
            rw [triedPairs, if_neg first, if_neg second]
          rw [rest]
          by_cases proxy : pattern 1 = .failsAtOnce true
          · -- the CONNECT is put back for the next server, and moves on once more
            have later : ∀ next, followUp (currentURI + (last + 1) + 1)
                ⟨currentURI, mqttVersion311⟩ (.failsAtOnce true) = some next →
                  currentURI + 2 ≤ next.currentURI := by
              intro next putBack
              rcases Option.bind_eq_some_iff.mp putBack with ⟨between, failed, lost⟩
              have less := (afterLost_spec lost).2.1
              have between_eq : between = ⟨currentURI + 1, mqttVersionDefault⟩ := by
                simpa [afterFailed, mqttVersion311, mqttVersionDefault] using failed.symm
              rw [between_eq] at less
              exact less
            rcases attemptAll_after (2 * last + 2 + extra) ((pattern.after 1).after 1) ready₁
              inRange₁ (by simp) later with ⟨pairs, tried, bounds⟩
            have taken : attemptAll (2 * last + 2 + extra + 1) state₁ (pattern.after 1) =
                attemptAll (2 * last + 2 + extra)
                  (Machine.run step state₁ (inputs (.failsAtOnce true)))
                  ((pattern.after 1).after 1) := by
              rw [attemptAll_of_some _ ready₁.command, Pattern.after_apply, Nat.zero_add, proxy]
            refine ⟨iff_of_false ?_ ?_, ?_⟩
            · intro equal
              rw [taken, tried, pairs₁, List.append_assoc] at equal
              have tail := (List.cons.inj (List.cons.inj (List.append_cancel_left equal)).2).2
              have next : (currentURI + 1, mqttVersion311) ∈ pairs := by
                rw [tail, triedPairs]
                split_ifs <;> simp
              have bound := bounds _ next
              simp only at bound
              omega
            · simp [proxy]
            · simp [proxy]
          · have failed : pattern 1 = .failsAtOnce false ∨ pattern 1 = .failsLater := by
              rcases outcome : pattern 1 with _ | (_ | _) | _
              · exact absurd outcome second
              · exact Or.inl rfl
              · exact absurd outcome proxy
              · exact Or.inr rfl
            have putBack₁ : followUp (currentURI + (last + 1) + 1) ⟨currentURI, mqttVersion311⟩
                (pattern.after 1 0) = some ⟨currentURI + 1, mqttVersionDefault⟩ := by
              rcases failed with failed | failed
              · simp [failed, followUp, afterFailed, mqttVersion311, mqttVersionDefault]
              · simp [failed, followUp, afterLost]
            rcases attemptAll_failed (2 * last + 2 + extra) (pattern.after 1) ready₁ inRange₁
              putBack₁ with ⟨state₂, attempts₂, ready₂, pairs₂, reports₂⟩
            have same : currentURI + (last + 1) + 1 = currentURI + 1 + last + 1 := by omega
            rw [same] at ready₂
            rcases ih extra (pattern.after 2) ready₂ with ⟨pairs, reports⟩
            have conforming : (pattern 1 = .connected ∨
                (pattern 1 = .failsAtOnce false ∨ pattern 1 = .failsLater) ∧
                  Conforming last (pattern.after 2)) ↔ Conforming last (pattern.after 2) := by
              simp only [second, failed, false_or, true_and]
            rw [pairs₂, pairs₁] at pairs
            rw [attempts₂, after_after, conforming, ← pairs]
            refine ⟨?_, fun conforms => ?_⟩
            · simp [Conn.tried, mqttVersion311, mqttVersionDefault]
            · rw [reports (pairs.mp conforms), reports₂, reports₁]
      · have later : ∀ next, followUp (currentURI + (last + 1) + 1)
            ⟨currentURI, mqttVersionDefault⟩ (pattern 0) = some next →
              currentURI + 1 ≤ next.currentURI :=
          fun next putBack => followUp_lt atOnce putBack
        have notConforming : ¬Conforming (last + 1) pattern := by
          intro conforming
          rcases conforming.first with connected | ⟨failed, -⟩
          · exact first connected
          · exact atOnce failed
        refine ⟨iff_of_false ?_ notConforming, fun conforming => absurd conforming notConforming⟩
        rw [triedPairs, if_neg first]
        split_ifs
        · exact pairs_ne_of_later _ ready inRange first later
        · exact pairs_ne_of_later _ ready inRange first later

end

/-- The attempts of `MQTTAsync_connect` on a client that is not connected. -/
def connectAll (client : Client) (last : Conn) (options : Options) (pattern : Pattern) : State :=
  attemptAll (2 * options.serverURIs.length) (connect (idle client last) options) pattern

end Async

/--
Both clients try the same pairs; the asynchronous one reports a failure only after all of them,
and uses no entry beyond the last.
-/
structure AttemptsAgree (count : Nat) (async : Async.State) (sync : Sync.Result) : Prop where
  pairs : async.pairs = sync.attempts.map Attempt.pair
  failure : false ∈ async.reports → async.pairs = allPairs 0 count
  inRange : ∀ attempt ∈ async.attempts, attempt.currentURI < count

/--
The attempts of the two clients agree exactly when the first one that succeeds is at most that of
the last server with 3.1.1, and every one with 3.1.1 before it fails in
`MQTTAsync_processCommand`.
-/
theorem attempts_agree_iff (client : Client) (last : Async.Conn) (serverURI : URI)
    (serverURIs : List URI) (ssl : Bool) (pattern : Pattern)
    (accepted : client.flags.ssl = true → ssl = true) :
    let options : Options := ⟨serverURI :: serverURIs, mqttVersionDefault, ssl⟩
    let async := Async.connectAll client last options pattern
    async.command = none ∧ async.reports ≠ [] ∧
      (AttemptsAgree (serverURIs.length + 1) async (Sync.connectAll client options pattern) ↔
        Async.Conforming serverURIs.length pattern) := by
  intro options async
  have refused : (client.flags.ssl && !ssl) = false := by
    cases isSsl : client.flags.ssl with
    | false => rfl
    | true => rw [accepted isSsl]; rfl
  have start : Async.connect (Async.idle client last) options =
      { Async.idle client last with
        client := { client with
          serverURIs := serverURI :: serverURIs, mqttVersion := mqttVersionDefault }
        command := some ⟨0, mqttVersionDefault⟩ } := by
    simp [Async.connect, Async.idle, options, refused, Async.addCommand]
  have ready : Async.At (0 + serverURIs.length + 1) .notConnected
      (some ⟨0, mqttVersionDefault⟩) (Async.connect (Async.idle client last) options) := by
    rw [start]
    exact ⟨rfl, rfl, rfl, by simp⟩
  have inRange := Async.inRange_default (show 0 < 0 + serverURIs.length + 1 by omega)
  have steps : 2 * options.serverURIs.length = 2 * serverURIs.length + 2 + 0 := by
    simp [options]
    omega
  have ends := Async.attemptAll_ends (2 * options.serverURIs.length) pattern ready inRange
    (by rw [steps]; simp [Async.Conn.remaining]; omega)
  have agrees := Async.attemptAll_agrees serverURIs.length 0 pattern ready
  rcases Async.attemptAll_pairs (2 * options.serverURIs.length) pattern ready inRange with
    ⟨pairs, tried, bounds⟩
  have synchronous : (Sync.connectAll client options pattern).attempts.map Attempt.pair =
      triedPairs 0 (serverURIs.length + 1) pattern := by
    simp [Sync.connectAll, options, refused, Sync.connectLoop_pairs]
  have fresh : (Async.connect (Async.idle client last) options).pairs = [] := by
    rw [start]
    rfl
  have unreported : (Async.connect (Async.idle client last) options).reports = [] := by
    rw [start]
    rfl
  rw [fresh, unreported, ← steps, List.nil_append, List.nil_append] at agrees
  refine ⟨ends.1, ends.2, fun agree => agrees.1.mp (agree.pairs.trans synchronous), ?_⟩
  intro conforming
  refine ⟨(agrees.1.mpr conforming).trans synchronous.symm, ?_, ?_⟩
  · intro failure
    have reports : async.reports = [true] := agrees.2 conforming
    rw [reports] at failure
    simp at failure
  · intro attempt mem
    have pair : attempt.pair ∈ async.pairs := List.mem_map_of_mem mem
    rw [show async.pairs = pairs by rw [← List.nil_append pairs, ← fresh]; exact tried] at pair
    have bound := (bounds _ pair).2
    simpa [Attempt.pair] using bound

/-- The client of the two results below, created for its first server. -/
def twoServers : Client :=
  createWithOptions "tcp://a".toList mqttVersionDefault

/-- The first server refuses both versions at once, the second accepts 3.1.1. -/
theorem attempts_agree_two :
    AttemptsAgree 2
      (Async.connectAll twoServers ⟨0, 0⟩
        ⟨["tcp://a".toList, "tcp://b".toList], mqttVersionDefault, false⟩
        (fun index => if index < 2 then .failsAtOnce false else .connected))
      (Sync.connectAll twoServers
        ⟨["tcp://a".toList, "tcp://b".toList], mqttVersionDefault, false⟩
        (fun index => if index < 2 then .failsAtOnce false else .connected)) :=
  (attempts_agree_iff twoServers ⟨0, 0⟩ "tcp://a".toList ["tcp://b".toList] false
    (fun index => if index < 2 then .failsAtOnce false else .connected) (by decide)).2.2.mpr
    ⟨2, by decide, by decide, by decide⟩

/-- The only server refuses every attempt at once, and 3.1 is not tried. -/
theorem not_attemptsAgree :
    ¬AttemptsAgree 1
      (Async.connectAll twoServers ⟨0, 0⟩ ⟨["tcp://a".toList], mqttVersionDefault, false⟩
        (fun _ => .failsAtOnce false))
      (Sync.connectAll twoServers ⟨["tcp://a".toList], mqttVersionDefault, false⟩
        (fun _ => .failsAtOnce false)) := by
  intro agree
  have differ : (Async.connectAll twoServers ⟨0, 0⟩
      ⟨["tcp://a".toList], mqttVersionDefault, false⟩ (fun _ => .failsAtOnce false)).pairs ≠
        (Sync.connectAll twoServers ⟨["tcp://a".toList], mqttVersionDefault, false⟩
          (fun _ => .failsAtOnce false)).attempts.map Attempt.pair := by
    decide
  exact differ agree.pairs

end Connect

end Paho
