import Paho.Connect.Client

/-!
# The transport of an attempt

The scheme of a server URI sets `ssl` and `websocket` of the client, and nothing clears them, so
that an attempt also gets the flags of the URIs used before it. `MQTTClient_connectAll` moreover
advances by the length of `URI_TCP` over a URI of `URI_MQTT`.
-/

namespace Paho

namespace Connect

/-- The address and the flags of a client that was created with a single URI. -/
def singleSelection (serverURI : URI) : Selection :=
  let client := createWithOptions serverURI mqttVersionDefault
  ⟨client.serverURI, client.flags⟩

/-- Whether the scheme of a URI asks for TLS. -/
def usesTls (serverURI : URI) : Bool :=
  (singleSelection serverURI).flags.ssl

/-- Whether the scheme of a URI asks for WebSockets. -/
def usesWebsocket (serverURI : URI) : Bool :=
  (singleSelection serverURI).flags.websocket

/-- An attempt for an entry of the list uses what this entry alone asks for. -/
def Attempt.OwnTransport (attempt : Attempt) : Prop :=
  attempt.listed = true → attempt.selection = singleSelection attempt.serverURI

instance Attempt.decidableOwnTransport (attempt : Attempt) : Decidable attempt.OwnTransport :=
  inferInstanceAs (Decidable (_ → _))

/-- The flags that are set ask for nothing that the URI does not ask for. -/
def Fits (flags : Flags) (serverURI : URI) : Prop :=
  (flags.ssl = true → usesTls serverURI = true) ∧
    (flags.websocket = true → usesWebsocket serverURI = true)

instance decidableFits (flags : Flags) (serverURI : URI) : Decidable (Fits flags serverURI) :=
  inferInstanceAs (Decidable (_ ∧ _))

section

variable (flags : Flags) (serverURI : URI)

theorem selectScheme_flags (mqttLength : Nat) :
    (selectScheme mqttLength flags serverURI).flags =
      ⟨flags.ssl || usesTls serverURI, flags.websocket || usesWebsocket serverURI⟩ := by
  simp only [usesTls, usesWebsocket, singleSelection, createWithOptions, select, selectScheme]
  split_ifs <;> simp

theorem select_host :
    (select flags serverURI).host = (singleSelection serverURI).host := by
  simp only [singleSelection, createWithOptions, select, selectScheme]
  split_ifs <;> rfl

theorem not_mqtt_of_tcp (tcp : uriTcp.isPrefixOf serverURI = true) :
    uriMqtt.isPrefixOf serverURI = false := by
  cases serverURI with
  | nil => rfl
  | cons letter rest =>
      have first : letter = 't' := by
        have both : ('t' == letter && "cp://".toList.isPrefixOf rest) = true := tcp
        simp only [Bool.and_eq_true, beq_iff_eq] at both
        exact both.1.symm
      rw [first]
      rfl

theorem selectInConnectAll_host :
    (selectInConnectAll flags serverURI).host = (singleSelection serverURI).host ↔
      uriMqtt.isPrefixOf serverURI = false := by
  rw [← select_host flags serverURI]
  by_cases tcp : uriTcp.isPrefixOf serverURI = true
  · simp [selectInConnectAll, select, selectScheme, tcp, not_mqtt_of_tcp serverURI tcp]
  by_cases mqtt : uriMqtt.isPrefixOf serverURI = true
  · -- one character of the URI is left too many
    have long : uriMqtt.length ≤ serverURI.length :=
      (List.isPrefixOf_iff_prefix.mp mqtt).length_le
    have differ : serverURI.drop uriTcp.length ≠ serverURI.drop uriMqtt.length := by
      intro same
      have lengths := congrArg List.length same
      simp only [List.length_drop] at lengths
      have tcpLength : uriTcp.length = 6 := rfl
      have mqttLength : uriMqtt.length = 7 := rfl
      omega
    simp [selectInConnectAll, select, selectScheme, tcp, mqtt, differ]
  · simp [selectInConnectAll, select, selectScheme, tcp, mqtt]

theorem flags_eq_iff (mqttLength : Nat) :
    (selectScheme mqttLength flags serverURI).flags = (singleSelection serverURI).flags ↔
      Fits flags serverURI := by
  have absorbs : ∀ set asked : Bool, ((set || asked) = asked) ↔ (set = true → asked = true) := by
    decide
  rw [selectScheme_flags, Flags.ext_iff]
  exact and_congr (absorbs _ _) (absorbs _ _)

theorem select_eq_iff :
    select flags serverURI = singleSelection serverURI ↔ Fits flags serverURI := by
  rw [Selection.ext_iff, ← flags_eq_iff flags serverURI uriMqtt.length]
  exact and_iff_right (select_host flags serverURI)

theorem selectInConnectAll_eq_iff :
    selectInConnectAll flags serverURI = singleSelection serverURI ↔
      Fits flags serverURI ∧ uriMqtt.isPrefixOf serverURI = false := by
  rw [Selection.ext_iff, selectInConnectAll_host, and_comm,
    ← flags_eq_iff flags serverURI uriTcp.length]
  rfl

end

/-! ## The synchronous client -/

namespace Sync

/-- A client and the attempts of all its calls of `MQTTClient_connect`. -/
structure State where
  client : Client
  attempts : List Attempt
  deriving DecidableEq, Repr

/-- A call of `MQTTClient_connect`, or of `MQTTClient_connect5`. -/
def step (state : State) (call : Options × Pattern) : State :=
  let result := connectAll state.client call.1 call.2
  ⟨result.client, state.attempts ++ result.attempts⟩

/-- The servers that are tried, from the first of a list on. -/
def reached (mqttVersion : Nat) : List URI → Pattern → List URI
  | [], _ => []
  | serverURI :: serverURIs, pattern =>
      if pattern 0 = .connected then [serverURI]
      else if mqttVersion ≠ mqttVersionDefault then
        serverURI :: reached mqttVersion serverURIs (pattern.after 1)
      else if pattern 1 = .connected then [serverURI]
      else serverURI :: reached mqttVersion serverURIs (pattern.after 2)

/--
No server asks for less than the ones before it and the flags at the start, and none has the
scheme of `URI_MQTT`.
-/
def AllFit : Flags → List URI → Prop
  | _, [] => True
  | flags, serverURI :: serverURIs =>
      (Fits flags serverURI ∧ uriMqtt.isPrefixOf serverURI = false) ∧
        AllFit ⟨flags.ssl || usesTls serverURI, flags.websocket || usesWebsocket serverURI⟩
          serverURIs

/-- The condition on a call. -/
def Suits (state : State) (call : Options × Pattern) : Prop :=
  (state.client.flags.ssl && !call.1.ssl) = false →
    AllFit state.client.flags (reached call.1.mqttVersion call.1.serverURIs call.2)

theorem reached_cons (mqttVersion : Nat) (attempt : Nat → Attempt) (serverURI : URI)
    (serverURIs : List URI) (pattern : Pattern) :
    reached mqttVersion (serverURI :: serverURIs) pattern =
      if (connectURI mqttVersion attempt pattern).2 then [serverURI]
      else
        serverURI :: reached mqttVersion serverURIs
          (pattern.after (connectURI mqttVersion attempt pattern).1.length) := by
  by_cases isDefault : mqttVersion = mqttVersionDefault
  · by_cases first : pattern 0 = .connected
    · simp [reached, connectURI, isDefault, first]
    · simp [reached, connectURI, isDefault, first]
  · simp [reached, connectURI, isDefault]

theorem forall_connectURI {mqttVersion : Nat} {attempt : Nat → Attempt} {pattern : Pattern}
    {holds : Attempt → Prop} {condition : Prop}
    (each : ∀ version, holds (attempt version) ↔ condition) :
    (∀ tried ∈ (connectURI mqttVersion attempt pattern).1, holds tried) ↔ condition := by
  simp only [connectURI]
  split_ifs <;> simp [each]

theorem connectLoop_ownTransport (mqttVersion : Nat) (client : Client) (currentURI : Nat)
    (serverURIs : List URI) (pattern : Pattern) :
    (∀ attempt ∈ (connectLoop mqttVersion client currentURI serverURIs pattern).attempts,
        attempt.OwnTransport) ↔
      AllFit client.flags (reached mqttVersion serverURIs pattern) := by
  induction serverURIs generalizing client currentURI pattern with
  | nil => simp [connectLoop, reached, AllFit]
  | cons serverURI serverURIs ih =>
      have own : (∀ tried ∈ (connectURI mqttVersion (fun version => ⟨currentURI, true, serverURI,
          selectInConnectAll client.flags serverURI, version⟩) pattern).1, tried.OwnTransport) ↔
            Fits client.flags serverURI ∧ uriMqtt.isPrefixOf serverURI = false := by
        apply forall_connectURI
        intro version
        rw [← selectInConnectAll_eq_iff]
        exact forall_prop_of_true rfl
      have flags := selectScheme_flags client.flags serverURI uriTcp.length
      rw [reached_cons mqttVersion (fun version => ⟨currentURI, true, serverURI,
        selectInConnectAll client.flags serverURI, version⟩)]
      simp only [connectLoop]
      split_ifs
      · simp [AllFit, own]
      · rw [AllFit, ← own, ← flags]
        have rest := ih { client with
          flags := (selectInConnectAll client.flags serverURI).flags } (currentURI + 1)
        simp only [List.forall_mem_append]
        rw [rest]
        rfl

theorem step_ownTransport (state : State) (call : Options × Pattern) :
    (∀ attempt ∈ (step state call).attempts, attempt.OwnTransport) ↔
      (∀ attempt ∈ state.attempts, attempt.OwnTransport) ∧ Suits state call := by
  simp only [step, List.forall_mem_append, Suits]
  apply and_congr_right
  intro _
  by_cases refused : (state.client.flags.ssl && !call.1.ssl) = true
  · simp [connectAll, refused]
  · simp only [connectAll, refused]
    by_cases isEmpty : call.1.serverURIs = []
    · have unlisted : ∀ version, Attempt.OwnTransport
          ⟨0, false, state.client.serverURI,
            ⟨state.client.serverURI, state.client.flags⟩, version⟩ ↔
            True := by
        simp [Attempt.OwnTransport]
      simp [isEmpty, reached, AllFit, forall_connectURI unlisted]
    · simp [isEmpty, connectLoop_ownTransport]

/-- Every attempt of a run of calls uses the transport of its own URI. -/
theorem ownTransport_iff (client : Client) (calls : List (Options × Pattern)) :
    (∀ attempt ∈ (Machine.run step ⟨client, []⟩ calls).attempts, attempt.OwnTransport) ↔
      Machine.Guarded step Suits ⟨client, []⟩ calls := by
  rw [@Machine.invariant_iff_guarded _ _ step Suits
    (fun state => ∀ attempt ∈ state.attempts, attempt.OwnTransport) step_ownTransport]
  simp

end Sync

/-! ## The asynchronous client -/

namespace Async

/-- The condition on a step: the server that a CONNECT is tried with fits the flags so far. -/
def Suits (state : State) : Input → Prop
  | .processCommand _ =>
      ∀ conn ∈ state.command, state.phase = .notConnected →
        ∀ serverURI ∈ state.client.serverURIs[conn.currentURI]?,
          Fits state.client.flags serverURI
  | _ => True

theorem attemptFor_ownTransport (client : Client) (conn : Conn) :
    (attemptFor client conn).OwnTransport ↔
      ∀ serverURI ∈ client.serverURIs[conn.currentURI]?, Fits client.flags serverURI := by
  by_cases inRange : conn.currentURI < client.serverURIs.length
  · simp [Attempt.OwnTransport, attemptFor, selectServer, inRange, select_eq_iff]
  · simp [Attempt.OwnTransport, attemptFor, inRange]

theorem commandFailed_attempts (state : State) (conn : Conn) (proxy : Bool) :
    (commandFailed state conn proxy).attempts = state.attempts := by
  simp only [commandFailed]
  split_ifs <;> rfl

theorem processCommand_attempts (state : State) (result : Option Bool) :
    (processCommand state result).attempts =
      state.attempts ++
        if state.phase = .notConnected then
          state.command.toList.map (attemptFor state.client)
        else [] := by
  rcases isSome : state.command with _ | conn
  · simp [processCommand, isSome]
  · by_cases notConnected : state.phase = .notConnected
    · cases result with
      | none => simp [processCommand, isSome, notConnected]
      | some proxy => simp [processCommand, isSome, notConnected, commandFailed_attempts]
    · simp [processCommand, isSome, notConnected]

theorem nextOrClose_attempts (state : State) : (nextOrClose state).attempts = state.attempts := by
  simp only [nextOrClose]
  split_ifs <;> rfl

theorem step_ownTransport (state : State) (input : Input) :
    (∀ attempt ∈ (step state input).attempts, attempt.OwnTransport) ↔
      (∀ attempt ∈ state.attempts, attempt.OwnTransport) ∧ Suits state input := by
  cases input with
  | connect options =>
      simp only [step, connect, Suits, and_true]
      split_ifs <;> rfl
  | reconnect => simp [step, reconnect, addCommand, Suits]
  | processCommand result =>
      simp only [step, processCommand_attempts, List.forall_mem_append, Suits]
      apply and_congr_right
      intro _
      by_cases notConnected : state.phase = .notConnected
      · rcases state.command with _ | conn
        · simp
        · simp [notConnected, attemptFor_ownTransport]
      · simp [notConnected]
  | accepted =>
      simp only [step, Suits, and_true]
      split_ifs <;> rfl
  | lost =>
      simp only [step, Suits, and_true]
      split_ifs
      · rfl
      · rw [nextOrClose_attempts]
  | disconnected => simp [step, Suits]

/-- Every attempt of a run uses the transport of its own URI. -/
theorem ownTransport_iff (client : Client) (last : Conn) (inputs : List Input) :
    (∀ attempt ∈ (Machine.run step (idle client last) inputs).attempts, attempt.OwnTransport) ↔
      Machine.Guarded step Suits (idle client last) inputs := by
  rw [@Machine.invariant_iff_guarded _ _ step Suits
    (fun state => ∀ attempt ∈ state.attempts, attempt.OwnTransport) step_ownTransport]
  simp [idle]

/-- While an attempt for an entry is in progress, `MQTTAsync_connecting` uses its address. -/
theorem connectingServer_begun {state : State} {conn : Conn} {serverURI : URI}
    (isSome : state.command = some conn) (notConnected : state.phase = .notConnected)
    (entry : state.client.serverURIs[conn.currentURI]? = some serverURI) :
    connectingServer (processCommand state none) = some (singleSelection serverURI).host := by
  rcases List.getElem?_eq_some_iff.mp entry with ⟨inRange, -⟩
  have nonempty : state.client.serverURIs ≠ [] := List.ne_nil_of_length_pos (by omega)
  have index : (stepDown state.client conn).currentURI = conn.currentURI := by
    simp only [stepDown]
    split_ifs <;> rfl
  simp [processCommand, isSome, notConnected, connectingServer, nonempty, index, entry,
    select_host]

end Async

/--
In any run of a client, every attempt for an entry of the server URIs uses the address and the
flags that this entry alone asks for, exactly when each server that is tried asks for all that the
ones before it did and, in the synchronous client, has not the scheme of `URI_MQTT`.
-/
theorem transport_of_serverURI (serverURI : URI) (mqttVersion : Nat) :
    (∀ calls : List (Options × Pattern),
      (∀ attempt ∈ (Machine.run Sync.step ⟨createWithOptions serverURI mqttVersion, []⟩
          calls).attempts, attempt.OwnTransport) ↔
        Machine.Guarded Sync.step Sync.Suits ⟨createWithOptions serverURI mqttVersion, []⟩
          calls) ∧
    ∀ (last : Async.Conn) (inputs : List Async.Input),
      (∀ attempt ∈ (Machine.run Async.step
          (Async.idle (createWithOptions serverURI mqttVersion) last) inputs).attempts,
            attempt.OwnTransport) ↔
        Machine.Guarded Async.step Async.Suits
          (Async.idle (createWithOptions serverURI mqttVersion) last) inputs :=
  ⟨Sync.ownTransport_iff _, Async.ownTransport_iff _⟩

/-- A WebSocket server that fails leaves its flag for the plain TCP server after it. -/
theorem not_ownTransport :
    (¬∀ attempt ∈ (Machine.run Sync.step
        ⟨createWithOptions "tcp://a".toList mqttVersion311, []⟩
        [(⟨["ws://a".toList, "tcp://b".toList], mqttVersion311, false⟩,
          fun _ => .failsLater)]).attempts, attempt.OwnTransport) ∧
      ¬∀ attempt ∈ (Machine.run Async.step
        (Async.idle (createWithOptions "tcp://a".toList mqttVersion311) ⟨0, 0⟩)
        [.connect ⟨["ws://a".toList, "tcp://b".toList], mqttVersion311, false⟩,
          .processCommand none, .lost, .processCommand none]).attempts,
            attempt.OwnTransport := by
  decide

end Connect

end Paho
