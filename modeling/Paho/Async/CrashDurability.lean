import Paho.Async.RestoreSteps

/-!
# Crash durability

The process may end between any two operations on the store. What a publication that is accepted
and not finished needs is in the store whenever the process may end without harm, and a new
process goes on with it. The two windows in which the end of the process does harm are the
hand-over of a publication from the queue to the session and, in MQTT 5, the time between the put
of a received PUBLISH and its delivery.
-/

namespace Paho

open MQTTPersistence AsyncEvent

namespace AsyncSession

open MQTTAsyncs

/-- The conditions under which a step keeps what is unfinished: the session is one that outlives
its connections, a crash does not come at a harmful point, sequence numbers are not used twice,
the buffer is not full, and a new connection does not clean a session with messages in flight. -/
def Meets (s : MQTTAsyncs) (input : Input) : Prop :=
  s.c.KeepsOnClose ∧
    match input.action with
    | .restart keys =>
        keys.Perm s.c.recordKeys ∧ s.phase.Harmless s.c.mqttVersion s.c.inboundMsgs
    | .add =>
        match s.sending with
        | .none => True
        | .adding _ _ => s.FreeSeqno
        | .added => s.bufferFull = false
    | .processCommand => s.NoStrayRecord
    | .connect sessionPresent =>
        cleansOnConnect s.c sessionPresent = true → s.c.outboundMsgs = [] ∧ s.c.inboundMsgs = []
    | _ => True

variable {s : MQTTAsyncs} {input : Input}

theorem isSecure_create (mqttVersion maxInflightMessages : Nat) (cleansession : Bool)
    (createOptions : Option CreateOptions) :
    Secure (create mqttVersion cleansession maxInflightMessages createOptions).c.exchange []
      .none .idle [] where
  persistent := rfl
  filed := Session.create_filed mqttVersion cleansession
  commandsFiled := fun k record _ stored => by
    simp [create, Session.create, Clients.exchange, Clients.record] at stored
  inbound := fun m mem => absurd mem List.not_mem_nil
  kept := by
    refine ⟨fun token message pending => ?_, fun _ id publish pending => ?_,
      fun _ id publish pending => ?_, fun _ id => rfl, fun id publish recorded => ?_⟩
    · cases pending
    · cases pending
    · cases pending
    · rcases recorded with recorded | recorded <;> cases recorded
  consistent := fun _ => by
    refine ⟨⟨fun n entry => ?_, List.nodup_nil, List.nodup_nil, ?_⟩,
      ⟨fun id publish recorded => ?_, fun publish mem => ?_⟩,
      ⟨List.nodup_nil, fun id publish recorded => ?_, fun m mem => ?_⟩⟩
    · constructor
      · intro recorded
        cases recorded
      · intro mem
        cases mem
    · rintro token message (⟨n, mem⟩ | mem) _ <;> cases mem
    · cases recorded
    · cases mem
    · cases recorded
    · cases mem
  unstored := fun queued mem => absurd mem List.not_mem_nil
  phase := trivial

theorem isSecure_provide (secure : s.IsSecure) (input : Input) : (provide s input).IsSecure :=
  secure.of_same rfl rfl rfl rfl rfl rfl

theorem isSecure_advance (secure : s.IsSecure) (accepts : Bool) :
    (s.advance accepts).IsSecure := by
  cases phase : s.phase with
  | idle =>
      unfold MQTTAsyncs.advance
      rw [phase]
      exact secure
  | publishing token message =>
      unfold MQTTAsyncs.advance
      rw [phase]
      exact isSecure_startPublish secure phase
  | received publish =>
      unfold MQTTAsyncs.advance
      rw [phase]
      exact isSecure_handleReceived secure phase accepts
  | removing keys last =>
      unfold MQTTAsyncs.advance
      rw [phase]
      cases keys with
      | nil => exact isSecure_finish secure phase
      | cons k keys => exact isSecure_removeKey secure phase
  | retrying now regardless remaining =>
      cases remaining with
      | nil =>
          unfold MQTTAsyncs.advance
          rw [phase]
          have invariant := secure.secure
          rw [phase] at invariant
          exact ⟨secure.keeps, invariant.of_same (.refl _) rfl rfl id trivial⟩
      | cons m rest =>
          unfold MQTTAsyncs.advance
          rw [phase]
          exact isSecure_retrying secure phase
  | sendingAcks remaining => exact isSecure_sendingAcks secure phase accepts
  | restoring keys =>
      cases keys with
      | nil =>
          unfold MQTTAsyncs.advance
          rw [phase]
          exact isSecure_createRestored secure phase
      | cons k keys => exact isSecure_restoring secure phase accepts
  | failed =>
      unfold MQTTAsyncs.advance
      rw [phase]
      exact secure

theorem isSecure_begin (secure : s.IsSecure) (meets : Meets s input) (idle : s.phase = .idle) :
    (begin s input).IsSecure := by
  unfold begin
  rcases meets with ⟨keeps, meets⟩
  split
  next action =>
    rw [action] at meets
    exact isSecure_processCommand secure idle meets input.expired
  next packet _ =>
    split
    · exact isSecure_receive secure idle packet input.accepts
    · exact secure
  · exact isSecure_deliverQueued secure input.accepts idle
  next doRetry _ => exact isSecure_retry secure idle s.c.clock doRetry false
  next succeeded _ =>
    split
    · have written : IsSecure
          { s with c := { s.c with net := { s.c.net with pendingWrites := false } } } :=
        secure.of_same rfl rfl rfl rfl rfl rfl
      dsimp only
      split
      · let c : Clients := { s.c with net := { s.c.net with pendingWrites := false } }
        have sending : IsSecure { s with c := c, phase := .sendingAcks s.c.outboundQueue } :=
          written.to_idle (c := c) idle rfl (.refl _) rfl rfl trivial
        exact sending
      · exact written
    · exact secure
  · split
    · exact secure.of_same (steady_closeSession s.c).settings
        (exchange_closeSession_keeps keeps) rfl rfl
        rfl rfl
    · exact secure
  next sessionPresent action =>
    rw [action] at meets
    split
    · exact secure
    · exact isSecure_completeConnection secure idle sessionPresent meets
  · exact secure

theorem isSecure_act (secure : s.IsSecure) (meets : Meets s input) : (act s input).IsSecure := by
  unfold act
  have beginning : IsSecure (if s.phase = .idle then begin s input else s) := by
    split
    next idle => exact isSecure_begin secure meets idle
    next => exact secure
  cases action : input.action with
  | send message =>
      dsimp only
      split
      next free => exact isSecure_send secure free.1 free.2 message
      next => exact secure
  | subscribe =>
      dsimp only
      split
      next free => exact isSecure_subscribe secure free.1 free.2
      next => exact secure
  | requestConnect =>
      dsimp only
      split
      next free => 
        have noMessage : Command.connect.message? = none := rfl
        exact isSecure_request secure free.1 free.2 noMessage true
      next => exact secure
  | requestDisconnect =>
      dsimp only
      split
      next free =>
        have noMessage : (Command.disconnect false).message? = none := rfl
        exact isSecure_request secure free.1 free.2 noMessage false
      next => exact secure
  | add =>
      dsimp only
      split
      next isCreated =>
        have conditions := meets.2
        rw [action] at conditions
        unfold add
        cases sending : s.sending with
        | none => exact secure
        | adding token command =>
            rw [sending] at conditions
            exact isSecure_addCommand secure isCreated sending conditions
        | added =>
            rw [sending] at conditions
            exact isSecure_checkBuffer secure conditions
      next => exact secure
  | advance => exact isSecure_advance secure input.accepts
  | restart keys =>
      have conditions := meets.2
      rw [action] at conditions
      exact isSecure_restart secure conditions.2 conditions.1
  | _ => exact beginning

/-- One step keeps the invariant under its conditions. -/
theorem secure_step (secure : Secure s.c.exchange s.commands s.sending s.phase s.history)
    (meets : Meets s input) :
    Secure (step s input).c.exchange (step s input).commands (step s input).sending
      (step s input).phase (step s input).history := by
  have before : s.IsSecure := ⟨meets.1, secure⟩
  exact (isSecure_act (isSecure_provide before input) meets).secure

/-- The store has what a publication needs that is not finished: its command, or its PUBLISH. -/
def Recorded (s : MQTTAsyncs) (token : Nat) (message : Session.Message) : Prop :=
  (∃ n, s.c.record (s.commandKey n) = some (.command token (some message))) ∨
    ∃ dup, s.c.record (key .publishSent s.c.mqttVersion token) =
      some (.publish (Session.publishPacket s.c.mqttVersion message dup token))

/-- The publication waits in the queue of commands, or its PUBLISH or PUBREL is in flight and is
sent again on the next connection. -/
def WillSend (s : MQTTAsyncs) (token : Nat) (message : Session.Message) : Prop :=
  (∃ queued ∈ s.commands, queued.command = .publish message ∧ queued.token = token) ∨
    ∃ m ∈ s.c.outboundMsgs,
      Exchange.publication m = Session.publishPacket s.c.mqttVersion message false token

/-- What a crash must not destroy. -/
structure CrashDurable (s : MQTTAsyncs) : Prop where
  recorded : s.phase.Harmless s.c.mqttVersion s.c.inboundMsgs → ∀ token message,
    unfinished token s.history = some message → message.qos ≠ 0 → Recorded s token message
  willSend : s.phase = .idle → ∀ token message,
    unfinished token s.history = some message → message.qos ≠ 0 → WillSend s token message
  /-- The new process gets to the end of the store. -/
  restores : ∀ keys, s.phase = .restoring keys →
    (Machine.run step s (List.replicate (keys.length + 1) { action := .advance })).phase = .idle
  /-- PUBREL passes on, or queues, what was recorded and not delivered. -/
  delivers : s.phase = .idle → s.c.connected = true → ∀ id publish,
    undelivered s.c.mqttVersion id s.history = some publish → ∀ accepts,
      ∃ event, Custody.Delivers publish.content event ∧
        (step s { action := .receive (.pubrel id), accepts := accepts }).history =
          event :: s.history
  /-- A PUBLISH that the server sends again takes the place of the first one. -/
  redelivers : s.phase = .idle → s.c.connected = true → ∀ id publish,
    undelivered s.c.mqttVersion id s.history = some publish → ∀ message dup,
      message.qos = 2 →
        let received := Machine.run step s
          [{ action := .receive (.publish dup message id) }, { action := .advance }]
        received.phase = .idle ∧
          undelivered s.c.mqttVersion id received.history =
            some (Session.publishPacket s.c.mqttVersion message dup id)

section Durable

variable (secure : Secure s.c.exchange s.commands s.sending s.phase s.history)
include secure

theorem recorded_of_secure (harmless : s.phase.Harmless s.c.mqttVersion s.c.inboundMsgs)
    {token : Nat} {message : Session.Message}
    (pending : unfinished token s.history = some message) (qos : message.qos ≠ 0) :
    Recorded s token message := by
  have notHanded : s.phase.stage ≠ .publishing token message := by
    intro handed
    cases phase : s.phase with
    | publishing other handedMessage =>
        rw [phase] at handed harmless
        cases handed
        exact qos harmless
    | removing keys last =>
        rw [phase] at handed
        cases last <;> cases handed
    | _ =>
        rw [phase] at handed
        cases handed
  rcases secure.kept.accepted token message pending qos notHanded with ⟨n, located⟩ | sent
  · left
    refine ⟨n, ?_⟩
    change (s.c.record (s.commandKey n)).bind Record.command? = _ at located
    rcases Option.bind_eq_some_iff.mp located with ⟨record, stored, isCommand⟩
    rw [stored]
    cases record with
    | command other found =>
        cases isCommand
        rfl
    | _ => cases isCommand
  · right
    change (s.c.record (key .publishSent s.c.mqttVersion token)).bind Record.publish? = _ at sent
    rcases Option.bind_eq_some_iff.mp sent with ⟨record, stored, isPublish⟩
    rw [stored]
    cases record with
    | publish packet =>
        refine ⟨packet.dup, ?_⟩
        have content : packet.content =
            Session.publishPacket s.c.mqttVersion message false token := Option.some.inj isPublish
        have same : packet = { packet.content with dup := packet.dup } := rfl
        rw [same, content]
        rfl
    | _ => cases isPublish

theorem willSend_of_secure (idle : s.phase = .idle) {token : Nat} {message : Session.Message}
    (pending : unfinished token s.history = some message) (qos : message.qos ≠ 0) :
    WillSend s token message := by
  rw [idle] at secure
  have consistent := secure.consistent rfl
  rcases secure.kept.accepted token message pending qos Stage.noConfusion with ⟨n, located⟩ | sent
  · left
    have queue : Custody.QueueHeld s.c.exchange.held.commandRecord
        (s.commands.filterMap QueuedCommand.entry) (s.sending.inHand ++ Phase.idle.inHand)
        s.c.exchange.held.outbound := consistent.queue
    rcases List.mem_filterMap.mp ((queue.record n _).mp located) with ⟨queued, mem, isEntry⟩
    refine ⟨queued, mem, ?_⟩
    unfold QueuedCommand.entry at isEntry
    split at isEntry
    · split at isEntry <;> simp_all
    · simp at isEntry
    · cases isEntry
  · right
    have held : Custody.SentHeld s.c.exchange.held.sentRecord s.c.exchange.held.outbound .steady :=
      consistent.sent
    rcases List.mem_map.mp (held.record token _ sent).1 with ⟨erased, mem, isPublication⟩
    rcases List.mem_map.mp mem with ⟨m, inFlight, rfl⟩
    exact ⟨m, inFlight, isPublication⟩

/-- In MQTT 5 nothing that was received waits for delivery between two packets. -/
theorem old_of_undelivered (idle : s.phase = .idle) {id : Nat} {publish : Publish}
    (pending : undelivered s.c.mqttVersion id s.history = some publish) :
    s.c.mqttVersion < mqttVersion5 := by
  rw [idle] at secure
  by_contra new
  cases secure.kept.undelivered5 (Nat.not_lt.mp new) id publish pending

/-- Before MQTT 5 the message waits for PUBREL. -/
theorem inbound_of_undelivered (idle : s.phase = .idle) {id : Nat} {publish : Publish}
    (pending : undelivered s.c.mqttVersion id s.history = some publish) :
    ∃ m, releases s.c.inboundMsgs id = some m ∧ m.mqttVersion = s.c.mqttVersion ∧
      MQTTProtocol.publicationOf m = publish.content := by
  have old := old_of_undelivered secure idle pending
  rw [idle] at secure
  have received : Custody.ReceivedHeld s.c.mqttVersion s.c.exchange.held.receivedRecord
      s.c.exchange.held.inbound .steady := (secure.consistent rfl).received
  have recorded := secure.kept.undelivered3 old id publish pending
  rcases received.record id _ recorded with ⟨_, isNew, _⟩ | ⟨kept, mem, isId, content⟩
  · cases isNew
  · rcases List.mem_map.mp mem with ⟨erased, erasedMem, rfl⟩
    rcases List.mem_map.mp erasedMem with ⟨m, inbound, rfl⟩
    rcases secure.inbound _ erasedMem with ⟨awaits, version⟩
    have distinct : (ids s.c.inboundMsgs).Nodup := by
      have nodup := received.distinct
      rw [Exchange.held_inbound_ids] at nodup
      change (ids (s.c.inboundMsgs.map Messages.untouched)).Nodup at nodup
      rwa [ids_map_untouched] at nodup
    have found : findMessage s.c.inboundMsgs id = some m := by
      rw [← isId]
      exact findMessage_of_mem distinct inbound
    refine ⟨m, ?_, version, content old⟩
    have awaits' : m.qos = 2 ∧ m.nextMessageType = some .pubrel := awaits
    simp [releases, found, awaits']

theorem delivers_of_secure (idle : s.phase = .idle) (connected : s.c.connected = true) {id : Nat}
    {publish : Publish} (pending : undelivered s.c.mqttVersion id s.history = some publish)
    (accepts : Bool) :
    ∃ event, Custody.Delivers publish.content event ∧
      (step s { action := .receive (.pubrel id), accepts := accepts }).history =
        event :: s.history := by
  rcases inbound_of_undelivered secure idle pending with ⟨m, released, version, content⟩
  have old := old_of_undelivered secure idle pending
  let input : Input := { action := .receive (.pubrel id), accepts := accepts }
  let given := provide s input
  have isStep : step s input = finishInbound given m id accepts := by
    have stillIdle : given.phase = .idle := idle
    have stillConnected : given.c.connected = true := connected
    have stillReleased : releases given.c.inboundMsgs id = some m := released
    change (if given.phase = .idle then begin given input else given) = _
    rw [if_pos stillIdle]
    change (if given.c.connected then MQTTAsyncs.receive given (.pubrel id) accepts else given) = _
    rw [if_pos stillConnected]
    simp only [MQTTAsyncs.receive, responseTo, stillReleased]
  have notNew : ¬mqttVersion5 ≤ m.mqttVersion := by
    rw [version]
    exact Nat.not_le.mpr old
  rw [isStep]
  unfold finishInbound
  dsimp only
  rw [if_neg notNew]
  let passed := MQTTProtocol.publicationOf m
  let before : MQTTAsyncs := { given with
    c := MQTTProtocol.processPublication (given.c.log (.received .pubrel id)) passed }
  rcases (processes_processPublication before passed accepts).delivers with
    ⟨event, delivers, history⟩
  have same : passed = publish.content := content
  rw [same] at delivers
  exact ⟨event, delivers, history⟩

theorem redelivers_of_secure (idle : s.phase = .idle) (connected : s.c.connected = true) {id : Nat}
    {publish : Publish} (pending : undelivered s.c.mqttVersion id s.history = some publish)
    (message : Session.Message) (dup : Bool) (qos : message.qos = 2) :
    let received := Machine.run step s
      [{ action := .receive (.publish dup message id) }, { action := .advance }]
    received.phase = .idle ∧
      undelivered s.c.mqttVersion id received.history =
        some (Session.publishPacket s.c.mqttVersion message dup id) := by
  have old := old_of_undelivered secure idle pending
  let packet := Session.publishPacket s.c.mqttVersion message dup id
  let input : Input := { action := .receive (.publish dup message id) }
  let given := provide s input
  have first : step s input = { given with
      c := MQTTPacket.persistReceived given.c packet
      phase := .received packet
      history := .recorded packet :: s.history } := by
    have stillIdle : given.phase = .idle := idle
    have stillConnected : given.c.connected = true := connected
    change (if given.phase = .idle then begin given input else given) = _
    rw [if_pos stillIdle]
    change (if given.c.connected then
      MQTTAsyncs.receive given (.publish dup message id) true else given) = _
    rw [if_pos stillConnected]
    change (if message.qos = 2 then _ else _) = _
    rw [if_pos qos]
    rfl
  intro received
  let second : Input := { action := .advance }
  have isReceived : received = MQTTAsyncs.advance (provide (step s input) second) true := rfl
  have notPassed (c : Clients) : passesOn c packet = none := by
    have notNew : ¬(mqttVersion5 ≤ packet.mqttVersion ∧
        (findMessage c.inboundMsgs packet.msgId).isSome = false) :=
      fun both => absurd both.1 (Nat.not_le.mpr old)
    have isQos2 : packet.qos = 2 := qos
    simp only [passesOn, isQos2, if_neg notNew]
  have handled : received.phase = .idle ∧ received.history = .recorded packet :: s.history := by
    rw [isReceived, first]
    unfold MQTTAsyncs.advance provide handlePublishes
    dsimp only
    rw [notPassed]
    exact ⟨rfl, rfl⟩
  refine ⟨handled.1, ?_⟩
  rw [handled.2]
  unfold undelivered
  rw [if_pos]
  exact ⟨rfl, fun new => absurd old (Nat.not_lt.mpr new)⟩

theorem restores_of_secure {keys : List PersistenceKey} (restoring : s.phase = .restoring keys) :
    (Machine.run step s (List.replicate (keys.length + 1) { action := .advance })).phase =
      .idle := by
  induction keys generalizing s with
  | nil =>
      change (MQTTAsyncs.advance (provide s { action := .advance }) true).phase = .idle
      unfold MQTTAsyncs.advance
      have still : (provide s { action := .advance }).phase = .restoring [] := restoring
      rw [still]
      rfl
  | cons k keys ih =>
      let given := provide s { action := .advance }
      have still : given.phase = .restoring (k :: keys) := restoring
      have invariant : Secure given.c.exchange given.commands given.sending
          (.restoring (k :: keys)) given.history := by
        rw [restoring] at secure
        exact secure
      rcases exists_restoreKey invariant with ⟨next, isNext, after⟩
      have isStep : step s { action := .advance } =
          { given with c := next, phase := .restoring keys } := by
        change MQTTAsyncs.advance given true = _
        unfold MQTTAsyncs.advance
        rw [still]
        dsimp only
        rw [isNext]
      rw [List.length_cons, List.replicate_succ, Machine.run_cons, isStep]
      exact ih after rfl

end Durable

theorem crashDurable_of_secure
    (secure : Secure s.c.exchange s.commands s.sending s.phase s.history) : CrashDurable s where
  recorded := fun harmless _ _ pending qos => recorded_of_secure secure harmless pending qos
  willSend := fun idle _ _ pending qos => willSend_of_secure secure idle pending qos
  restores := fun _ restoring => restores_of_secure secure restoring
  delivers := fun idle connected _ _ pending accepts =>
    delivers_of_secure secure idle connected pending accepts
  redelivers := fun idle connected _ _ pending message dup qos =>
    redelivers_of_secure secure idle connected pending message dup qos

instance (c : Clients) : Decidable c.KeepsOnClose := by
  unfold Clients.KeepsOnClose
  infer_instance

instance (phase : Phase) (mqttVersion : Nat) (inbound : List Messages) :
    Decidable (phase.Harmless mqttVersion inbound) := by
  unfold Phase.Harmless
  split <;> infer_instance

instance (s : MQTTAsyncs) : Decidable s.FreeSeqno := by
  unfold MQTTAsyncs.FreeSeqno
  infer_instance

instance (s : MQTTAsyncs) : Decidable s.NoStrayRecord := by
  unfold MQTTAsyncs.NoStrayRecord
  infer_instance

instance (s : MQTTAsyncs) (input : Input) : Decidable (Meets s input) := by
  unfold Meets
  split
  · infer_instance
  · split <;> infer_instance
  · infer_instance
  · infer_instance
  · infer_instance

end AsyncSession

end Paho
