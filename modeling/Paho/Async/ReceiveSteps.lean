import Paho.Async.QueueSteps

/-!
# Packets from the server keep the invariant

A received PUBLISH is put in the store, then handled; PUBREL passes it on before its record goes.
The packet that ends an outbound exchange is handled before the records of the exchange go.
-/

namespace Paho

open MQTTPersistence AsyncEvent AsyncSession

namespace Secure

variable {e e' : Exchange} {commands : List QueuedCommand} {sending : Sending} {phase : Phase}
  {history : List AsyncEvent}

/-- A publication goes to the application or to its queue. -/
theorem deliver (secure : Secure e commands sending phase history) {publish : Publish}
    {event : AsyncEvent} (delivers : Custody.Delivers publish event) :
    Secure e commands sending phase (event :: history) where
  persistent := secure.persistent
  filed := secure.filed
  commandsFiled := secure.commandsFiled
  inbound := secure.inbound
  kept := secure.kept.deliver delivers
  consistent := fun isCreated =>
    have consistent := secure.consistent isCreated
    ⟨consistent.queue, consistent.sent, consistent.received⟩
  unstored := secure.unstored
  phase := by
    have held := secure.phase
    have stays (id : Nat) (none : undelivered e.mqttVersion id history = none) :
        undelivered e.mqttVersion id (event :: history) = .none := by
      rw [delivers.undelivered]
      split
      · rfl
      · exact none
    cases phase with
    | received publish =>
        exact ⟨held.1, held.2.1, held.2.2.1, fun version mem => stays _ (held.2.2.2 version mem)⟩
    | removing keys last =>
        cases last with
        | outbound msgId =>
            refine ⟨?_, held.2⟩
            intro message pending
            rw [delivers.unfinished] at pending
            exact held.1 message pending
        | inbound msgId => exact ⟨fun version => stays _ (held.1 version), held.2⟩
        | clean => exact held
    | _ => exact held

/-- A PUBLISH of QoS 2 is put in the store. -/
theorem record (secure : Secure e commands sending .idle history) {publish : Publish}
    (packet : ∃ dup message msgId,
      publish = Session.publishPacket e.mqttVersion message dup msgId)
    (qos : publish.qos = 2) :
    Secure (e.persistReceived publish) commands sending (.received publish)
      (.recorded publish :: history) := by
  have version : publish.mqttVersion = e.mqttVersion := by
    rcases packet with ⟨dup, message, msgId, rfl⟩
    rfl
  have put : (e.persistReceived publish).held =
      { e.held with
        receivedRecord :=
          Function.update e.held.receivedRecord publish.msgId (some publish.content) } := by
    rw [← Exchange.held_put_received secure.persistent, ← version]
    rfl
  have recorded : custody (e.persistReceived publish) commands sending (.received publish)
      (.recorded publish :: history) =
        (custody e commands sending .idle history).record publish := by
    unfold custody Custody.record
    rw [put]
    rfl
  have consistent := secure.consistent rfl
  refine ⟨secure.persistent, secure.filed.persistReceived version qos, ?_, secure.inbound, ?_, ?_,
    secure.unstored, packet, qos, ?_, ?_⟩
  · intro k record stem stored
    apply secure.commandsFiled k record stem
    rw [Exchange.persistReceived_record, if_neg] at stored
    · exact stored
    · rintro ⟨_, rfl⟩
      cases stem
  · rw [recorded]
    apply secure.kept.record
    rcases packet with ⟨dup, message, msgId, rfl⟩
    exact ⟨message, msgId, rfl⟩
  · intro _
    rw [recorded]
    exact ⟨consistent.queue, consistent.sent.of_stage (fun _ => Stage.noConfusion) _,
      consistent.received.put publish⟩
  · rw [put]
    exact Function.update_self _ _ _
  · intro new mem
    apply Custody.undelivered_record secure.kept new
    rw [← Exchange.held_inbound_ids] at mem
    rcases List.mem_map.mp mem with ⟨m, inbound, id⟩
    rw [← id]
    exact consistent.received.recorded m inbound Stage.noConfusion

/-- A received PUBLISH is kept in the list of inbound messages, and delivered if it has to be. -/
theorem handled {publish : Publish} {m : Messages}
    (secure : Secure e commands sending (.received publish) history)
    (awaits : Exchange.AwaitsInboundPubrel m ∧ m.mqttVersion = e.mqttVersion)
    (id : m.msgid = publish.msgId)
    (content : e.mqttVersion < mqttVersion5 → MQTTProtocol.publicationOf m = publish.content)
    (delivered : mqttVersion5 ≤ e.mqttVersion →
      undelivered e.mqttVersion publish.msgId history = none) :
    Secure (e.storeInbound m) commands sending .idle history := by
  have held := secure.phase
  have consistent := secure.consistent rfl
  have distinct : (ids e.inbound).Nodup := by
    rw [← Exchange.held_inbound_ids]
    exact consistent.received.distinct
  have mem_iff (other : Messages) : other ∈ (e.storeInbound m).inbound ↔
      (other ∈ e.inbound ∧ other.msgid ≠ m.msgid) ∨ other = m :=
    Exchange.mem_storeInbound distinct
  have isHeld : (e.storeInbound m).held =
      { e.held with
        inbound := (e.storeInbound m).inbound.map MQTTProtocol.publicationOf } := by
    unfold Exchange.storeInbound
    split <;> rfl
  have stored : custody (e.storeInbound m) commands sending .idle history =
      { custody e commands sending (.received publish) history with
        inbound := (e.storeInbound m).inbound.map MQTTProtocol.publicationOf } := by
    unfold custody
    rw [isHeld]
    rfl
  refine ⟨by simpa using secure.persistent, secure.filed.storeInbound m, ?_, ?_, ?_, ?_,
    secure.unstored, trivial⟩
  · simpa using secure.commandsFiled
  · intro other mem
    rw [Exchange.storeInbound_mqttVersion]
    rcases (mem_iff other).mp mem with ⟨old, _⟩ | rfl
    · exact secure.inbound other old
    · exact awaits
  · rw [stored]
    have kept := secure.kept.handled delivered
    exact ⟨kept.accepted, kept.undelivered3, kept.undelivered5, kept.opened, kept.packets⟩
  · intro _
    rw [stored]
    have recorded : e.held.receivedRecord publish.msgId = some publish.content := held.2.2.1
    have received : Custody.ReceivedHeld e.mqttVersion e.held.receivedRecord e.held.inbound
        (.received publish) := consistent.received
    refine ⟨consistent.queue, consistent.sent.of_stage (fun _ => Stage.noConfusion) _, ?_⟩
    apply received.keep (m := MQTTProtocol.publicationOf m) id
    · rw [recorded]
      rfl
    · intro old
      rw [content old]
      exact recorded
    · have nodup := Exchange.storeInbound_nodup (m := m) distinct
      unfold ids at nodup
      rw [List.map_map]
      exact nodup
    · intro other
      constructor
      · intro mem
        rcases List.mem_map.mp mem with ⟨source, stored, rfl⟩
        rcases (mem_iff source).mp stored with ⟨old, different⟩ | rfl
        · exact .inl ⟨List.mem_map_of_mem old, fun same => different (same.trans id.symm)⟩
        · exact .inr rfl
      · rintro (⟨old, different⟩ | rfl)
        · rcases List.mem_map.mp old with ⟨source, inbound, rfl⟩
          refine List.mem_map_of_mem ((mem_iff source).mpr (.inl ⟨inbound, ?_⟩))
          intro same
          exact different (same.trans id)
        · exact List.mem_map_of_mem ((mem_iff m).mpr (.inr rfl))

/-- The message that PUBREL releases is passed on, if it has to be, before its record goes. -/
theorem release (secure : Secure e commands sending .idle history) {msgId : Nat}
    (delivered : e.mqttVersion < mqttVersion5 →
      undelivered e.mqttVersion msgId history = none) :
    Secure e commands sending
      (.removing (removedKeys .publishReceived msgId) (.inbound msgId)) history where
  persistent := secure.persistent
  filed := secure.filed
  commandsFiled := secure.commandsFiled
  inbound := secure.inbound
  kept := secure.kept.of_plain Stage.plain_steady _
  consistent := fun _ => (secure.consistent rfl).of_steady _
  unstored := secure.unstored
  phase := ⟨delivered, fun _ mem => mem,
    .inr (Exchange.receivedKey_mem_removedKeys.mpr ⟨rfl, rfl⟩)⟩

theorem sentKey_mem_removedKeys (mqttVersion msgId : Nat) :
    key .publishSent mqttVersion msgId ∈ removedKeys .publishSent msgId := by
  unfold key removedKeys
  generalize decide (mqttVersion5 ≤ mqttVersion) = v5
  cases v5 <;> simp

/-- The packet that ends an outbound exchange is handled. -/
theorem finish (secure : Secure e commands sending .idle history) {msgId : Nat} (event : Event)
    (inFlight : msgId ∈ ids e.outbound) :
    Secure (e.log event) commands sending
      (.removing (removedKeys .publishSent msgId) (.outbound msgId))
      (.finished msgId :: history) where
  persistent := secure.persistent
  filed := secure.filed.log event
  commandsFiled := secure.commandsFiled
  inbound := secure.inbound
  kept := secure.kept.finish msgId
  consistent := fun _ =>
    have consistent := (secure.consistent rfl).of_steady (.finishing msgId)
    ⟨consistent.queue, consistent.sent, consistent.received⟩
  unstored := secure.unstored
  phase := by
    refine ⟨?_, inFlight, fun _ mem => mem, .inr (sentKey_mem_removedKeys _ _)⟩
    intro message pending
    unfold unfinished at pending
    rw [if_pos rfl] at pending
    cases pending

end Secure

section Packets

variable {c : Clients}

theorem storeInbound_log (e : Exchange) (event : Event) (m : Messages) :
    (e.log event).storeInbound m = (e.storeInbound m).log event := by
  unfold Exchange.storeInbound
  split
  next found =>
    have found' : (findMessage e.inbound m.msgid).isSome = true := found
    rw [if_pos found']
    rfl
  next absent =>
    have absent' : ¬(findMessage e.inbound m.msgid).isSome = true := absent
    rw [if_neg absent']
    rfl

/-- A PUBLISH that is no publication of QoS 2 leaves what is held as it is. -/
theorem sameHeld_handlePublishes {publish : Publish} (qos : publish.qos ≠ 2)
    (version : publish.mqttVersion = c.mqttVersion) :
    SameHeld c.exchange (MQTTProtocol.handlePublishes c publish).2.exchange := by
  have received := SameHeld.log (e := c.exchange) (.receivedPublish publish)
  have processed := received.trans (.log (.processed publish))
  unfold MQTTProtocol.handlePublishes
  dsimp only
  split
  · exact processed
  · have same : (MQTTProtocol.processPublication (c.log (.receivedPublish publish))
        publish).exchange = _ := rfl
    exact processed.trans (.acknowledges (acknowledges_of_exchange _ same version _ _))
  next isQos2 => exact absurd isQos2 qos
  · exact received

/-- The message that `MQTTProtocol_handlePublishes` keeps of a PUBLISH of QoS 2. -/
def keptMessage (c : Clients) (publish : Publish) : Messages :=
  if mqttVersion5 ≤ publish.mqttVersion ∧
      (findMessage c.inboundMsgs publish.msgId).isSome = false then
    { MQTTProtocol.receivedMessage publish with publish := none }
  else MQTTProtocol.receivedMessage publish

/-- A PUBLISH of QoS 2 is kept in the list of inbound messages. -/
theorem sameHeld_handlePublishes_qos2 {publish : Publish} (qos : publish.qos = 2)
    (version : publish.mqttVersion = c.mqttVersion) :
    SameHeld (c.exchange.storeInbound (keptMessage c publish))
      (MQTTProtocol.handlePublishes c publish).2.exchange := by
  have stored (m : Messages) :
      (MQTTProtocol.storeInbound (c.log (.receivedPublish publish)) m).exchange =
        (c.exchange.storeInbound m.untouched).log (.receivedPublish publish) := by
    rw [exchange_storeInbound, Clients.exchange_log, storeInbound_log]
  unfold MQTTProtocol.handlePublishes
  simp only [qos]
  split
  next delivered =>
    have isKept : keptMessage c publish =
        { MQTTProtocol.receivedMessage publish with publish := none } := if_pos delivered
    rw [isKept]
    let passed := MQTTProtocol.publicationOf (MQTTProtocol.receivedMessage publish)
    refine .trans (.trans (.log (.receivedPublish publish)) (.log (.processed passed)))
      (.acknowledges (acknowledges_of_exchange _ ?_ ?_ _ _))
    · rw [MQTTProtocol.processPublication, Clients.exchange_log, stored]
      rfl
    · exact version.trans (Exchange.storeInbound_mqttVersion c.exchange _).symm
  next known =>
    have isKept : keptMessage c publish = MQTTProtocol.receivedMessage publish := if_neg known
    rw [isKept]
    refine .trans (.log (.receivedPublish publish))
      (.acknowledges (acknowledges_of_exchange _ (stored (MQTTProtocol.receivedMessage publish))
        ?_ _ _))
    exact version.trans (Exchange.storeInbound_mqttVersion c.exchange _).symm

/-- An acknowledgement that does not end its exchange leaves what is held as it is. -/
theorem sameHeld_receive {packet : Session.Packet}
    (outbound : (∃ id, packet = .puback id) ∨ (∃ id rc, packet = .pubrec id rc) ∨
      ∃ id, packet = .pubcomp id)
    (notEnds : MQTTAsyncs.ends c.mqttVersion c.outboundMsgs packet = none) :
    SameHeld c.exchange (Session.receive c packet).exchange := by
  have handles := handles_receive (c := c) packet
  generalize (Session.receive c packet).exchange = after at handles ⊢
  rcases outbound with ⟨id, rfl⟩ | ⟨id, rc, rfl⟩ | ⟨id, rfl⟩
  · cases handles with
    | pubackIgnored => exact .log _
    | puback found qos =>
        rcases of_findMessage_outbound found with ⟨m, inFlight, rfl⟩
        have qos' : m.qos = 1 := qos
        simp [MQTTAsyncs.ends, inFlight, qos'] at notEnds
  · cases handles with
    | pubrecUnexpected _ acknowledges => exact .trans (.log _) (.acknowledges acknowledges)
    | pubrecError found awaits version error =>
        rcases of_findMessage_outbound found with ⟨m, inFlight, rfl⟩
        have awaits' : m.qos = 2 ∧ m.nextMessageType = some .pubrec := awaits
        have version' : mqttVersion5 ≤ c.mqttVersion := version
        simp [MQTTAsyncs.ends, inFlight, awaits', version', error] at notEnds
    | pubrec _ _ acknowledges =>
        exact .trans (.trans (.log _) (.acceptPubrec _)) (.acknowledges acknowledges)
  · cases handles with
    | pubcompUnexpected => exact .log _
    | pubcomp found awaits =>
        rcases of_findMessage_outbound found with ⟨m, inFlight, rfl⟩
        have awaits' : m.qos = 2 ∧ m.nextMessageType = some .pubcomp := awaits
        simp [MQTTAsyncs.ends, inFlight, awaits'] at notEnds

/-- PUBREL for a message that does not wait for it. -/
theorem sameHeld_receive_pubrel {msgId : Nat}
    (notReleased : MQTTAsyncs.releases c.inboundMsgs msgId = none) :
    SameHeld c.exchange (Session.receive c (.pubrel msgId)).exchange := by
  have handles := handles_receive (c := c) (.pubrel msgId)
  generalize (Session.receive c (.pubrel msgId)).exchange = after at handles ⊢
  cases handles with
  | pubrelUnexpected _ acknowledges => exact .trans (.log _) (.acknowledges acknowledges)
  | pubrel found awaits =>
      rw [findMessage_inbound, Option.map_eq_some_iff] at found
      rcases found with ⟨m, isKept, rfl⟩
      have awaits' : m.qos = 2 ∧ m.nextMessageType = some .pubrel := awaits
      simp [MQTTAsyncs.releases, isKept, awaits'] at notReleased

end Packets

namespace MQTTAsyncs

variable {s : MQTTAsyncs} {publish : Publish}

/-- What `Protocol_processPublication` changes. -/
structure Processes (publish : Publish) (s s' : MQTTAsyncs) : Prop where
  delivers : ∃ event, Custody.Delivers publish event ∧ s'.history = event :: s.history
  same : SameHeld s.c.exchange s'.c.exchange
  settings : s'.c.settings = s.c.settings
  commands : s'.commands = s.commands
  sending : s'.sending = s.sending
  phase : s'.phase = s.phase

theorem persistQueueEntry_spec (s : MQTTAsyncs) (publish : Publish) :
    SameHeld s.c.exchange (s.persistQueueEntry publish).1.c.exchange ∧
      (s.persistQueueEntry publish).1.c.settings = s.c.settings ∧
      (s.persistQueueEntry publish).1.commands = s.commands ∧
      (s.persistQueueEntry publish).1.sending = s.sending ∧
      (s.persistQueueEntry publish).1.phase = s.phase ∧
      (s.persistQueueEntry publish).1.history = s.history := by
  unfold persistQueueEntry
  split
  · dsimp only
    split
    · exact ⟨.refl _, rfl, rfl, rfl, rfl, rfl⟩
    · refine ⟨?_, rfl, rfl, rfl, rfl, rfl⟩
      have put := SameHeld.put_queue (e := s.c.exchange) (nextSeqno s.qentrySeqno) publish
      rw [← Clients.exchange_putRecord] at put
      exact put
  · exact ⟨.refl _, rfl, rfl, rfl, rfl, rfl⟩

theorem processes_processPublication (s : MQTTAsyncs) (publish : Publish) (accepts : Bool) :
    Processes publish s (s.processPublication publish accepts) := by
  unfold processPublication
  split
  · exact ⟨⟨_, .inl rfl, rfl⟩, .refl _, rfl, rfl, rfl, rfl⟩
  · rcases persistQueueEntry_spec s publish with
      ⟨same, settings, commands, sending, phase, history⟩
    exact ⟨⟨.queued publish, .inr rfl, congrArg (AsyncEvent.queued publish :: ·) history⟩, same,
      settings, commands, sending, phase⟩

/-- The handling of a PUBLISH that is no publication of QoS 2. -/
theorem isSecure_handlePublishes (secure : s.IsSecure) (idle : s.phase = .idle)
    (version : publish.mqttVersion = s.c.mqttVersion) (qos : publish.qos ≠ 2) (accepts : Bool) :
    (s.handlePublishes publish accepts).IsSecure := by
  have invariant := secure.secure
  rw [idle] at invariant
  have handled : IsSecure
      { s with c := (MQTTProtocol.handlePublishes s.c publish).2, phase := .idle } :=
    ⟨secure.keeps.of_settings (steady_handlePublishes s.c publish).settings,
      invariant.of_same (sameHeld_handlePublishes qos version) rfl rfl id trivial⟩
  unfold handlePublishes
  dsimp only
  split
  next passed _ =>
    have processes := processes_processPublication
      { s with c := (MQTTProtocol.handlePublishes s.c publish).2, phase := .idle } passed accepts
    generalize processPublication _ passed accepts = after at processes ⊢
    rcases processes with ⟨⟨event, delivers, history⟩, same, settings, commands, sending, phase⟩
    refine ⟨handled.keeps.of_settings settings, ?_⟩
    rw [commands, sending, phase, history]
    exact (handled.secure.deliver delivers).of_same same rfl rfl id trivial
  · exact handled

/-- The handling of a PUBLISH of QoS 2 that is in the store. -/
theorem isSecure_handleReceived (secure : s.IsSecure) (received : s.phase = .received publish)
    (accepts : Bool) : (s.handlePublishes publish accepts).IsSecure := by
  have invariant := secure.secure
  rw [received] at invariant
  rcases invariant.phase with ⟨⟨dup, message, msgId, packet⟩, qos, recorded, known⟩
  have version : publish.mqttVersion = s.c.mqttVersion := by
    rw [packet]
    rfl
  have kept := sameHeld_handlePublishes_qos2 (c := s.c) qos version
  have settings := (steady_handlePublishes s.c publish).settings
  have content : MQTTProtocol.publicationOf (MQTTProtocol.receivedMessage publish) =
      publish.content := by
    rw [packet]
    exact MQTTProtocol.publicationOf_receivedMessage _ message dup msgId
  have awaits : Exchange.AwaitsInboundPubrel (keptMessage s.c publish) ∧
      (keptMessage s.c publish).mqttVersion = s.c.exchange.mqttVersion := by
    unfold keptMessage
    split <;> exact ⟨⟨qos, rfl⟩, version⟩
  have id : (keptMessage s.c publish).msgid = publish.msgId := by
    unfold keptMessage
    split <;> rfl
  have keptContent : s.c.exchange.mqttVersion < mqttVersion5 →
      MQTTProtocol.publicationOf (keptMessage s.c publish) = publish.content := by
    intro old
    have notNew : ¬mqttVersion5 ≤ publish.mqttVersion := by
      rw [version]
      exact Nat.not_le.mpr old
    unfold keptMessage
    rw [if_neg fun both => notNew both.1]
    exact content
  unfold handlePublishes
  dsimp only
  by_cases passes : mqttVersion5 ≤ publish.mqttVersion ∧
      (findMessage s.c.inboundMsgs publish.msgId).isSome = false
  · have passed : passesOn s.c publish = some publish.content := by
      simp [passesOn, qos, passes, content]
    rw [passed]
    have processes := processes_processPublication
      { s with c := (MQTTProtocol.handlePublishes s.c publish).2, phase := .idle }
      publish.content accepts
    dsimp only
    generalize processPublication _ publish.content accepts = after at processes ⊢
    rcases processes with ⟨⟨event, delivers, history⟩, same, later, commands, sending, phase⟩
    refine ⟨(secure.keeps.of_settings settings).of_settings later, ?_⟩
    rw [commands, sending, phase, history]
    refine ((invariant.deliver delivers).handled awaits id keptContent ?_).of_same
      (kept.trans same) rfl rfl (fun _ => rfl) trivial
    intro new
    rw [delivers.undelivered, if_pos ⟨rfl, qos⟩]
  · have notPassed : passesOn s.c publish = none := by
      simp only [passesOn, qos, if_neg passes]
    rw [notPassed]
    refine ⟨secure.keeps.of_settings settings, ?_⟩
    refine (invariant.handled awaits id keptContent ?_).of_same kept rfl rfl (fun _ => rfl) trivial
    intro new
    apply known new
    have found : (findMessage s.c.inboundMsgs publish.msgId).isSome = true := by
      by_contra absent
      refine passes ⟨version ▸ new, by simpa using absent⟩
    have isMem := (Option.isSome_map (f := Messages.untouched)
      (x := findMessage s.c.inboundMsgs publish.msgId)).trans found
    rw [← findMessage_inbound] at isMem
    by_contra absent
    rw [findMessage_eq_none.mpr absent] at isMem
    cases isMem

/-- A message that ends its exchange is in flight. -/
theorem mem_of_ends {mqttVersion msgId : Nat} {outbound : List Messages}
    {packet : Session.Packet} (ended : ends mqttVersion outbound packet = some msgId) :
    msgId ∈ ids outbound := by
  have found {id : Nat} (isSome : (findMessage outbound id).isSome = true) : id ∈ ids outbound := by
    by_contra absent
    rw [findMessage_eq_none.mpr absent] at isSome
    cases isSome
  unfold ends at ended
  cases packet <;> dsimp only at ended
  case publish => cases ended
  case pubrel => cases ended
  all_goals
    split at ended
    next m inFlight =>
      split at ended
      · cases ended
        apply found
        rw [inFlight]
        rfl
      · cases ended
    next => cases ended

theorem isSecure_finishOutbound (secure : s.IsSecure) (idle : s.phase = .idle)
    {packet : Session.Packet} {msgId : Nat}
    (ended : ends s.c.mqttVersion s.c.outboundMsgs packet = some msgId) :
    (s.finishOutbound packet msgId).IsSecure := by
  have invariant := secure.secure
  rw [idle] at invariant
  have inFlight : msgId ∈ ids s.c.exchange.outbound := by
    rw [show s.c.exchange.outbound = s.c.outboundMsgs.map Messages.untouched from rfl,
      ids_map_untouched]
    exact mem_of_ends ended
  exact ⟨secure.keeps, invariant.finish (arrival s.c.mqttVersion packet) inFlight⟩

theorem isSecure_finishInbound (secure : s.IsSecure) (idle : s.phase = .idle) {m : Messages}
    {msgId : Nat} (released : releases s.c.inboundMsgs msgId = some m) (accepts : Bool) :
    (s.finishInbound m msgId accepts).IsSecure := by
  have invariant := secure.secure
  rw [idle] at invariant
  rcases Option.filter_eq_some_iff.mp released with ⟨found, awaits⟩
  have awaits' : m.qos = 2 ∧ m.nextMessageType = some .pubrel := by simpa using awaits
  rcases findMessage_mem found with ⟨mem, isId⟩
  have version : m.mqttVersion = s.c.mqttVersion :=
    (invariant.inbound m.untouched (List.mem_map_of_mem mem)).2
  have logged : Secure (s.c.log (.received .pubrel msgId)).exchange s.commands s.sending .idle
      s.history := invariant.of_same (.log _) rfl rfl id trivial
  unfold finishInbound
  dsimp only
  split
  next new =>
    refine ⟨secure.keeps, logged.release ?_⟩
    intro old
    have old' : s.c.mqttVersion < mqttVersion5 := old
    rw [version] at new
    omega
  next =>
    let passed := MQTTProtocol.publicationOf m
    let before := { s with
      c := MQTTProtocol.processPublication (s.c.log (.received .pubrel msgId)) passed }
    have processes := processes_processPublication before passed accepts
    generalize processPublication _ _ accepts = after at processes ⊢
    rcases processes with ⟨⟨event, delivers, history⟩, same, settings, commands, sending, phase⟩
    refine ⟨secure.keeps.of_settings settings, ?_⟩
    have delivered := (logged.deliver delivers).of_same
      (.trans (.log (.processed passed)) same) rfl rfl (fun h => h) trivial
    dsimp only
    rw [commands, sending, history]
    apply delivered.release
    intro _
    rw [delivers.undelivered, if_pos ⟨isId, awaits'.1⟩]

/-- An acknowledgement that ends nothing changes what is held in no record. -/
theorem isSecure_acknowledged (secure : s.IsSecure) (idle : s.phase = .idle)
    {packet : Session.Packet} (responses : List Nat)
    (same : SameHeld s.c.exchange (Session.receive s.c packet).exchange) :
    IsSecure { s with responses := responses, c := Session.receive s.c packet } := by
  refine ⟨secure.keeps.of_settings (steady_receive s.c packet).settings, ?_⟩
  have invariant := secure.secure
  rw [idle] at invariant
  change Secure (Session.receive s.c packet).exchange s.commands s.sending s.phase s.history
  rw [idle]
  exact invariant.of_same same rfl rfl id trivial

/-- An acknowledgement of a message that was sent. -/
theorem isSecure_ending (secure : s.IsSecure) (idle : s.phase = .idle) {packet : Session.Packet}
    (responses : List Nat) (outbound : (∃ id, packet = .puback id) ∨
      (∃ id rc, packet = .pubrec id rc) ∨ ∃ id, packet = .pubcomp id) :
    IsSecure (match ends s.c.mqttVersion s.c.outboundMsgs packet with
      | some msgId => finishOutbound { s with responses := responses } packet msgId
      | none => { s with responses := responses, c := Session.receive s.c packet }) := by
  have answered : IsSecure { s with responses := responses } :=
    secure.of_same rfl rfl rfl rfl rfl rfl
  split
  next ended => exact isSecure_finishOutbound answered idle ended
  next notEnded =>
    exact isSecure_acknowledged secure idle responses (sameHeld_receive outbound notEnded)

/-- A packet is handled after its response was taken off the list. -/
theorem isSecure_receive (secure : s.IsSecure) (idle : s.phase = .idle)
    (packet : Session.Packet) (accepts : Bool) : (s.receive packet accepts).IsSecure := by
  unfold receive
  cases packet with
  | publish dup message msgId =>
      change IsSecure (if message.qos = 2 then _ else _)
      by_cases qos : message.qos = 2
      · rw [if_pos qos]
        have invariant := secure.secure
        rw [idle] at invariant
        refine ⟨secure.keeps.of_settings (steady_persistReceived s.c _).settings, ?_⟩
        have recorded := invariant.record ⟨dup, message, msgId, rfl⟩ qos
        rw [← exchange_persistReceived qos] at recorded
        exact recorded
      · rw [if_neg qos]
        exact isSecure_handlePublishes secure idle rfl qos accepts
  | pubrel msgId =>
      simp only [responseTo]
      split
      next released => exact isSecure_finishInbound secure idle released accepts
      next notReleased =>
        exact isSecure_acknowledged secure idle s.responses (sameHeld_receive_pubrel notReleased)
  | puback msgId => exact isSecure_ending secure idle _ (.inl ⟨msgId, rfl⟩)
  | pubrec msgId rc =>
      by_cases error : mqttVersion5 ≤ s.c.mqttVersion ∧ reasonCodeUnspecifiedError ≤ rc
      · simp only [responseTo, if_pos error]
        exact isSecure_ending secure idle _ (.inr (.inl ⟨msgId, rc, rfl⟩))
      · simp only [responseTo, if_neg error]
        exact isSecure_ending secure idle s.responses (.inr (.inl ⟨msgId, rc, rfl⟩))
  | pubcomp msgId => exact isSecure_ending secure idle _ (.inr (.inr ⟨msgId, rfl⟩))

/-- A message of the queue is passed to the application. -/
theorem isSecure_deliverQueued (secure : s.IsSecure) (accepts : Bool) (idle : s.phase = .idle) :
    (s.deliverQueued accepts).IsSecure := by
  unfold deliverQueued
  split
  · exact secure
  next entry rest queue =>
    split
    · refine ⟨secure.keeps, ?_⟩
      have same : SameHeld s.c.exchange
          (s.c.removeRecords [s.queueKey entry.seqno]).exchange := by
        rw [Clients.exchange_removeRecords]
        refine .erase_other (k := s.queueKey entry.seqno) Stem.noConfusion ?_ ?_
        · intro n isKey
          cases isKey
        · intro n isKey
          cases isKey
      have invariant := secure.secure
      rw [idle] at invariant
      have delivers : Custody.Delivers entry.publish (.passed entry.publish) := .inl rfl
      have delivered := (invariant.deliver delivers).of_same same rfl rfl id trivial
      rw [← idle] at delivered
      exact delivered
    · exact secure

end MQTTAsyncs

end Paho
