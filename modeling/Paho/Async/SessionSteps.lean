import Paho.Async.ReceiveSteps

/-!
# Connections, retries and the end of exchanges keep the invariant

The steps of the session that leave the queue of commands alone: the removal of the records of
an exchange that is over, the retry pass, the acknowledgements that waited, and the changes of
the connection.
-/

namespace Paho

open MQTTPersistence AsyncEvent AsyncSession

namespace Secure

variable {e : Exchange} {commands : List QueuedCommand} {sending : Sending}
  {keys : List PersistenceKey} {k : PersistenceKey} {msgId : Nat} {history : List AsyncEvent}

theorem commandsFiled_erase {phase : Phase} (secure : Secure e commands sending phase history)
    (keys : List PersistenceKey) :
    ∀ k record, k.stem = .command → (e.erase keys).record k = some record →
      k = key .command e.mqttVersion k.number ∧
        ∃ token message, record = .command token message := by
  intro k record stem stored
  apply secure.commandsFiled k record stem
  rw [Exchange.erase_record] at stored
  split at stored
  · cases stored
  · exact stored

theorem stem_of_mem_sent (mem : k ∈ removedKeys .publishSent msgId) :
    (k.stem = .publishSent ∨ k.stem = .pubrel) ∧ k.number = msgId := by
  unfold removedKeys at mem
  rw [if_pos rfl] at mem
  simp only [List.mem_cons, List.not_mem_nil, or_false] at mem
  rcases mem with rfl | rfl | rfl | rfl <;> simp

theorem stem_of_mem_received (mem : k ∈ removedKeys .publishReceived msgId) :
    k.stem = .publishReceived ∧ k.number = msgId := by
  unfold removedKeys at mem
  rw [if_neg Stem.noConfusion] at mem
  simp only [List.mem_cons, List.not_mem_nil, or_false] at mem
  rcases mem with rfl | rfl <;> simp

/-- One record of a finished outbound exchange is removed. -/
theorem removeSentKey (secure : Secure e commands sending (.removing (k :: keys) (.outbound msgId))
    history) : Secure (e.erase [k]) commands sending
      (.removing keys (.outbound msgId)) history := by
  rcases secure.phase with ⟨finished, inFlight, own, gone⟩
  rcases stem_of_mem_sent (own k List.mem_cons_self) with ⟨stem, number⟩
  have notReceived : ∀ n, k ≠ key .publishReceived e.mqttVersion n := by
    rintro n rfl
    rcases stem with stem | stem <;> cases stem
  have notCommand : k.stem ≠ .command := by
    rcases stem with stem | stem <;> rw [stem] <;> exact Stem.noConfusion
  have ownRest : ∀ other ∈ keys, other ∈ removedKeys .publishSent msgId :=
    fun other mem => own other (List.mem_cons_of_mem _ mem)
  by_cases isRecord : k = key .publishSent e.mqttVersion msgId
  · subst isRecord
    have erased := Exchange.held_erase_sent (e := e) msgId
    have after : custody (e.erase [key .publishSent e.mqttVersion msgId]) commands sending
        (.removing keys (.outbound msgId)) history =
          (custody e commands sending (.removing (key .publishSent e.mqttVersion msgId :: keys)
            (.outbound msgId)) history).eraseSent msgId := by
      unfold custody Custody.eraseSent
      rw [erased]
      rfl
    refine ⟨secure.persistent, ⟨secure.filed.wellKeyed.erase _, secure.filed.version⟩,
      secure.commandsFiled_erase _, secure.inbound, ?_, ?_, secure.unstored, finished,
      inFlight, ownRest, .inl ?_⟩
    · rw [after]
      exact secure.kept.eraseSent finished
    · intro _
      have consistent := secure.consistent rfl
      rw [after]
      exact ⟨consistent.queue, Custody.SentHeld.erase consistent.sent, consistent.received⟩
    · rw [erased]
      exact Function.update_self _ _ _
  · have notSent : ∀ n, k ≠ key .publishSent e.mqttVersion n := by
      rintro n rfl
      exact isRecord (congrArg (key .publishSent e.mqttVersion) number)
    have same := SameHeld.erase_other notCommand notSent notReceived
    refine secure.of_same same rfl rfl id ⟨finished, inFlight, ownRest, ?_⟩
    rw [same.held]
    rcases gone with gone | mem
    · exact .inl gone
    · rcases List.mem_cons.mp mem with isHead | later
      · exact absurd isHead.symm isRecord
      · exact .inr later

/-- One record of an inbound exchange that is over is removed. -/
theorem removeReceivedKey
    (secure : Secure e commands sending (.removing (k :: keys) (.inbound msgId)) history) :
    Secure (e.erase [k]) commands sending (.removing keys (.inbound msgId))
      (if k = key .publishReceived e.mqttVersion k.number then .released k.number :: history
        else history) := by
  rcases secure.phase with ⟨delivered, own, gone⟩
  rcases stem_of_mem_received (own k List.mem_cons_self) with ⟨stem, number⟩
  have ownRest : ∀ other ∈ keys, other ∈ removedKeys .publishReceived msgId :=
    fun other mem => own other (List.mem_cons_of_mem _ mem)
  rw [number]
  split
  next isRecord =>
    subst isRecord
    have erased := Exchange.held_erase_received (e := e) msgId
    have after : custody (e.erase [key .publishReceived e.mqttVersion msgId]) commands sending
        (.removing keys (.inbound msgId)) (.released msgId :: history) =
          (custody e commands sending (.removing (key .publishReceived e.mqttVersion msgId :: keys)
            (.inbound msgId)) history).eraseReceived msgId := by
      unfold custody Custody.eraseReceived
      rw [erased]
      rfl
    refine ⟨secure.persistent, ⟨secure.filed.wellKeyed.erase _, secure.filed.version⟩,
      secure.commandsFiled_erase _, secure.inbound, ?_, ?_, secure.unstored, delivered,
      ownRest, .inl ?_⟩
    · rw [after]
      exact secure.kept.eraseReceived delivered
    · intro _
      have consistent := secure.consistent rfl
      rw [after]
      exact ⟨consistent.queue, consistent.sent, Custody.ReceivedHeld.erase consistent.received⟩
    · rw [erased]
      exact Function.update_self _ _ _
  next other =>
    have notReceived : ∀ n, k ≠ key .publishReceived e.mqttVersion n := by
      rintro n rfl
      exact other (congrArg (key .publishReceived e.mqttVersion) number)
    have notSent : ∀ n, k ≠ key .publishSent e.mqttVersion n := by
      rintro n rfl
      cases stem
    have notCommand : k.stem ≠ .command := by
      rw [stem]
      exact Stem.noConfusion
    have same := SameHeld.erase_other notCommand notSent notReceived
    refine secure.of_same same rfl rfl id ⟨?_, ownRest, ?_⟩
    · rw [same.mqttVersion]
      exact delivered
    · rw [same.held, same.mqttVersion]
      rcases gone with gone | mem
      · exact .inl gone
      · rcases List.mem_cons.mp mem with isHead | later
        · exact absurd (by rw [isHead]) other
        · exact .inr later

/-- One PUBREL record of a session without messages in flight is removed. -/
theorem removePubrelKey
    (secure : Secure e commands sending (.removing (k :: keys) .clean) history) :
    Secure (e.erase [k]) commands sending (.removing keys .clean) history := by
  rcases secure.phase with ⟨outbound, inbound, pubrel⟩
  have stem := pubrel k List.mem_cons_self
  refine secure.of_same (.erase_other ?_ ?_ ?_) rfl rfl id
    ⟨outbound, inbound, fun other mem => pubrel other (List.mem_cons_of_mem _ mem)⟩
  · rw [stem]
    exact Stem.noConfusion
  · rintro n rfl
    cases stem
  · rintro n rfl
    cases stem

/-- A message whose records are gone leaves the list of outbound messages. -/
theorem removeOutbound
    (secure : Secure e commands sending (.removing [] (.outbound msgId)) history) :
    Secure { e with outbound := removeMessage e.outbound msgId } commands
      sending .idle history := by
  rcases secure.phase with ⟨_, _, _, gone⟩
  have consistent := secure.consistent rfl
  have removed : custody { e with outbound := removeMessage e.outbound msgId } commands sending
      .idle history =
        { custody e commands sending (.removing [] (.outbound msgId)) history with
          outbound := e.held.outbound.eraseP (·.msgId == msgId) } := by
    unfold custody
    rw [Exchange.held_removeOutbound]
    rfl
  refine ⟨secure.persistent, ⟨secure.filed.wellKeyed, ?_⟩, secure.commandsFiled, secure.inbound,
    ?_, ?_, secure.unstored, trivial⟩
  · exact fun m mem => secure.filed.version m (mem_of_mem_removeMessage mem)
  · rw [removed]
    have kept := secure.kept.of_plain (Stage.plain_finishing msgId) .steady
    exact ⟨kept.accepted, kept.undelivered3, kept.undelivered5, kept.opened, kept.packets⟩
  · intro _
    rw [removed]
    have sent : Custody.SentHeld e.held.sentRecord e.held.outbound (.finishing msgId) :=
      consistent.sent
    refine ⟨consistent.queue.removeOutbound msgId, sent.remove ?_ ?_, ?_⟩
    · exact (List.nodup_append.mp consistent.queue.tokens).2.1
    · rcases gone with gone | mem
      · exact gone
      · cases mem
    · exact consistent.received.of_plain (fun _ => Stage.noConfusion) (fun _ => Stage.noConfusion)
        .steady

/-- A message whose record is gone leaves the list of inbound messages. -/
theorem removeInbound (secure : Secure e commands sending (.removing [] (.inbound msgId)) history) :
    Secure { e with inbound := removeMessage e.inbound msgId } commands sending .idle history := by
  rcases secure.phase with ⟨_, _, gone⟩
  have consistent := secure.consistent rfl
  have removed : custody { e with inbound := removeMessage e.inbound msgId } commands sending
      .idle history =
        { custody e commands sending (.removing [] (.inbound msgId)) history with
          inbound := e.held.inbound.eraseP (·.msgId == msgId) } := by
    unfold custody
    rw [Exchange.held_removeInbound]
    rfl
  refine ⟨secure.persistent, ⟨secure.filed.wellKeyed, secure.filed.version⟩, secure.commandsFiled,
    fun m mem => secure.inbound m (mem_of_mem_removeMessage mem), ?_, ?_, secure.unstored, trivial⟩
  · rw [removed]
    have kept := secure.kept.of_plain (Stage.plain_releasing msgId) .steady
    exact ⟨kept.accepted, kept.undelivered3, kept.undelivered5, kept.opened, kept.packets⟩
  · intro _
    rw [removed]
    have received : Custody.ReceivedHeld e.mqttVersion e.held.receivedRecord e.held.inbound
        (.releasing msgId) := consistent.received
    refine ⟨consistent.queue, consistent.sent.of_stage (fun _ => Stage.noConfusion) .steady,
      received.remove ?_⟩
    rcases gone with gone | mem
    · exact gone
    · cases mem

end Secure

section Retries

variable {c : Clients} {m : Messages}

/-- A message in flight whose PUBLISH is in the store can be sent again. -/
structure CanRetry (c : Clients) (m : Messages) : Prop where
  keeps : c.KeepsOnClose
  persistent : c.exchange.persistent = true
  filed : c.exchange.Filed
  inFlight : m.untouched ∈ c.exchange.outbound
  recorded : c.exchange.held.sentRecord m.msgid = some (Exchange.publication m)

/-- The retry of a message leaves what is held and the messages in flight as they are. -/
theorem sameHeld_retryMessage (can : CanRetry c m) :
    SameHeld c.exchange (MQTTProtocol.retryMessage c m).2.exchange ∧
      (MQTTProtocol.retryMessage c m).2.exchange.outbound = c.exchange.outbound := by
  have published := steady_send_publish c (MQTTProtocol.retryPublish m) true m.qos m.retain
  have released := steady_send_ack c m.mqttVersion .pubrel m.msgid
  have version : m.mqttVersion = c.exchange.mqttVersion :=
    can.filed.version m.untouched can.inFlight
  unfold MQTTProtocol.retryMessage
  split
  next awaits =>
    have positive : m.qos ≠ 0 := by
      rcases awaits with one | two <;> omega
    have sent := exchange_send_publish c (MQTTProtocol.retryPublish m) true m.qos m.retain positive
    have same := SameHeld.retryPublish (m := m.untouched) can.persistent can.filed can.inFlight
      can.recorded (MQTTPacket.send_publish c (MQTTProtocol.retryPublish m) true m.qos m.retain).1
    rcases result : MQTTPacket.send_publish c (MQTTProtocol.retryPublish m) true m.qos m.retain
      with ⟨rc, after⟩
    rw [result] at sent same published
    have sentSame : SameHeld c.exchange after.exchange := by
      rw [sent]
      exact same
    have outbound : after.exchange.outbound = c.exchange.outbound := by
      rw [sent]
      rfl
    have resent : SameHeld c.exchange (MQTTProtocol.touch after .publish m.msgid).exchange ∧
        (MQTTProtocol.touch after .publish m.msgid).exchange.outbound = c.exchange.outbound := by
      rw [exchange_touch]
      exact ⟨sentSame.trans (.log _), outbound⟩
    cases rc with
    | complete => exact resent
    | interrupted => exact resent
    | socketError =>
        have keeps : Clients.KeepsOnClose { after with good := false } :=
          can.keeps.of_settings published.settings
        dsimp only
        rw [exchange_closeSession_keeps keeps]
        exact ⟨sentSame, outbound⟩
  next =>
    split
    next awaits =>
      have sent := exchange_send_ack c m.mqttVersion .pubrel m.msgid
      rcases result : MQTTPacket.send_ack c m.mqttVersion .pubrel m.msgid with ⟨rc, after⟩
      rw [result] at sent released
      have sentSame : SameHeld c.exchange after.exchange := by
        rw [sent]
        exact .sendAck version _ _ _
      have outbound : after.exchange.outbound = c.exchange.outbound := by
        rw [sent, Exchange.sendAck_outbound]
      have keeps : Clients.KeepsOnClose { after with good := false } :=
        can.keeps.of_settings released.settings
      have closed : SameHeld c.exchange
          (MQTTProtocol.closeSession { after with good := false }).exchange ∧
          (MQTTProtocol.closeSession { after with good := false }).exchange.outbound =
            c.exchange.outbound := by
        rw [exchange_closeSession_keeps keeps]
        exact ⟨sentSame, outbound⟩
      cases rc with
      | complete =>
          dsimp only
          rw [exchange_touch]
          exact ⟨sentSame.trans (.log _), outbound⟩
      | interrupted => exact closed
      | socketError => exact closed
    next => exact ⟨.refl _, rfl⟩

/-- One round of the loop of `MQTTProtocol_retries`. -/
theorem sameHeld_retryLoop (can : CanRetry c m) (now : Nat) (regardless : Bool) :
    SameHeld c.exchange (MQTTProtocol.retryLoop now regardless c [m]).exchange ∧
      (MQTTProtocol.retryLoop now regardless c [m]).exchange.outbound = c.exchange.outbound := by
  have counted := exchange_countSent (c := c) regardless
  have canRetry : CanRetry (MQTTProtocol.countSent c regardless) m := by
    refine ⟨can.keeps.of_settings (steady_countSent c regardless).settings, ?_, ?_, ?_, ?_⟩
    · rw [counted]
      exact can.persistent
    · rw [counted]
      exact can.filed
    · rw [counted]
      exact can.inFlight
    · rw [counted]
      exact can.recorded
  have retried := sameHeld_retryMessage canRetry
  rw [counted] at retried
  unfold MQTTProtocol.retryLoop
  split
  · split
    · rcases result : MQTTProtocol.retryMessage (MQTTProtocol.countSent c regardless) m
        with ⟨going, after⟩
      rw [result] at retried
      cases going with
      | true => exact retried
      | false => exact retried
    · exact ⟨.refl _, rfl⟩
  · exact ⟨.refl _, rfl⟩

end Retries

namespace MQTTAsyncs

variable {s : MQTTAsyncs} {msgId : Nat} {keys : List PersistenceKey} {k : PersistenceKey}

/-- A step that goes on to a phase in which nothing is held, over the same session. -/
theorem IsSecure.to_idle (secure : s.IsSecure) (idle : s.phase = .idle) {c : Clients}
    {phase : Phase} (settings : c.settings = s.c.settings) (same : SameHeld s.c.exchange c.exchange)
    (stage : phase.stage = .steady) (inHand : phase.inHand = [])
    (held : PhaseHeld c.exchange s.commands s.sending s.history phase) :
    IsSecure { s with c := c, phase := phase } := by
  have invariant := secure.secure
  rw [idle] at invariant
  exact ⟨secure.keeps.of_settings settings,
    invariant.of_same same stage inHand (fun _ => rfl) held⟩

theorem isSecure_removeKey (secure : s.IsSecure) {last : Finish}
    (removing : s.phase = .removing (k :: keys) last) :
    IsSecure { s.removeKey k with phase := .removing keys last } := by
  have invariant := secure.secure
  rw [removing] at invariant
  have erased : (s.c.removeRecords [k]).exchange = s.c.exchange.erase [k] :=
    Clients.exchange_removeRecords _ _
  have fields : ({ s.removeKey k with phase := .removing keys last } : MQTTAsyncs) =
      { s with
        c := s.c.removeRecords [k]
        phase := .removing keys last
        history :=
          if k = key .publishReceived s.c.mqttVersion k.number then .released k.number :: s.history
          else s.history } := by
    unfold removeKey
    by_cases isRecord : k = key .publishReceived s.c.mqttVersion k.number
    · have same : k = key .publishReceived (s.c.removeRecords [k]).mqttVersion k.number := isRecord
      simp only [if_pos isRecord, if_pos same]
      rfl
    · have other : k ≠ key .publishReceived (s.c.removeRecords [k]).mqttVersion k.number := isRecord
      simp only [if_neg isRecord, if_neg other]
  rw [fields]
  refine ⟨secure.keeps, ?_⟩
  dsimp only
  rw [erased]
  cases last with
  | outbound msgId =>
      rcases Secure.stem_of_mem_sent (invariant.phase.2.2.1 k List.mem_cons_self) with ⟨stem, _⟩
      rw [if_neg]
      · exact invariant.removeSentKey
      · intro same
        rw [same] at stem
        rcases stem with stem | stem <;> cases stem
  | inbound msgId => exact invariant.removeReceivedKey
  | clean =>
      have stem := invariant.phase.2.2 k List.mem_cons_self
      rw [if_neg]
      · exact invariant.removePubrelKey
      · intro same
        rw [same] at stem
        cases stem

/-- A retry pass begins. -/
theorem isSecure_retry (secure : s.IsSecure) (idle : s.phase = .idle) (now : Nat)
    (doRetry regardless : Bool) : (s.retry now doRetry regardless).IsSecure := by
  have inFlight : ∀ m ∈ s.c.outboundMsgs, m.untouched ∈ s.c.exchange.outbound :=
    fun m mem => List.mem_map_of_mem mem
  unfold retry
  split
  · exact secure
  · split
    · have closed := exchange_closeSession_keeps secure.keeps
      exact secure.of_same (steady_closeSession s.c).settings closed rfl rfl rfl rfl
    · split
      · exact secure
      · split
        · split
          · exact secure
          · split
            · exact secure.to_idle (c := { s.c with connectCount := s.c.outboundMsgs.length }) idle
                rfl (.refl _) rfl rfl inFlight
            · exact secure.to_idle (c := s.c) idle rfl (.refl _) rfl rfl inFlight
        · exact secure

theorem isSecure_retrying (secure : s.IsSecure) {now : Nat} {regardless : Bool} {m : Messages}
    {rest : List Messages} (retrying : s.phase = .retrying now regardless (m :: rest)) :
    IsSecure { s with
      c := MQTTProtocol.retryLoop now regardless s.c [m]
      phase := .retrying now regardless rest } := by
  have invariant := secure.secure
  rw [retrying] at invariant
  have inFlight := invariant.phase m List.mem_cons_self
  have sent : Custody.SentHeld s.c.exchange.held.sentRecord s.c.exchange.held.outbound .steady :=
    (invariant.consistent rfl).sent
  have recorded : s.c.exchange.held.sentRecord m.msgid = some (Exchange.publication m) :=
    sent.recorded (Exchange.publication m) (List.mem_map.mpr ⟨_, inFlight, rfl⟩) Stage.noConfusion
  have can : CanRetry s.c m :=
    ⟨secure.keeps, invariant.persistent, invariant.filed, inFlight, recorded⟩
  rcases sameHeld_retryLoop can now regardless with ⟨same, outbound⟩
  refine ⟨secure.keeps.of_settings (steady_retryLoop s.c now regardless [m]).settings,
    invariant.of_same same rfl rfl id ?_⟩
  intro other mem
  rw [outbound]
  exact invariant.phase other (List.mem_cons_of_mem _ mem)

/-- A new connection goes on with the session. -/
theorem isSecure_resumeSession (secure : s.IsSecure) (idle : s.phase = .idle) :
    s.resumeSession.IsSecure := by
  unfold resumeSession
  split
  · have touched : ({ s.c with
        outboundMsgs := s.c.outboundMsgs.map fun m => { m with lastTouch := 0 } } :
          Clients).exchange =
          s.c.exchange := Exchange.ext rfl List.map_map rfl rfl rfl rfl rfl
    have same : IsSecure { s with c := { s.c with
        outboundMsgs := s.c.outboundMsgs.map fun m => { m with lastTouch := 0 } } } :=
      secure.of_same rfl touched rfl rfl rfl rfl
    exact isSecure_retry same idle 0 true true
  · exact secure

/-- A session is only cleaned when it has no messages in flight. -/
theorem isSecure_completeConnection (secure : s.IsSecure) (idle : s.phase = .idle)
    (sessionPresent : Bool)
    (nothingLost : cleansOnConnect s.c sessionPresent = true →
      s.c.outboundMsgs = [] ∧ s.c.inboundMsgs = []) :
    (s.completeConnection sessionPresent).IsSecure := by
  let c : Clients := { s.c with connected := true, good := true, trace := .connected :: s.c.trace }
  have invariant := secure.secure
  rw [idle] at invariant
  have connected : SameHeld s.c.exchange c.exchange := .log .connected
  unfold completeConnection
  dsimp only
  split
  next cleans =>
    rcases nothingLost cleans with ⟨noOutbound, noInbound⟩
    refine secure.to_idle (c := c) idle rfl connected rfl rfl ⟨?_, ?_, ?_⟩
    · change s.c.outboundMsgs.map Messages.untouched = []
      rw [noOutbound]
      rfl
    · change s.c.inboundMsgs.map Messages.untouched = []
      rw [noInbound]
      rfl
    · intro k mem
      rcases List.mem_filter.mp mem with ⟨isKey, inflight⟩
      rcases Option.isSome_iff_exists.mp ((c.mem_recordKeys k).mp isKey) with ⟨record, stored⟩
      have stored' : s.c.exchange.record k = some record := stored
      have isKeyed := key_of_record invariant.filed.wellKeyed inflight stored'
      have files := (invariant.filed.wellKeyed k record inflight stored').2
      have consistent := invariant.consistent rfl
      have sent : Custody.SentHeld s.c.exchange.held.sentRecord s.c.exchange.held.outbound
          .steady := consistent.sent
      have received : Custody.ReceivedHeld s.c.exchange.mqttVersion
          s.c.exchange.held.receivedRecord s.c.exchange.held.inbound .steady :=
        consistent.received
      have noneOut : s.c.exchange.held.outbound = [] := by
        change (s.c.outboundMsgs.map _).map _ = []
        rw [noOutbound]
        rfl
      have noneIn : s.c.exchange.held.inbound = [] := by
        change (s.c.inboundMsgs.map _).map _ = []
        rw [noInbound]
        rfl
      cases record with
      | publish packet =>
          exfalso
          rcases files.1 with isSent | ⟨isReceived, _⟩
          · rw [isSent] at isKeyed
            have recorded : s.c.exchange.held.sentRecord k.number = some packet.content := by
              change (s.c.exchange.record (key .publishSent s.c.exchange.mqttVersion
                k.number)).bind Record.publish? = _
              rw [← isKeyed, stored']
              rfl
            rw [noneOut] at sent
            cases (sent.record _ _ recorded).1
          · rw [isReceived] at isKeyed
            have recorded : s.c.exchange.held.receivedRecord k.number = some packet.content := by
              change (s.c.exchange.record (key .publishReceived s.c.exchange.mqttVersion
                k.number)).bind Record.publish? = _
              rw [← isKeyed, stored']
              rfl
            rw [noneIn] at received
            rcases received.record _ _ recorded with ⟨_, isNew, _⟩ | ⟨_, mem, _⟩
            · cases isNew
            · cases mem
      | pubrel msgId => exact files.1
      | command token message => exact files.elim
      | queue publish => exact files.elim
      | unreadable => exact files.elim
  next =>
    refine isSecure_resumeSession ?_ idle
    have after : IsSecure { s with c := c, phase := .idle } :=
      secure.to_idle (c := c) idle rfl connected rfl rfl trivial
    rw [← idle] at after
    exact after

theorem isSecure_finish (secure : s.IsSecure) {last : Finish}
    (removing : s.phase = .removing [] last) : (s.finish last).IsSecure := by
  have invariant := secure.secure
  rw [removing] at invariant
  cases last with
  | outbound msgId =>
      refine ⟨secure.keeps, ?_⟩
      have removed := invariant.removeOutbound
      have same : { s.c.exchange with outbound := removeMessage s.c.exchange.outbound msgId } =
          ({ s.c with outboundMsgs := removeMessage s.c.outboundMsgs msgId } : Clients).exchange :=
        Exchange.ext rfl removeMessage_map_untouched rfl rfl rfl rfl rfl
      rw [same] at removed
      exact removed
  | inbound msgId =>
      have removed := invariant.removeInbound
      have same : { s.c.exchange with inbound := removeMessage s.c.exchange.inbound msgId } =
          ({ s.c with inboundMsgs := removeMessage s.c.inboundMsgs msgId } : Clients).exchange :=
        Exchange.ext rfl rfl removeMessage_map_untouched rfl rfl rfl rfl
      rw [same] at removed
      have after : SameHeld _ _ := .acknowledges (acknowledge_acknowledges
        { s.c with inboundMsgs := removeMessage s.c.inboundMsgs msgId } s.c.mqttVersion .pubcomp
        msgId rfl)
      exact ⟨secure.keeps.of_settings (steady_acknowledge _ _ _ _).settings,
        removed.of_same after rfl rfl id trivial⟩
  | clean =>
      rcases invariant.phase with ⟨outbound, inbound, _⟩
      refine isSecure_resumeSession ?_ rfl
      refine ⟨secure.keeps, invariant.of_same ?_ rfl rfl id trivial⟩
      have same : ({ s.c with
          inboundMsgs := []
          outboundMsgs := []
          msgID := 0
          trace := .sessionCleaned :: s.c.trace } : Clients).exchange =
            s.c.exchange.log .sessionCleaned :=
        Exchange.ext rfl outbound.symm inbound.symm rfl rfl rfl rfl
      rw [same]
      exact .log _

theorem isSecure_sendingAcks (secure : s.IsSecure) {remaining : List AckRequest}
    (sending : s.phase = .sendingAcks remaining) (accepts : Bool) :
    (s.advance accepts).IsSecure := by
  have invariant := secure.secure
  rw [sending] at invariant
  unfold advance
  rw [sending]
  cases remaining with
  | nil => exact ⟨secure.keeps, invariant.of_same .dropQueue rfl rfl id trivial⟩
  | cons ackReq rest =>
      have sent := exchange_send_ack s.c s.c.mqttVersion ackReq.ackType ackReq.messageId
      have steady := steady_send_ack s.c s.c.mqttVersion ackReq.ackType ackReq.messageId
      dsimp only
      rcases result : MQTTPacket.send_ack s.c s.c.mqttVersion ackReq.ackType ackReq.messageId
        with ⟨rc, after⟩
      rw [result] at sent steady
      have same : SameHeld s.c.exchange after.exchange := by
        rw [sent]
        exact .sendAck rfl _ _ _
      cases rc <;>
        exact ⟨secure.keeps.of_settings steady.settings, invariant.of_same same rfl rfl id trivial⟩

end MQTTAsyncs

end Paho
