import Paho.Library.Run
import Paho.Protocol.ReceiveMaximum

/-!
# Runs under a Receive Maximum

Every step of the session, seen from the flow control: a step on a connection ends it or spends what
the connection has left; without a connection nothing is sent.
-/

namespace Paho

open Machine Relation

/-! ## Steps of the session -/

namespace Session

/-- The connection is closed, or it is not and the session was not cleaned. -/
def Settles (c c' : Clients) : Prop :=
  Closed c' ∨ c'.connected = true ∧ c'.cleanings = c.cleanings

variable {c c' : Clients}

theorem Settles.of_alike {before : Clients} (settles : Settles before c')
    (same : before.cleanings = c.cleanings) : Settles c c' :=
  settles.imp_right fun stays => ⟨stays.1, stays.2.trans same⟩

theorem settles_retryLoop (now : Nat) (regardless : Bool) (messages : List Messages)
    (connected : c.connected = true) :
    Settles c (MQTTProtocol.retryLoop now regardless c messages) := by
  induction messages generalizing c with
  | nil => exact .inr ⟨connected, rfl⟩
  | cons m rest ih =>
      rcases alike_countSent c regardless with ⟨counted, -, -⟩
      unfold MQTTProtocol.retryLoop
      split
      · split
        · rcases retryMessage_cases (MQTTProtocol.countSent c regardless) m with
            ⟨-, result⟩ | ⟨-, -, sent, result, alike, -, -⟩ | ⟨-, -, sent, result, -⟩
          · rw [result]
            exact (ih (counted.connected.trans connected)).of_alike counted.cleanings
          · have alike := counted.trans alike
            rw [result]
            exact (ih (alike.connected.trans connected)).of_alike alike.cleanings
          · rw [result]
            exact .inl (closed_closeSession sent)
        · exact ih connected
      · exact .inr ⟨connected, rfl⟩

theorem settles_retry (now : Nat) (doRetry regardless : Bool) (connected : c.connected = true) :
    Settles c (MQTTProtocol.retry now doRetry regardless c) := by
  have stays : Settles c c := .inr ⟨connected, rfl⟩
  unfold MQTTProtocol.retry MQTTProtocol.retries
  split
  · exact stays
  · split
    · exact .inl (closed_closeSession c)
    · split
      · exact stays
      · split
        · split
          · exact stays
          · split
            · apply Settles.of_alike (settles_retryLoop now true _ _)
              · rfl
              · exact connected
            · exact settles_retryLoop now _ _ connected
        · exact stays

theorem cleanings_sendQueuedAcks (requests : List AckRequest) :
    (MQTTProtocol.sendQueuedAcks c requests).cleanings = c.cleanings := by
  induction requests generalizing c with
  | nil => rfl
  | cons ackReq rest ih =>
      have sent : (MQTTPacket.send_ack c c.mqttVersion ackReq.ackType
          ackReq.messageId).2.cleanings = c.cleanings := by
        rcases send_ack_result c c.mqttVersion ackReq.ackType ackReq.messageId with ⟨_, result⟩
        rw [result]
        exact List.count_cons_of_ne (by simp)
      unfold MQTTProtocol.sendQueuedAcks
      split
      next result =>
        rw [result] at sent
        exact ih.trans sent
      next result =>
        rw [result] at sent
        exact sent

theorem settles_continueWrite (succeeded : Bool) (connected : c.connected = true) :
    Settles c (act c (.continueWrite succeeded)) := by
  unfold act
  dsimp only
  split
  · split
    · right
      constructor
      · exact Eq.trans (quiet_writeAvailable _).connected connected
      · exact cleanings_sendQueuedAcks _
    · exact .inr ⟨connected, rfl⟩
  · exact .inr ⟨connected, rfl⟩

theorem settles_act (connected : c.connected = true) {action : Action} (internal : action.Internal)
    (other : ∀ sessionPresent, action ≠ .connect sessionPresent) : Settles c (act c action) := by
  cases action with
  | publish message => exact internal.elim
  | receive packet => exact internal.elim
  | restart keys => exact internal.elim
  | connect sessionPresent => exact absurd rfl (other sessionPresent)
  | retry doRetry => exact settles_retry _ _ _ connected
  | continueWrite succeeded => exact settles_continueWrite succeeded connected
  | connectionLost =>
      unfold act
      rw [if_pos connected]
      exact .inl (closed_closeSession c)

theorem startPublish_connected (c : Clients) (publish : Publish) (qos : Nat) (retained : Bool) :
    (MQTTProtocol.startPublish c publish qos retained).2.connected = c.connected := by
  have sent (c : Clients) (publish : Publish) (qos : Nat) :
      (MQTTPacket.send_publish c publish false qos retained).2.connected = c.connected := by
    rcases send_publish_result c publish false qos retained with ⟨_, result⟩
    rw [result]
  unfold MQTTProtocol.startPublish
  split
  · exact sent _ _ _
  · exact sent _ _ _

theorem publish_connected (c : Clients) (message : Message) :
    (publish c message).connected = c.connected := by
  unfold publish
  split
  · rfl
  · split
    · exact startPublish_connected c _ _ _
    · split
      · rfl
      next after assigned =>
        have same : after.connected = c.connected := by
          unfold MQTTProtocol.assignMsgId at assigned
          split at assigned
          · cases assigned
          · cases assigned
            split <;> rfl
        split
        · exact same
        · exact (startPublish_connected after _ _ _).trans same

/-- Without a connection nothing happens until there is one. -/
theorem act_closed (closed : Closed c) {action : Action}
    (other : (∀ sessionPresent, action ≠ .connect sessionPresent) ∧
      ∀ keys, action ≠ .restart keys) : act c action = c := by
  rcases closed with ⟨closed, idle⟩
  cases action with
  | connect sessionPresent => exact absurd rfl (other.1 sessionPresent)
  | restart keys => exact absurd rfl (other.2 keys)
  | continueWrite succeeded => simp [act, idle]
  | publish message => simp [act, closed]
  | receive packet => simp [act, closed]
  | retry doRetry => simp [act, MQTTProtocol.retry, closed]
  | connectionLost => simp [act, closed]

/-- The pass over the messages in flight, if there are any. -/
theorem exists_pass (c : Clients) :
    ∃ taken : Clients, taken.connected = c.connected ∧ Steady c taken ∧
      taken.exchange = c.exchange ∧
      ∀ after, after = (if 0 < c.outboundMsgs.length then
        MQTTProtocol.retry 0 true true
          { c with outboundMsgs := c.outboundMsgs.map fun m => { m with lastTouch := 0 } }
        else c) → after = taken ∨ after = MQTTProtocol.retry 0 true true taken := by
  by_cases inFlight : 0 < c.outboundMsgs.length
  · let taken : Clients :=
      { c with outboundMsgs := c.outboundMsgs.map fun m => { m with lastTouch := 0 } }
    have same : taken.exchange = c.exchange := by
      refine Exchange.ext rfl ?_ rfl rfl rfl rfl rfl
      simp [Clients.exchange, taken, Function.comp_def, Messages.untouched]
    refine ⟨taken, rfl, .of_same rfl rfl, same, ?_⟩
    rw [if_pos inFlight]
    exact fun _ => .inr
  · rw [if_neg inFlight]
    exact ⟨c, rfl, .of_same rfl rfl, rfl, fun _ => .inl⟩

/-- What a new connection starts with, and the pass over it. -/
theorem completeConnection_passes (c : Clients) (sessionPresent : Bool) :
    ∃ taken : Clients, taken.connected = true ∧ Steady c taken ∧
      (KeepsSession c sessionPresent ∧ taken.exchange = c.exchange.log .connected ∨
        taken.exchange = (c.exchange.log .connected).clean) ∧
      (MQTTAsync.completeConnection c sessionPresent = taken ∨
        MQTTAsync.completeConnection c sessionPresent = MQTTProtocol.retry 0 true true taken) := by
  let opened : Clients :=
    { c with connected := true, good := true, trace := .connected :: c.trace }
  have same : opened.exchange = c.exchange.log .connected := rfl
  have steady : Steady c opened := .of_same rfl rfl
  rcases exists_pass opened with ⟨kept, keptOpen, keptSteady, keptSame, keptPass⟩
  rcases exists_pass (MQTTAsync.cleanSession opened) with
    ⟨cleaned, cleanedOpen, cleanedSteady, cleanedSame, cleanedPass⟩
  have forgets : Steady opened (MQTTAsync.cleanSession opened) := ⟨rfl, .inr rfl⟩
  have renewed : Steady c cleaned := (steady.trans forgets).trans cleanedSteady
  rw [exchange_cleanSession, same] at cleanedSame
  unfold MQTTAsync.completeConnection
  dsimp only
  split
  · exact ⟨cleaned, cleanedOpen, renewed, .inr cleanedSame, cleanedPass _ rfl⟩
  next flags =>
    split
    · exact ⟨cleaned, cleanedOpen, renewed, .inr cleanedSame, cleanedPass _ rfl⟩
    next present =>
      have keeps : KeepsSession c sessionPresent := by
        refine ⟨by simp_all, by simp_all, fun version => ?_⟩
        simpa [version] using present
      exact ⟨kept, keptOpen, steady.trans keptSteady, .inl ⟨keeps, keptSame.trans same⟩,
        keptPass _ rfl⟩

/-! ## The ids that are used -/

theorem nextMsgId_le {msgid : Nat} (inRange : msgid ≤ maxMsgId) :
    MQTTProtocol.nextMsgId msgid ≤ maxMsgId := by
  unfold MQTTProtocol.nextMsgId
  split
  · decide
  · omega

theorem searchMsgId_le {used : List Nat} {start fuel msgid result : Nat}
    (inRange : msgid ≤ maxMsgId)
    (found : MQTTProtocol.searchMsgId used start fuel msgid = some result) : result ≤ maxMsgId := by
  induction fuel generalizing msgid with
  | zero => cases found
  | succ fuel ih =>
      unfold MQTTProtocol.searchMsgId at found
      split at found
      · split at found
        · exact Option.some.inj found ▸ Nat.zero_le _
        · exact ih (nextMsgId_le inRange) found
      · exact Option.some.inj found ▸ inRange

/-- The ids of the session, and the one its next search starts from. -/
structure InRange (c : Clients) : Prop where
  msgID : c.msgID ≤ maxMsgId
  held : ∀ id, c.exchange.Holds id → 0 < id ∧ id ≤ maxMsgId

theorem assignMsgId_le {msgId : Nat} {after : Clients} (inRange : c.msgID ≤ maxMsgId)
    (assigned : MQTTProtocol.assignMsgId c = some (msgId, after)) :
    msgId ≤ maxMsgId ∧ after.msgID ≤ maxMsgId := by
  unfold MQTTProtocol.assignMsgId at assigned
  split at assigned
  · cases assigned
  next found =>
    have within := searchMsgId_le (nextMsgId_le inRange) found
    cases assigned
    split
    · exact ⟨within, within⟩
    · exact ⟨within, inRange⟩

theorem publish_msgID (inRange : c.msgID ≤ maxMsgId) (message : Message) :
    (publish c message).msgID ≤ maxMsgId := by
  have steady {before after : Clients} (within : before.msgID ≤ maxMsgId)
      (steady : Steady before after) : after.msgID ≤ maxMsgId := by
    rcases steady.msgID with same | zero <;> omega
  unfold publish
  split
  · exact inRange
  · split
    · exact steady inRange (steady_startPublish c _ _ _)
    · split
      · exact inRange
      next assigned =>
        have within := (assignMsgId_le inRange assigned).2
        split
        · exact within
        · exact steady within (steady_startPublish _ _ _ _)

theorem nextId_le {msgId : Nat} (inRange : c.msgID ≤ maxMsgId) (next : nextId c = some msgId) :
    msgId ≤ maxMsgId := by
  unfold nextId at next
  cases assigned : MQTTProtocol.assignMsgId c with
  | none => simp [assigned] at next
  | some result =>
      rw [assigned] at next
      cases next
      exact (assignMsgId_le inRange assigned).1

theorem starts_holds {e e' : Exchange} {message : Message} {msgId id : Nat}
    (starts : Exchange.Starts e message msgId e') (held : e'.Holds id) :
    e.Holds id ∨ (id = msgId ∧ message.qos ≠ 0 ∧ 0 < msgId) := by
  cases starts with
  | unacknowledged qos => exact .inl held
  | @start _ rc positive unused qos =>
      let publish := publishPacket e.mqttVersion message false msgId
      let m := MQTTProtocol.createMessage publish message.qos message.retained 0
      have started : Exchange.Within (· = msgId) e (e.start m) := by
        apply Exchange.Within.of_event rfl
        · intro other inFlight
          rcases List.mem_append.mp (ids_append e.outbound [m] ▸ inFlight) with old | new
          · exact .inl (.inl old)
          · exact .inr (List.mem_singleton.mp new)
        · intro key publish _ stored
          exact .inl stored
        · simp
      have same : publish.msgId = msgId := rfl
      have sent : Exchange.Within (· = msgId) (e.start m) ((e.start m).sendPublish publish rc) :=
        .sendPublish (.inr same) rc
      rcases (started.trans sent).holds id held with before | same
      · exact .inl before
      · exact .inr ⟨same, by omega, positive⟩

theorem restart_msgID (c : Clients) (keys : List PersistenceKey) :
    (restart c keys).trace = .restarted :: c.trace ∧ (restart c keys).msgID = 0 := by
  apply @restart_keeps fun after => after.trace = .restarted :: c.trace ∧ after.msgID = 0
  · intro after k kept
    unfold MQTTPersistence.restoreKey
    split
    · exact kept
    · split
      · exact kept
      · split
        · exact kept
        · split
          · exact kept
          · exact kept
          · split <;> exact kept
          · exact kept
  · exact fun after kept => kept
  · exact ⟨rfl, rfl⟩

theorem act_msgID (inRange : c.msgID ≤ maxMsgId) (action : Action) :
    (act c action).msgID ≤ maxMsgId := by
  have steady {before after : Clients} (within : before.msgID ≤ maxMsgId)
      (steady : Steady before after) : after.msgID ≤ maxMsgId := by
    rcases steady.msgID with unchanged | zero <;> omega
  cases action with
  | restart keys =>
      change (restart c keys).msgID ≤ maxMsgId
      rw [(restart_msgID c keys).2]
      exact Nat.zero_le _
  | retry doRetry => exact steady inRange (steady_retry ..)
  | publish message =>
      simp only [act]
      split
      · exact publish_msgID inRange message
      · exact inRange
  | receive packet =>
      simp only [act]
      split
      · exact steady inRange (steady_receive c packet)
      · exact inRange
  | continueWrite succeeded =>
      simp only [act]
      split
      · split
        · apply steady _ (steady_writeAvailable _)
          exact inRange
        · exact inRange
      · exact inRange
  | connectionLost =>
      simp only [act]
      split
      · exact steady inRange (steady_closeSession c)
      · exact inRange
  | connect sessionPresent =>
      simp only [act]
      split
      · exact inRange
      · rcases completeConnection_passes c sessionPresent with
          ⟨taken, -, opened, -, same | passed⟩
        · rw [same]
          exact steady inRange opened
        · rw [passed]
          exact steady inRange (opened.trans (steady_retry ..))

theorem step_inRange (inRange : InRange c) (input : Input) : InRange (step c input) := by
  have msgID : (provide c input).msgID ≤ maxMsgId := inRange.msgID
  refine ⟨act_msgID msgID input.action, ?_⟩
  intro id held
  by_cases restarts : ∃ keys, input.action = .restart keys
  · rcases restarts with ⟨keys, action⟩
    apply inRange.held
    apply (restart_within (provide c input) keys).keeps
    simpa only [step, action, act] using held
  · rw [not_exists] at restarts
    rcases step_refines restarts with internals | ⟨message, msgId, -, starts, -, next⟩ |
      ⟨packet, -, handles⟩
    · exact inRange.held id ((Exchange.internals_within internals).keeps id held)
    · rcases starts_holds starts held with before | ⟨rfl, positive, fresh⟩
      · exact inRange.held id before
      · exact ⟨fresh, nextId_le inRange.msgID (next positive)⟩
    · exact inRange.held id ((Exchange.handles_within handles).keeps id held)

theorem create_inRange (mqttVersion : Nat) (cleansession persistent : Bool) :
    InRange (create mqttVersion cleansession (if persistent then some ∅ else none)) := by
  refine ⟨Nat.zero_le _, ?_⟩
  rintro id (inFlight | ⟨key, publish, -, stored, -⟩)
  · cases inFlight
  · cases persistent <;> cases stored

end Session

namespace FlowControl

/-! ## Steps of the client -/

theorem newEvents_eq {c c' : Clients} {events : List Event} (trace : c'.trace = events ++ c.trace) :
    newEvents c c' = events := by
  unfold newEvents
  rw [trace, List.length_append, Nat.add_sub_cancel, List.take_left]

theorem respects_closed {log : List Flow} (respects : Respects log) : Respects (.closed :: log) :=
  respects_cons.mpr ⟨Nat.zero_le _, respects⟩

/-- The invariant of a run. -/
structure Sound (s : Client) : Prop where
  respects : Respects s.log
  inRange : Session.InRange s.c
  closed : s.c.connected = false → Closed s.c
  opened : s.c.connected = true → Budget s.maximum s.c.exchange s.log ∧ Covered s.c.exchange s.log
  limited : s.c.connected = true → s.maxInflightMessages ≤ s.maximum ∨ maxMsgId ≤ s.maximum

variable {s : Client} {c' : Clients} {action : Session.Action} {maximum : Nat}

/-- What has happened, with a step of the session. -/
def logged (s : Client) (action : Session.Action) (maximum : Nat) (c' : Clients) : List Flow :=
  (newEvents s.c c').flatMap (flows maximum action) ++ s.log

/-- A step of the session closes the connection or is within its budget. -/
structure Accounts (s : Client) (action : Session.Action) (maximum : Nat)
    (c' : Clients) : Prop where
  respects : Respects (logged s action maximum c')
  settles : Closed c' ∨ c'.connected = true ∧
    Budget maximum c'.exchange (logged s action maximum c') ∧
      Covered c'.exchange (logged s action maximum c')

theorem Accounts.sound (accounts : Accounts s action maximum c') (inRange : Session.InRange c')
    {limit : Int} (limited : c'.connected = true → limit ≤ maximum ∨ maxMsgId ≤ maximum) :
    Sound { s.account action maximum c' with maxInflightMessages := limit } := by
  have log : (s.account action maximum c').log =
      if c'.connected then logged s action maximum c' else .closed :: logged s action maximum c' :=
    rfl
  rcases accounts.settles with closed | ⟨connected, budget, covered⟩
  · have notConnected : ¬c'.connected = true := by simp [closed.1]
    refine ⟨?_, inRange, fun _ => closed, fun connected => absurd connected notConnected,
      fun connected => absurd connected notConnected⟩
    change Respects (s.account action maximum c').log
    rw [log, if_neg notConnected]
    exact respects_closed accounts.respects
  · refine ⟨?_, inRange, fun closed => ?_, fun _ => ?_, limited⟩
    · change Respects (s.account action maximum c').log
      rw [log, if_pos connected]
      exact accounts.respects
    · exact absurd (closed.symm.trans connected) Bool.false_ne_true
    · change Budget maximum c'.exchange (s.account action maximum c').log ∧
        Covered c'.exchange (s.account action maximum c').log
      rw [log, if_pos connected]
      exact ⟨budget, covered⟩

/-- What is spent on a connection that is not closed is spent within its budget. -/
theorem Accounts.of_spends {e : Exchange} {log : List Flow} {older : List Event}
    (spends : Spends maximum action e c'.exchange log) (trace : e.trace = older ++ s.c.trace)
    (started : log = older.flatMap (flows maximum action) ++ s.log)
    (settles : Closed c' ∨
      c'.connected = true ∧ c'.exchange.trace.count .sessionCleaned = e.trace.count .sessionCleaned)
    (covered : Covered e log) : Accounts s action maximum c' := by
  rcases spends.spent with ⟨events, later, budget, -, covers⟩
  have new : newEvents s.c c' = events ++ older := by
    apply newEvents_eq
    rw [List.append_assoc, ← trace]
    exact later
  have same : logged s action maximum c' = events.flatMap (flows maximum action) ++ log := by
    unfold logged
    rw [new, started, List.flatMap_append, List.append_assoc]
  refine ⟨same ▸ budget.respects, settles.imp_right fun stays => ⟨stays.1, ?_⟩⟩
  rw [same]
  exact ⟨budget, covers stays.2 covered⟩

/-- Nothing has happened. -/
theorem Accounts.of_same (sound : Sound s) (exchange : c'.exchange = s.c.exchange)
    (connected : c'.connected = s.c.connected)
    (closed : s.c.connected = false → Closed c') : Accounts s action s.maximum c' := by
  have new : newEvents s.c c' = [] := newEvents_eq (congrArg Exchange.trace exchange)
  have same : logged s action s.maximum c' = s.log := by
    unfold logged
    rw [new]
    rfl
  refine ⟨same ▸ sound.respects, ?_⟩
  cases before : s.c.connected with
  | false => exact .inl (closed before)
  | true =>
      rw [same, exchange]
      exact .inr ⟨connected.trans before, sound.opened before⟩

/-- On a connection: retry passes, the end of a write, the loss of the connection. -/
theorem accounts_internal (sound : Sound s) (connected : s.c.connected = true)
    {input : Session.Input} (internal : input.action.Internal)
    (other : ∀ sessionPresent, input.action ≠ .connect sessionPresent) :
    Accounts s input.action s.maximum (Session.step s.c input) := by
  rcases sound.opened connected with ⟨budget, covered⟩
  have provided : (Session.provide s.c input).connected = true := connected
  have settles : Session.Settles (Session.provide s.c input) (Session.step s.c input) :=
    Session.settles_act provided internal other
  have internals : ReflTransGen Exchange.Internal s.c.exchange (Session.step s.c input).exchange :=
    internal_act (c := Session.provide s.c input) internal
  exact .of_spends (internals_spends budget internals) (List.nil_append _).symm rfl settles covered

theorem accounts_receive (sound : Sound s) (connected : s.c.connected = true)
    {input : Session.Input} {packet : Session.Packet} (action : input.action = .receive packet) :
    Accounts s input.action s.maximum (Session.step s.c input) := by
  rcases sound.opened connected with ⟨budget, covered⟩
  have step : Session.step s.c input = Session.receive (Session.provide s.c input) packet := by
    have provided : (Session.provide s.c input).connected = true := connected
    simp only [Session.step, action, Session.act, provided, if_true]
  have handles : Exchange.Handles s.c.exchange packet (Session.step s.c input).exchange :=
    step ▸ handles_receive (c := Session.provide s.c input) packet
  have stays : (Session.step s.c input).connected = true := by
    rw [step]
    exact (quiet_receive _ packet).connected.trans connected
  have answers : Answers s.maximum input.action s.c.exchange (Session.step s.c input).exchange :=
    action ▸ handles_answers handles
  exact .of_spends (answers.spends budget) (List.nil_append _).symm rfl
    (.inr ⟨stays, answers.cleanings⟩) covered

/-- A publication that is not held back finds room. -/
theorem hasRoom_of_unblocked {message : Session.Message} {msgId : Nat} {e' : Exchange}
    (sound : Sound s) (connected : s.c.connected = true) (unblocked : s.blocks message = false)
    (starts : Exchange.Starts s.c.exchange message msgId e')
    (inRange : ∀ id, e'.Holds id → 0 < id ∧ id ≤ maxMsgId) (positive : message.qos ≠ 0) :
    HasRoom s.maximum e' := by
  have length : (ids e'.outbound).length = s.c.outboundMsgs.length + 1 := by
    cases starts with
    | unacknowledged qos => exact absurd qos positive
    | start => simp [ids, Clients.exchange]
  have few : (s.c.outboundMsgs.length : Int) < s.maxInflightMessages := by
    unfold Client.blocks at unblocked
    cases api : s.api with
    | async =>
        simp only [api, Bool.or_eq_false_iff, Bool.and_eq_false_iff, decide_eq_false_iff_not]
          at unblocked
        omega
    | sync =>
        simp only [api, decide_eq_false_iff_not] at unblocked
        omega
  rcases sound.limited connected with below | all
  · left
    omega
  · exact .inr ⟨all, fun id inFlight => inRange id (.inl inFlight)⟩

theorem accounts_publish (sound : Sound s) (connected : s.c.connected = true)
    {input : Session.Input} {message : Session.Message} (action : input.action = .publish message)
    (unblocked : s.blocks message = false) :
    Accounts s input.action s.maximum (Session.step s.c input) := by
  rcases sound.opened connected with ⟨budget, covered⟩
  have inRange := (Session.step_inRange sound.inRange input).held
  have step : Session.step s.c input = Session.publish (Session.provide s.c input) message := by
    have provided : (Session.provide s.c input).connected = true := connected
    simp only [Session.step, action, Session.act, provided, if_true]
  have stays : (Session.step s.c input).connected = s.c.connected := by
    rw [step]
    exact Session.publish_connected _ message
  rcases starts_publish (c := Session.provide s.c input) message with same | ⟨msgId, starts, -⟩
  · apply Accounts.of_same sound _ stays
    · exact fun closed => absurd (closed.symm.trans connected) Bool.false_ne_true
    · rw [step]
      exact same
  · rw [← step] at starts
    have room := hasRoom_of_unblocked sound connected unblocked starts inRange
    exact .of_spends (starts_spends budget covered starts room) (List.nil_append _).symm rfl
      (.inr ⟨stays.trans connected, starts_cleanings starts⟩) covered

/-- The beginning of a connection, and the pass over what the session holds. -/
theorem accounts_connect (sound : Sound s) (disconnected : s.c.connected = false)
    {input : Session.Input} {sessionPresent : Bool}
    (action : input.action = .connect sessionPresent)
    (fits : Session.KeepsSession s.c sessionPresent → (awaiting s.c.exchange).card ≤ maximum) :
    Accounts s input.action maximum (Session.step s.c input) := by
  have step : Session.step s.c input =
      MQTTAsync.completeConnection (Session.provide s.c input) sessionPresent := by
    have provided : (Session.provide s.c input).connected = false := disconnected
    simp only [Session.step, action, Session.act, provided, Bool.false_eq_true, if_false]
  have respects : Respects (.connected maximum :: s.log) :=
    respects_cons.mpr ⟨Nat.zero_le _, sound.respects⟩
  have covered (e : Exchange) : Covered e (.connected maximum :: s.log) :=
    fun id mem => absurd mem (Finset.notMem_empty id)
  rcases Session.completeConnection_passes (Session.provide s.c input) sessionPresent with
    ⟨taken, opened, -, start, pass⟩
  have settles : Session.Settles taken (Session.step s.c input) := by
    rw [step]
    rcases pass with same | passed
    · rw [same]
      exact .inr ⟨opened, rfl⟩
    · rw [passed]
      exact Session.settles_retry _ _ _ opened
  have internals : ReflTransGen Exchange.Internal taken.exchange
      (Session.step s.c input).exchange := by
    rw [step]
    rcases pass with same | passed
    · rw [same]
    · rw [passed]
      exact internal_retry _ _ _
  rcases start with ⟨keeps, same⟩ | same
  · have budget : Budget maximum taken.exchange (.connected maximum :: s.log) := by
      refine ⟨?_, rfl, respects⟩
      rw [same]
      exact (Nat.le_of_eq (congrArg _ (Finset.empty_union _))).trans (fits keeps)
    have trace : taken.exchange.trace = [.connected] ++ s.c.trace := congrArg Exchange.trace same
    exact .of_spends (internals_spends budget internals) trace rfl settles (covered _)
  · have budget : Budget maximum taken.exchange (.connected maximum :: s.log) := by
      refine ⟨?_, rfl, respects⟩
      rw [same]
      exact Nat.zero_le _
    have trace : taken.exchange.trace = [.sessionCleaned, .connected] ++ s.c.trace :=
      congrArg Exchange.trace same
    exact .of_spends (internals_spends budget internals) trace rfl settles (covered _)

theorem accounts_restart (sound : Sound s) {input : Session.Input} {keys : List PersistenceKey}
    (action : input.action = .restart keys) :
    Accounts s input.action s.maximum (Session.step s.c input) := by
  have step : Session.step s.c input = Session.restart (Session.provide s.c input) keys := by
    simp only [Session.step, action, Session.act]
  have new : newEvents s.c (Session.step s.c input) = [.restarted] := by
    apply newEvents_eq
    rw [step]
    exact (Session.restart_msgID _ keys).1
  have same : logged s input.action s.maximum (Session.step s.c input) = s.log := by
    unfold logged
    rw [new]
    rfl
  refine ⟨same ▸ sound.respects, .inl ?_⟩
  rw [step]
  exact Session.restart_closed _ keys

/-! ## Runs -/

/-- Without a connection, nothing but a new one or a restart has an effect. -/
theorem sound_disconnected (sound : Sound s) (disconnected : s.c.connected = false)
    {input : Session.Input} (other : (∀ sessionPresent, input.action ≠ .connect sessionPresent) ∧
      ∀ keys, input.action ≠ .restart keys) :
    Sound (s.account input.action s.maximum (Session.step s.c input)) := by
  have inRange := Session.step_inRange sound.inRange input
  have closed : Closed (Session.provide s.c input) := sound.closed disconnected
  have same : Session.step s.c input = Session.provide s.c input := Session.act_closed closed other
  have accounts : Accounts s input.action s.maximum (Session.step s.c input) := by
    rw [same]
    exact .of_same sound rfl rfl fun _ => closed
  apply accounts.sound inRange
  rw [same]
  exact fun connected => absurd (closed.1.symm.trans connected) Bool.false_ne_true

/-- On a connection, a step is within the budget. -/
theorem sound_connected (sound : Sound s) (connected : s.c.connected = true) {input : Session.Input}
    (accounts : Accounts s input.action s.maximum (Session.step s.c input)) :
    Sound (s.account input.action s.maximum (Session.step s.c input)) :=
  accounts.sound (Session.step_inRange sound.inRange input) fun _ => sound.limited connected

/-- With the CONNACK the bound is brought below the Receive Maximum. -/
theorem Accounts.limited {receiveMaximum : Option Nat}
    (accounts : Accounts s action (receiveMaximum.getD maxMsgId) c')
    (inRange : Session.InRange c') :
    let s' := s.account action (receiveMaximum.getD maxMsgId) c'
    Sound (receiveMaximum.elim s' fun recvMax =>
      if c'.connected = true ∧ recvMax < s'.maxInflightMessages then
        { s' with maxInflightMessages := recvMax }
      else s') := by
  cases receiveMaximum with
  | none =>
      apply accounts.sound inRange
      exact fun _ => .inr (Nat.le_refl _)
  | some recvMax =>
      dsimp only [Option.elim]
      split
      · apply accounts.sound inRange
        exact fun _ => .inl (Int.le_refl _)
      next above =>
        apply accounts.sound inRange
        intro connected
        left
        exact Int.not_lt.mp fun less => above ⟨connected, less⟩

theorem sound_connack (sound : Sound s) (disconnected : s.c.connected = false)
    (input : Session.Input) {sessionPresent : Bool} {receiveMaximum : Option Nat}
    (fits : Session.KeepsSession s.c (s.api == .sync || sessionPresent) →
      (awaiting s.c.exchange).card ≤ receiveMaximum.getD maxMsgId) :
    Sound (s.connack input sessionPresent receiveMaximum) := by
  have connected (present : Bool) (same : (s.api == .sync || sessionPresent) = present) :
      let connecting := { input with action := .connect present }
      Accounts s connecting.action (receiveMaximum.getD maxMsgId) (Session.step s.c connecting) :=
    accounts_connect sound disconnected rfl (same ▸ fits)
  unfold Client.connack
  cases api : s.api with
  | async =>
      have limited := (connected sessionPresent (by simp [api])).limited
        (Session.step_inRange sound.inRange _)
      cases receiveMaximum <;> exact limited
  | sync =>
      have limited := (connected true (by simp [api])).limited
        (Session.step_inRange sound.inRange _)
      cases receiveMaximum <;> exact limited

theorem sound_internal (sound : Sound s) {input : Session.Input} (internal : input.action.Internal)
    (other : ∀ sessionPresent, input.action ≠ .connect sessionPresent) :
    Sound (s.account input.action s.maximum (Session.step s.c input)) := by
  cases connected : s.c.connected with
  | false =>
      apply sound_disconnected sound connected
      refine ⟨other, fun keys same => ?_⟩
      rw [same] at internal
      exact internal
  | true => exact sound_connected sound connected (accounts_internal sound connected internal other)

theorem sound_restart (sound : Sound s) {input : Session.Input} {keys : List PersistenceKey}
    (action : input.action = .restart keys) :
    Sound { s.account input.action s.maximum (Session.step s.c input) with
      maxInflightMessages := 0 } := by
  apply (accounts_restart sound action).sound (Session.step_inRange sound.inRange input)
  exact fun _ => .inl (Int.natCast_nonneg _)

theorem sound_receive (sound : Sound s) {input : Session.Input} {packet : Session.Packet}
    (action : input.action = .receive packet) :
    Sound (s.account input.action s.maximum (Session.step s.c input)) := by
  cases connected : s.c.connected with
  | false => exact sound_disconnected sound connected (by simp [action])
  | true => exact sound_connected sound connected (accounts_receive sound connected action)

theorem sound_publish (sound : Sound s) {input : Session.Input} {message : Session.Message}
    (action : input.action = .publish message) (unblocked : s.blocks message = false) :
    Sound (s.account input.action s.maximum (Session.step s.c input)) := by
  cases connected : s.c.connected with
  | false => exact sound_disconnected sound connected (by simp [action])
  | true => exact sound_connected sound connected (accounts_publish sound connected
      action unblocked)

theorem sound_options (sound : Sound s) {maxInflight : Int} (cleanstart : Bool)
    (sessionExpiry : Nat)
    (fits : s.c.connected = true → s.maximum < maxMsgId → maxInflight ≤ s.maximum) :
    Sound (step s (.options maxInflight cleanstart sessionExpiry)) := by
  refine ⟨sound.respects, ⟨sound.inRange.msgID, sound.inRange.held⟩, sound.closed, sound.opened, ?_⟩
  intro connected
  by_cases limited : s.maximum < maxMsgId
  · exact .inl (fits connected limited)
  · exact .inr (Nat.le_of_not_lt limited)

/-- Steps that fit keep the invariant. -/
theorem step_sound {s : Client} {input : Input} (sound : Sound s) (fits : Fits s input) :
    Sound (step s input) := by
  rcases input with ⟨maxInflight, cleanstart, sessionExpiry⟩ | ⟨input, receiveMaximum⟩
  · exact sound_options sound cleanstart sessionExpiry fits
  · unfold step
    unfold Fits at fits
    dsimp only at fits ⊢
    split
    next sessionPresent action =>
      rw [action] at fits
      cases connected : s.c.connected with
      | false => exact sound_connack sound connected input (fits connected)
      | true => exact sound
    next message action =>
      split
      · exact sound
      next goes =>
        rw [Bool.or_eq_true, not_or, Bool.not_eq_true, Bool.not_eq_true] at goes
        exact sound_publish sound action goes.2
    next keys action => exact sound_restart sound action
    next notConnect notPublish notRestart =>
      cases action : input.action with
      | connect sessionPresent => exact absurd action (notConnect sessionPresent)
      | publish message => exact absurd action (notPublish message)
      | restart keys => exact absurd action (notRestart keys)
      | receive packet => exact action ▸ sound_receive sound action
      | retry doRetry => exact action ▸ sound_internal sound (action ▸ trivial) notConnect
      | continueWrite succeeded => exact action ▸ sound_internal sound (action ▸ trivial) notConnect
      | connectionLost => exact action ▸ sound_internal sound (action ▸ trivial) notConnect

theorem create_sound (api : Api) (cleansession persistent : Bool) :
    Sound (create api cleansession persistent) := by
  refine ⟨?_, Session.create_inRange _ cleansession persistent, fun _ => ⟨rfl, rfl⟩, ?_, ?_⟩
  · intro moment before
    rw [List.suffix_nil.mp before]
    exact Nat.zero_le _
  · intro connected
    cases connected
  · intro connected
    cases connected

/-- In every run in which no connection takes up a session with more publications to send again than
the server accepts, and no options raise the bound on a connection, the Receive Maximum of every
connection is respected at every moment. -/
theorem receiveMaximum_respected (api : Api) (cleansession persistent : Bool) (inputs : List Input)
    (fits : Guarded step Fits (create api cleansession persistent) inputs) :
    Respects (run step (create api cleansession persistent) inputs).log :=
  (invariant_of_guarded (fun _ _ sound fits => step_sound sound fits)
    (create_sound api cleansession persistent) fits).respects

/-- Two publications, of QoS 1 and of QoS 2, are in flight when the connection is lost. -/
def twoInFlight : List Input :=
  [.options 10 false 4294967295, .session { action := .connect false } none,
    .session { action := .publish ⟨[], [], 1, false, []⟩ } none,
    .session { action := .publish ⟨[], [], 2, false, []⟩ } none,
    .session { action := .connectionLost } none]

/-- On a connection that accepts two they are sent again. -/
theorem receiveMaximum_respected_two :
    let inputs := twoInFlight ++ [.session { action := .connect true } (some 2)]
    let s := run step (create .async false true) inputs
    Respects s.log ∧ unacknowledged s.log = {1, 2} := by
  intro inputs s
  have fits : Guarded step Fits (create .async false true) inputs := by
    refine ⟨fun connected => ?_, fun _ _ => ?_, trivial, trivial, trivial, fun _ _ => ?_, trivial⟩
    · cases connected
    · decide
    · decide
  exact ⟨receiveMaximum_respected .async false true inputs fits, by decide⟩

/-- They are both sent again where the server accepts one. -/
theorem receiveMaximum_exceeded :
    ¬∀ (api : Api) (cleansession persistent : Bool) (inputs : List Input),
      Respects (run step (create api cleansession persistent) inputs).log := by
  intro respects
  have log := respects .async false true
    (twoInFlight ++ [.session { action := .connect true } (some 1)]) _ List.suffix_rfl
  exact absurd log (by decide)

end FlowControl

end Paho
