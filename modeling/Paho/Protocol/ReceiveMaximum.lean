import Paho.Protocol.FlowControl
import Paho.Protocol.Cleaning
import Paho.Protocol.HeldIds
import Mathlib.Order.Interval.Finset.Nat

/-!
# The Receive Maximum of a connection

The publications that were sent on a connection are among the messages in flight, and those that a
retry may still send are counted with them. New publications keep this number below the Receive
Maximum; a connection that takes up a session starts with whatever the session holds.
-/

namespace Paho

open Relation

namespace FlowControl

/-- What a PUBLISH is sent for by a retry. -/
def awaiting (e : Exchange) : Finset Nat :=
  (ids (e.outbound.filter fun m => decide (Exchange.AwaitsPublish m))).toFinset

/-- The server of a new connection accepts what a retry sends it, and while there is a connection
the options of another one do not raise the bound above the Receive Maximum. -/
def Fits (s : Client) : Input → Prop
  | .options maxInflight _ _ =>
      s.c.connected = true → s.maximum < maxMsgId → maxInflight ≤ s.maximum
  | .session input receiveMaximum =>
      match input.action with
      | .connect sessionPresent =>
          s.c.connected = false →
            Session.KeepsSession s.c (s.api == .sync || sessionPresent) →
              (awaiting s.c.exchange).card ≤ receiveMaximum.getD maxMsgId
      | _ => True

/-! ## Logs -/

section Logs

variable {flow : Flow} {added log : List Flow}

theorem respects_cons : Respects (flow :: log) ↔
    (unacknowledged (flow :: log)).card ≤ receiveMaximum (flow :: log) ∧ Respects log := by
  unfold Respects
  simp only [List.suffix_cons_iff, forall_eq_or_imp]

/-- Acknowledgements. -/
structure Acknowledges (added : List Flow) (log : List Flow) : Prop where
  unacknowledged : unacknowledged (added ++ log) ⊆ unacknowledged log
  gone : ∀ id, .acknowledged id ∈ added → id ∉ FlowControl.unacknowledged (added ++ log)
  maximum : receiveMaximum (added ++ log) = receiveMaximum log
  respects : Respects log → Respects (added ++ log)

theorem acknowledges (all : ∀ flow ∈ added, ∃ id, flow = .acknowledged id) :
    Acknowledges added log := by
  induction added with
  | nil => exact ⟨Finset.Subset.refl _, by simp, rfl, id⟩
  | cons flow added ih =>
      rcases List.forall_mem_cons.mp all with ⟨⟨id, rfl⟩, rest⟩
      rcases ih rest with ⟨fewer, gone, maximum, respects⟩
      have erased : unacknowledged (.acknowledged id :: added ++ log) ⊆
          unacknowledged (added ++ log) := Finset.erase_subset _ _
      refine ⟨erased.trans fewer, ?_, maximum, ?_⟩
      · intro other mem left
        rcases List.mem_cons.mp mem with same | mem
        · cases same
          exact Finset.notMem_erase _ _ left
        · exact gone other mem (erased left)
      · intro before
        have after := respects before
        refine respects_cons.mpr ⟨?_, after⟩
        exact (Finset.card_le_card erased).trans (after _ List.suffix_rfl)

end Logs

/-! ## Exchanges -/

/-- The publications that are sent, and those that a retry sends, are not more than the Receive
Maximum. -/
structure Budget (maximum : Nat) (e : Exchange) (log : List Flow) : Prop where
  bound : (unacknowledged log ∪ awaiting e).card ≤ maximum
  current : receiveMaximum log = maximum
  respects : Respects log

/-- What is sent and not acknowledged is in flight. -/
def Covered (e : Exchange) (log : List Flow) : Prop :=
  ∀ id ∈ unacknowledged log, id ∈ ids e.outbound

section Exchanges

variable {maximum : Nat} {e e' e'' : Exchange} {log added : List Flow} {action : Session.Action}

theorem awaiting_subset (fewer : ∀ m ∈ e'.outbound, Exchange.AwaitsPublish m →
    ∃ m' ∈ e.outbound, m'.msgid = m.msgid ∧ Exchange.AwaitsPublish m') :
      awaiting e' ⊆ awaiting e := by
  intro id mem
  simp only [awaiting, List.mem_toFinset, mem_ids, List.mem_filter, decide_eq_true_eq] at mem ⊢
  rcases mem with ⟨m, ⟨mem, awaits⟩, rfl⟩
  rcases fewer m mem awaits with ⟨m', mem', same, awaits'⟩
  exact ⟨m', ⟨mem', awaits'⟩, same⟩

theorem mem_awaiting {m : Messages} (mem : m ∈ e.outbound) (awaits : Exchange.AwaitsPublish m) :
    m.msgid ∈ awaiting e := by
  simp only [awaiting, List.mem_toFinset, mem_ids, List.mem_filter, decide_eq_true_eq]
  exact ⟨m, ⟨mem, awaits⟩, rfl⟩

theorem mem_ids_of_mem_awaiting {id : Nat} (counted : id ∈ awaiting e) : id ∈ ids e.outbound := by
  simp only [awaiting, List.mem_toFinset, mem_ids, List.mem_filter] at counted
  rcases counted with ⟨m, ⟨inFlight, -⟩, rfl⟩
  exact mem_ids_of_mem inFlight

/-- Nothing is sent. -/
theorem Budget.of_acknowledges (budget : Budget maximum e log) (acks : Acknowledges added log)
    (fewer : awaiting e' ⊆ awaiting e) : Budget maximum e' (added ++ log) where
  bound := (Finset.card_le_card (Finset.union_subset_union acks.unacknowledged fewer)).trans
    budget.bound
  current := acks.maximum.trans budget.current
  respects := acks.respects budget.respects

/-- What a change leaves of the budget, and of what is in flight unless the session is cleaned. -/
structure Spends (maximum : Nat) (action : Session.Action) (e e' : Exchange) (log : List Flow) :
    Prop where
  spent : ∃ events, e'.trace = events ++ e.trace ∧
    Budget maximum e' (events.flatMap (flows maximum action) ++ log) ∧
    e.trace.count .sessionCleaned ≤ e'.trace.count .sessionCleaned ∧
    (e'.trace.count .sessionCleaned = e.trace.count .sessionCleaned → Covered e log →
      Covered e' (events.flatMap (flows maximum action) ++ log))

/-- An event that is nothing here. -/
theorem Spends.of_event {event : Event} (budget : Budget maximum e log)
    (trace : e'.trace = event :: e.trace) (nothing : flows maximum action event = [])
    (same : event = .sessionCleaned ∧ e'.outbound = [] ∨ e'.outbound = e.outbound) :
    Spends maximum action e e' log := by
  have fewer : awaiting e' ⊆ awaiting e := by
    apply awaiting_subset
    rcases same with ⟨-, cleaned⟩ | same
    · simp [cleaned]
    · rw [same]
      exact fun m mem awaits => ⟨m, mem, rfl, awaits⟩
  refine ⟨[event], trace, ?_, ?_, ?_⟩
  · rw [List.flatMap_singleton, nothing]
    exact budget.of_acknowledges (acknowledges (by simp)) fewer
  · rw [trace]
    exact List.count_le_count_cons
  · intro uncleaned covered
    rw [List.flatMap_singleton, nothing]
    rcases same with ⟨rfl, -⟩ | same
    · rw [trace, List.count_cons_self] at uncleaned
      omega
    · unfold Covered
      rw [same]
      exact covered

/-- A PUBLISH is sent that was counted already. -/
theorem spends_sendPublish {publish : Publish} (budget : Budget maximum e log)
    (counted : publish.msgId ∈ awaiting e) (rc : CompletionCode) :
    Spends maximum action e (e.sendPublish publish rc) log := by
  have same : awaiting (e.sendPublish publish rc) = awaiting e := rfl
  by_cases zero : publish.msgId = 0
  · apply Spends.of_event budget (Exchange.sendPublish_trace ..)
    · simp only [flows, zero, if_true]
    · exact .inr rfl
  · have sent : flows maximum action (.sentPublish publish.msgId publish.dup rc) =
        [.sent publish.msgId] := if_neg zero
    have union : unacknowledged (.sent publish.msgId :: log) ∪ awaiting e =
        unacknowledged log ∪ awaiting e := by
      change insert publish.msgId (unacknowledged log) ∪ awaiting e = _
      rw [Finset.insert_union, Finset.insert_eq_of_mem (Finset.mem_union_right _ counted)]
    have bound : (unacknowledged (.sent publish.msgId :: log) ∪ awaiting e).card ≤ maximum := by
      rw [union]
      exact budget.bound
    refine ⟨[.sentPublish publish.msgId publish.dup rc], rfl, ?_, List.count_le_count_cons, ?_⟩
    · rw [List.flatMap_singleton, sent]
      refine ⟨same ▸ bound, budget.current, respects_cons.mpr ⟨?_, budget.respects⟩⟩
      exact (Finset.card_le_card Finset.subset_union_left).trans
        (bound.trans (Nat.le_of_eq budget.current.symm))
    · rw [List.flatMap_singleton, sent]
      rintro - covered id mem
      rcases Finset.mem_insert.mp mem with rfl | mem
      · exact mem_ids_of_mem_awaiting counted
      · exact covered id mem

theorem internal_spends (budget : Budget maximum e log) (internal : Exchange.Internal e e') :
    Spends maximum action e e' log := by
  cases internal with
  | @retryPublish m mem awaits rc => exact spends_sendPublish budget (mem_awaiting mem awaits) rc
  | retryPubrel mem awaits rc =>
      exact .of_event budget (Exchange.sendAck_trace ..) rfl (.inr (Exchange.sendAck_outbound ..))
  | sendQueued mem rc =>
      exact .of_event budget (Exchange.sendAck_trace ..) rfl (.inr (Exchange.sendAck_outbound ..))
  | resent type msgid => exact .of_event budget rfl rfl (.inr rfl)
  | dropQueue =>
      exact ⟨[], rfl, ⟨budget.bound, budget.current, budget.respects⟩, Nat.le_refl _,
        fun _ covered => covered⟩
  | clean => exact .of_event budget rfl rfl (.inl ⟨rfl, rfl⟩)
  | connect =>
      have bound : (unacknowledged (.connected maximum :: log) ∪ awaiting e).card ≤ maximum :=
        (Finset.card_le_card (Finset.union_subset_union (Finset.empty_subset _)
          (Finset.Subset.refl _))).trans budget.bound
      refine ⟨[.connected], rfl, ⟨bound, rfl, ?_⟩, List.count_le_count_cons, ?_⟩
      · exact respects_cons.mpr ⟨Nat.zero_le _, budget.respects⟩
      · exact fun _ _ id mem => absurd mem (Finset.notMem_empty id)

theorem Spends.trans (first : Spends maximum action e e' log)
    (second : ∀ log, Budget maximum e' log → Spends maximum action e' e'' log) :
    Spends maximum action e e'' log := by
  rcases first with ⟨events, trace, budget, cleanings, covered⟩
  rcases second _ budget with ⟨events', trace', budget', cleanings', covered'⟩
  refine ⟨events' ++ events, ?_, ?_, cleanings.trans cleanings', ?_⟩
  · rw [trace', trace, List.append_assoc]
  · rw [List.flatMap_append, List.append_assoc]
    exact budget'
  · rw [List.flatMap_append, List.append_assoc]
    intro uncleaned before
    have same : e'.trace.count .sessionCleaned = e.trace.count .sessionCleaned := by omega
    exact covered' (by omega) (covered same before)

theorem internals_spends (budget : Budget maximum e log)
    (internals : ReflTransGen Exchange.Internal e e') : Spends maximum action e e' log := by
  induction internals with
  | refl => exact ⟨[], rfl, budget, Nat.le_refl _, fun _ covered => covered⟩
  | tail _ internal ih => exact ih.trans fun _ budget => internal_spends budget internal

end Exchanges

/-! ## The arrival of a packet -/

section Arrivals

variable {maximum : Nat} {e e' e'' : Exchange} {log : List Flow} {action : Session.Action}

/-- Nothing is sent, and messages leave only on their acknowledgement. -/
structure Answers (maximum : Nat) (action : Session.Action) (e e' : Exchange) : Prop where
  answered : ∃ events, e'.trace = events ++ e.trace ∧
    (∀ flow ∈ events.flatMap (flows maximum action), ∃ id, flow = .acknowledged id) ∧
    .sessionCleaned ∉ events ∧
    ∀ id ∈ ids e.outbound,
      id ∈ ids e'.outbound ∨ .acknowledged id ∈ events.flatMap (flows maximum action)
  awaiting : awaiting e' ⊆ awaiting e

theorem Answers.trans (first : Answers maximum action e e')
    (second : Answers maximum action e' e'') :
    Answers maximum action e e'' := by
  rcases first.answered with ⟨events, trace, acks, cleanings, kept⟩
  rcases second.answered with ⟨events', trace', acks', cleanings', kept'⟩
  refine ⟨⟨events' ++ events, ?_, ?_, by simp [cleanings, cleanings'], ?_⟩,
    second.awaiting.trans first.awaiting⟩
  · rw [trace', trace, List.append_assoc]
  · rw [List.flatMap_append]
    intro flow mem
    rcases List.mem_append.mp mem with mem | mem
    · exact acks' flow mem
    · exact acks flow mem
  · rw [List.flatMap_append]
    intro id mem
    rcases kept id mem with mem | gone
    · exact (kept' id mem).imp_right (List.mem_append_left _)
    · exact .inr (List.mem_append_right _ gone)

/-- An event with which nothing leaves. -/
theorem Answers.of_event {event : Event} (trace : e'.trace = event :: e.trace)
    (acks : event ≠ .sessionCleaned ∧
      ∀ flow ∈ flows maximum action event, ∃ id, flow = .acknowledged id)
    (same : e'.outbound = e.outbound) : Answers maximum action e e' := by
  refine ⟨⟨[event], trace, ?_, ?_, ?_⟩, ?_⟩
  · rw [List.flatMap_singleton]
    exact acks.2
  · simpa using acks.1.symm
  · rw [same]
    exact fun id => .inl
  · unfold FlowControl.awaiting
    rw [same]

theorem Answers.logged (event : Event)
    (acks : event ≠ .sessionCleaned ∧
      ∀ flow ∈ flows maximum action event, ∃ id, flow = .acknowledged id) :
    Answers maximum action e (e.log event) :=
  .of_event rfl acks rfl

/-- Nothing happens to the messages in flight. -/
theorem Answers.of_same (trace : e'.trace = e.trace) (same : e'.outbound = e.outbound) :
    Answers maximum action e e' := by
  refine ⟨⟨[], trace, by simp, by simp, ?_⟩, ?_⟩
  · rw [same]
    exact fun id => .inl
  · unfold FlowControl.awaiting
    rw [same]

/-- A message leaves on the event that acknowledges it. -/
theorem Answers.finishOutbound {event : Event} {msgId : Nat}
    (acks : flows maximum action event = [.acknowledged msgId]) :
    Answers maximum action e ((e.log event).finishOutbound msgId) := by
  have cleans : event ≠ .sessionCleaned := by
    rintro rfl
    cases acks
  have fewer : (removeMessage e.outbound msgId).Sublist e.outbound := removeMessage_sublist
  refine ⟨⟨[event], rfl, by simp [acks], by simpa using cleans.symm, ?_⟩, ?_⟩
  · intro id mem
    rw [List.flatMap_singleton, acks]
    by_cases same : id = msgId
    · exact .inr (List.mem_singleton.mpr (congrArg _ same))
    · left
      rcases mem_ids.mp mem with ⟨m, inFlight, rfl⟩
      apply mem_ids_of_mem
      exact (List.mem_eraseP_of_neg (by simp [same])).mpr inFlight
  · apply awaiting_subset
    intro m mem awaits
    exact ⟨m, fewer.subset mem, rfl, awaits⟩

theorem Answers.acceptPubrec (msgId : Nat) : Answers maximum action e (e.acceptPubrec msgId) := by
  have same : ids (e.acceptPubrec msgId).outbound = ids e.outbound :=
    ids_updateMessage fun _ same => same
  refine ⟨⟨[], rfl, by simp, by simp, ?_⟩, ?_⟩
  · rw [same]
    exact fun id => .inl
  · apply awaiting_subset
    intro m mem awaits
    rcases exists_of_mem_updateMessage mem with ⟨old, oldMem, rfl | ⟨sameId, rfl⟩⟩
    · exact ⟨_, oldMem, rfl, awaits⟩
    · refine ⟨old, oldMem, rfl, ?_⟩
      rcases awaits with one | ⟨-, next⟩
      · exact .inl one
      · cases next

theorem Answers.stored (publish : Publish) (m : Messages) :
    Answers maximum action e
      (((e.persistReceived publish).log (.receivedPublish publish)).storeInbound m) := by
  apply @Answers.of_event _ _ _ _ (.receivedPublish publish)
  · rw [Exchange.storeInbound_trace]
    rfl
  · simp [flows]
  · rw [Exchange.storeInbound_outbound]
    rfl

theorem Answers.sendAck {type : PacketType} {msgId : Nat}
    (acknowledges : Exchange.Acknowledges e type msgId e') : Answers maximum action e e' := by
  cases acknowledges with
  | sent rc => exact .of_event (Exchange.sendAck_trace ..) (by
      simp [flows]) (Exchange.sendAck_outbound ..)
  | queued => exact .of_event rfl (by simp [flows]) rfl

theorem handles_answers {packet : Session.Packet} (handles : Exchange.Handles e packet e') :
    Answers maximum (.receive packet) e e' := by
  cases handles with
  | pubackIgnored => exact .logged _ (by simp [flows])
  | puback => exact .finishOutbound rfl
  | @pubrecUnexpected msgId rc _ _ acknowledges =>
      refine (Answers.logged _ ?_).trans (.sendAck acknowledges)
      by_cases error : reasonCodeUnspecifiedError ≤ rc <;> simp [flows, isError, error]
  | pubrecError _ _ _ error =>
      apply Answers.finishOutbound
      simp [flows, isError, error]
  | @pubrec msgId rc _ _ _ _ acknowledges =>
      refine ((Answers.logged _ ?_).trans (.acceptPubrec msgId)).trans (.sendAck acknowledges)
      by_cases error : reasonCodeUnspecifiedError ≤ rc <;> simp [flows, isError, error]
  | pubcompUnexpected => exact .logged _ (by simp [flows])
  | pubcomp => exact .finishOutbound rfl
  | publish0 => exact (Answers.logged _ (by simp [flows])).trans (.logged _ (by simp [flows]))
  | publish1 _ acknowledges =>
      exact ((Answers.logged _ (by simp [flows])).trans (.logged _ (by simp [flows]))).trans
        (.sendAck acknowledges)
  | publishDelivered _ _ _ acknowledges =>
      refine Answers.trans (Answers.trans ?_ (.logged _ (by simp [flows]))) (.sendAck acknowledges)
      exact .stored _ _
  | publishKept _ _ acknowledges =>
      refine Answers.trans ?_ (.sendAck acknowledges)
      exact .stored _ _
  | publishOther => exact .logged _ (by simp [flows])
  | pubrelUnexpected _ acknowledges =>
      exact (Answers.logged _ (by simp [flows])).trans (.sendAck acknowledges)
  | @pubrel msgId m _ _ _ acknowledges =>
      have released : Answers maximum (.receive (.pubrel msgId)) (e.log (.received .pubrel msgId))
          ((if mqttVersion5 ≤ m.mqttVersion then e.log (.received .pubrel msgId)
            else (e.log (.received .pubrel msgId)).log
              (.processed (MQTTProtocol.publicationOf m))).finishInbound msgId) := by
        split
        · exact .of_same rfl rfl
        · exact .of_event rfl (by simp [flows]) rfl
      exact ((Answers.logged _ (by simp [flows])).trans released).trans (.sendAck acknowledges)

theorem Answers.cleanings (answers : Answers maximum action e e') :
    e'.trace.count .sessionCleaned = e.trace.count .sessionCleaned := by
  rcases answers.answered with ⟨events, trace, -, uncleaned, -⟩
  rw [trace, List.count_append, List.count_eq_zero_of_not_mem uncleaned, Nat.zero_add]

theorem Answers.spends (answers : Answers maximum action e e') (budget : Budget maximum e log) :
    Spends maximum action e e' log := by
  rcases answers.answered with ⟨events, trace, acks, -, kept⟩
  have acknowledged := @acknowledges _ log acks
  refine ⟨events, trace, budget.of_acknowledges acknowledged answers.awaiting,
    Nat.le_of_eq answers.cleanings.symm, ?_⟩
  intro _ covered id mem
  rcases kept id (covered id (acknowledged.unacknowledged mem)) with kept | gone
  · exact kept
  · exact absurd mem (acknowledged.gone id gone)

end Arrivals

/-! ## A new publication -/

section Publications

variable {maximum : Nat} {e e' : Exchange} {log : List Flow} {action : Session.Action}
  {message : Session.Message} {msgId : Nat}

/-- There is room for one more publication: by the number of messages in flight, or because the
server accepts as many publications as there are ids. -/
def HasRoom (maximum : Nat) (e' : Exchange) : Prop :=
  (ids e'.outbound).length ≤ maximum ∨
    maxMsgId ≤ maximum ∧ ∀ id ∈ ids e'.outbound, 0 < id ∧ id ≤ maxMsgId

theorem HasRoom.card_le (room : HasRoom maximum e') :
    (ids e'.outbound).toFinset.card ≤ maximum := by
  rcases room with few | ⟨all, inRange⟩
  · exact (List.toFinset_card_le _).trans few
  · have within : (ids e'.outbound).toFinset ⊆ Finset.Icc 1 maxMsgId := by
      intro id mem
      rw [List.mem_toFinset] at mem
      exact Finset.mem_Icc.mpr (inRange id mem)
    have count := Finset.card_le_card within
    rw [Nat.card_Icc] at count
    omega

/-- What is sent and what is counted is in flight. -/
theorem Covered.card_le (covered : Covered e log) (room : HasRoom maximum e) :
    (unacknowledged log ∪ awaiting e).card ≤ maximum := by
  apply (Finset.card_le_card _).trans room.card_le
  intro id mem
  rw [List.mem_toFinset]
  rcases Finset.mem_union.mp mem with sent | counted
  · exact covered id sent
  · exact mem_ids_of_mem_awaiting counted

theorem starts_spends (budget : Budget maximum e log) (covered : Covered e log)
    (starts : Exchange.Starts e message msgId e')
    (room : message.qos ≠ 0 → HasRoom maximum e') : Spends maximum action e e' log := by
  cases starts with
  | unacknowledged qos => exact .of_event budget rfl rfl (.inr rfl)
  | @start msgId rc positive unused qos =>
      have room := room (by omega)
      let publish := Session.publishPacket e.mqttVersion message false msgId
      let m := MQTTProtocol.createMessage publish message.qos message.retained 0
      have outbound : ids ((e.start m).sendPublish publish rc).outbound =
        ids e.outbound ++ [msgId] :=
        ids_append _ _
      have sent : flows maximum action (.sentPublish msgId false rc) = [.sent msgId] :=
        if_neg (by omega)
      have now : Covered ((e.start m).sendPublish publish rc) (.sent msgId :: log) := by
        intro id mem
        rw [outbound, List.mem_append, List.mem_singleton]
        rcases Finset.mem_insert.mp mem with new | old
        · exact .inr new
        · exact .inl (covered id old)
      have bound := now.card_le room
      refine ⟨[.sentPublish msgId false rc, .started m.msgid m.qos], rfl, ?_, ?_, ?_⟩
      · rw [List.flatMap_cons, sent]
        refine ⟨bound, budget.current, respects_cons.mpr ⟨?_, budget.respects⟩⟩
        exact (Finset.card_le_card Finset.subset_union_left).trans
          (bound.trans (Nat.le_of_eq budget.current.symm))
      · exact List.count_le_count_cons.trans List.count_le_count_cons
      · rw [List.flatMap_cons, sent]
        exact fun _ _ => now

theorem starts_cleanings (starts : Exchange.Starts e message msgId e') :
    e'.trace.count .sessionCleaned = e.trace.count .sessionCleaned := by
  cases starts with
  | unacknowledged => exact List.count_cons_of_ne (by simp)
  | start => exact (List.count_cons_of_ne (by simp)).trans (List.count_cons_of_ne (by simp))

end Publications

end FlowControl

end Paho
