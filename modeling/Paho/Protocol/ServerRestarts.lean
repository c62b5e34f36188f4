import Paho.Protocol.ServerAnswers

/-!
# Restarts and the server

A process that ends and a new one that restores the session from the store. A publication of QoS 2
whose PUBREL is not recorded is offered again, and no PUBREL was sent for it then.
-/

namespace Paho

namespace Exchange

open MQTTPersistence

variable {e e' : Exchange} {server : Server} {up current : Bool} {msgid : Nat}

/-- No PUBREL is recorded for a publication that waits for PUBREC. -/
def Unrecorded (e : Exchange) : Prop :=
  ∀ m ∈ e.outbound, m.qos = 2 → AwaitsPubcomp m ∨
    (AwaitsPubrec m ∧ e.record (key .pubrel e.mqttVersion m.msgid) = none)

/-- The messages in flight stay, and no PUBREL is recorded for those that wait for PUBREC. -/
theorem Unrecorded.of_frame (unrecorded : e.Unrecorded) (version : e'.mqttVersion = e.mqttVersion)
    (outbound : ∀ m ∈ e'.outbound, m ∈ e.outbound)
    (record : ∀ m ∈ e'.outbound, AwaitsPubrec m →
      e.record (key .pubrel e.mqttVersion m.msgid) = none →
        e'.record (key .pubrel e.mqttVersion m.msgid) = none) : e'.Unrecorded := by
  intro m mem two
  rcases unrecorded m (outbound m mem) two with released | ⟨awaits, absent⟩
  · exact .inl released
  · refine .inr ⟨awaits, ?_⟩
    rw [version]
    exact record m mem awaits absent

theorem Unrecorded.log (unrecorded : e.Unrecorded) (event : Event) : (e.log event).Unrecorded :=
  unrecorded

/-- A PUBREL is recorded for an id whose publication does not wait for PUBREC. -/
theorem Unrecorded.sendAck (unrecorded : e.Unrecorded) (mqttVersion id : Nat) (type : PacketType)
    (rc : CompletionCode)
    (other : type = .pubrel → ∀ m ∈ e.outbound, m.msgid = id → ¬AwaitsPubrec m) :
    (e.sendAck mqttVersion type id rc).Unrecorded := by
  refine unrecorded.of_frame (sendAck_mqttVersion ..) (by simp) fun m mem awaits absent => ?_
  rw [sendAck_outbound] at mem
  rw [sendAck_record, if_neg]
  · exact absent
  · rintro ⟨pubrel, -, same⟩
    exact other pubrel m mem ((PersistenceKey.mk.inj same).2.2) awaits

theorem Acknowledges.unrecorded {id : Nat} {type : PacketType}
    (acknowledges : Acknowledges e type id e') (unrecorded : e.Unrecorded)
    (other : type = .pubrel → ∀ m ∈ e.outbound, m.msgid = id → ¬AwaitsPubrec m) :
    e'.Unrecorded := by
  cases acknowledges with
  | sent rc => exact unrecorded.sendAck e.mqttVersion id type rc other
  | queued => exact unrecorded

/-- Other records are put in the store. -/
theorem Unrecorded.put (unrecorded : e.Unrecorded) {stem : Stem} (other : stem ≠ .pubrel)
    (mqttVersion id : Nat) (record : Record) :
    (e.put (key stem mqttVersion id) record).Unrecorded := by
  refine unrecorded.of_frame rfl (fun _ mem => mem) fun m _ _ absent => ?_
  rw [put_record, if_neg]
  · exact absent
  · rintro ⟨-, same⟩
    exact other (PersistenceKey.mk.inj same).1.symm

theorem Unrecorded.finishOutbound (unrecorded : e.Unrecorded) (id : Nat) :
    (e.finishOutbound id).Unrecorded := by
  refine unrecorded.of_frame rfl (fun _ => mem_of_mem_removeMessage) fun m _ _ absent => ?_
  rw [finishOutbound_record]
  split
  · rfl
  · exact absent

theorem not_awaitsPubrec_of_released (booked : Booked e server) {id : Nat}
    (notOffered : phaseOf e.outbound id ≠ .offered) :
    ∀ m ∈ e.outbound, m.msgid = id → ¬AwaitsPubrec m := by
  rintro m mem rfl awaits
  exact notOffered (phaseOf_of_awaitsPubrec booked.distinct mem awaits)

theorem Quiet.unrecorded (quiet : Quiet up e e') (agrees : Agrees e server up true)
    (unrecorded : e.Unrecorded) : e'.Unrecorded := by
  have booked := agrees.toBooked
  cases quiet with
  | retryPublish isUp mem awaits rc => exact unrecorded.put (by decide) _ _ _
  | @retryPubrel m isUp mem awaits notOne rc =>
      refine unrecorded.sendAck _ _ _ _ fun _ => not_awaitsPubrec_of_released booked ?_
      have two : m.qos = 2 := (booked.qos m mem).resolve_left notOne
      rw [phaseOf_of_awaitsPubcomp booked.distinct mem ⟨two, awaits.2⟩]
      decide
  | @sendQueued ackReq mem rc =>
      rcases ackReq with ⟨id, type⟩
      refine unrecorded.sendAck _ _ _ _ ?_
      rintro rfl
      refine not_awaitsPubrec_of_released booked fun offered => ?_
      have unqueued := ((agrees.numbers id).offered rfl offered).unqueued
      exact of_decide_eq_false unqueued mem
  | resent => exact unrecorded
  | dropQueue => exact unrecorded

theorem Handles.unrecorded {packet : Session.Packet} (handles : Handles e packet e')
    (booked : Booked e server) (unrecorded : e.Unrecorded) : e'.Unrecorded := by
  have noPubrel {type : PacketType} (other : type ≠ .pubrel) {e : Exchange} {id : Nat} :
      type = .pubrel → ∀ m ∈ e.outbound, m.msgid = id → ¬AwaitsPubrec m :=
    fun same => absurd same other
  have stored (publish : Publish) (m : Messages) :
      (((e.persistReceived publish).log (.receivedPublish publish)).storeInbound m).Unrecorded := by
    have put : (e.persistReceived publish).Unrecorded := unrecorded.put (by decide) _ _ _
    exact put.of_frame (by simp) (by simp) (by simp)
  cases handles with
  | pubackIgnored => exact unrecorded
  | puback => exact unrecorded.finishOutbound _
  | @pubrecUnexpected id rc _ unexpected acknowledges =>
      have logged : (e.log (.received .pubrec id)).Unrecorded := unrecorded
      refine acknowledges.unrecorded logged fun _ m mem same => ?_
      subst same
      exact unexpected m (findMessage_of_mem booked.distinct mem)
  | pubrecError => exact unrecorded.finishOutbound _
  | @pubrec id rc m _ found awaits acknowledges =>
      have accepted : ((e.log (.received .pubrec id)).acceptPubrec id).Unrecorded := by
        intro m' mem two
        rcases (mem_updateMessage booked.distinct).mp mem with kept | ⟨old, oldMem, isId, rfl⟩
        · exact unrecorded m' kept.1 two
        · exact .inl ⟨two, rfl⟩
      refine acknowledges.unrecorded accepted fun _ m' mem same => ?_
      rcases (mem_updateMessage booked.distinct).mp mem with kept | ⟨old, oldMem, isId, rfl⟩
      · exact absurd same kept.2
      · exact fun awaits => (nomatch awaits.2)
  | pubcompUnexpected => exact unrecorded
  | pubcomp => exact unrecorded.finishOutbound _
  | publish0 => exact unrecorded
  | publish1 one acknowledges => exact acknowledges.unrecorded unrecorded (noPubrel (by decide))
  | publishDelivered two version new acknowledges =>
      exact acknowledges.unrecorded (stored _ _) (noPubrel (by decide))
  | publishKept two kept acknowledges =>
      exact acknowledges.unrecorded (stored _ _) (noPubrel (by decide))
  | publishOther => exact unrecorded
  | pubrelUnexpected unexpected acknowledges =>
      exact acknowledges.unrecorded unrecorded (noPubrel (by decide))
  | @pubrel id m _ found awaits acknowledges =>
      refine acknowledges.unrecorded ?_ (noPubrel (by decide))
      refine unrecorded.of_frame ?_ ?_ fun m' _ _ absent => ?_
      · split <;> rfl
      · split <;> exact fun _ mem => mem
      · rw [finishInbound_record]
        split
        · rfl
        · split <;> exact absent

theorem Starts.unrecorded {message : Session.Message} {id : Nat} (starts : Starts e message id e')
    (unrecorded : e.Unrecorded)
    (unreleased : message.qos = 2 → e.record (key .pubrel e.mqttVersion id) = none) :
    e'.Unrecorded := by
  cases starts with
  | unacknowledged => exact unrecorded
  | @start _ rc positive unused qos =>
      refine Unrecorded.log (Unrecorded.put ?_ (by decide) _ _ _) _
      intro m mem two
      rcases List.mem_append.mp mem with old | new
      · exact unrecorded m old two
      · rw [List.mem_singleton.mp new] at two ⊢
        exact .inr ⟨⟨two, if_pos two⟩, unreleased two⟩

/-! ## What is restored -/

theorem freed_iff : freed msgid e.trace = true ↔ e.Released msgid := by
  rw [freed, List.any_eq_true]
  constructor
  · rintro ⟨event, mem, releases⟩
    cases event with
    | sentAck type id rc =>
        cases type with
        | pubrel =>
            rw [Event.releases, beq_iff_eq] at releases
            exact ⟨rc, releases ▸ mem⟩
        | _ => cases releases
    | _ => cases releases
  · rintro ⟨rc, mem⟩
    exact ⟨_, mem, beq_self_eq_true msgid⟩

/-- A restored message was in flight. -/
theorem Restores.message (restores : Restores e e') (durable : e.Durable) {m : Messages}
    (mem : m ∈ e'.outbound) : ∃ old ∈ e.outbound, old.msgid = m.msgid ∧ old.qos = m.qos := by
  rcases (restores.outbound m).mp mem with ⟨publish, stored, rfl⟩
  exact durable.message_of_record stored

/-- A message in flight is restored. -/
theorem Restores.restored (restores : Restores e e') (durable : e.Durable) {m : Messages}
    (mem : m ∈ e.outbound) :
    ∃ publish : Publish, publish.msgId = m.msgid ∧ publish.qos = m.qos ∧
      e.restoredSent publish ∈ e'.outbound := by
  rcases durable.sent m mem with ⟨publish, stored, isQos⟩
  rcases durable.wellKeyed.publishSent stored with ⟨_, same, isId⟩
  cases same
  refine ⟨publish, isId, isQos, (restores.outbound _).mpr ⟨publish, ?_, rfl⟩⟩
  exact isId ▸ stored

theorem Restores.mem_ids (restores : Restores e e') (durable : e.Durable) :
    msgid ∈ ids e'.outbound ↔ msgid ∈ ids e.outbound := by
  constructor
  · intro mem
    rcases Paho.mem_ids.mp mem with ⟨m, isMessage, rfl⟩
    rcases restores.message durable isMessage with ⟨old, oldMem, same, -⟩
    exact same ▸ mem_ids_of_mem oldMem
  · intro mem
    rcases Paho.mem_ids.mp mem with ⟨m, isMessage, rfl⟩
    rcases restores.restored durable isMessage with ⟨publish, same, -, restored⟩
    exact same ▸ mem_ids_of_mem restored

/-- The phase of an id is restored, or its publication is offered again for which no PUBREL was
sent. -/
theorem Restores.phase (restores : Restores e e') (durable : e.Durable)
    (unrecorded : e.Unrecorded) (qos : ∀ m ∈ e.outbound, m.qos = 1 ∨ m.qos = 2) (msgid : Nat) :
    phaseOf e'.outbound msgid = phaseOf e.outbound msgid ∨
      (phaseOf e.outbound msgid = .released ∧ freed msgid e.trace = false ∧
        phaseOf e'.outbound msgid = .offered) := by
  by_cases inFlight : msgid ∈ ids e.outbound
  · rcases Paho.mem_ids.mp inFlight with ⟨m, mem, rfl⟩
    rcases restores.restored durable mem with ⟨publish, isId, isQos, restored⟩
    have phase' : phaseOf e'.outbound m.msgid =
        phaseOf e'.outbound (e.restoredSent publish).msgid :=
      congrArg (phaseOf e'.outbound) isId.symm
    rcases qos m mem with one | two
    · left
      have notTwo : (e.restoredSent publish).qos ≠ 2 := by
        change publish.qos ≠ 2
        omega
      rw [phase', phaseOf_of_mem restores.distinctOutbound restored, if_pos notTwo,
        phaseOf_of_mem durable.distinct mem, if_pos (by omega)]
    · have isTwo : publish.qos = 2 := isQos.trans two
      have next := @restoredSent_nextMessageType e publish isTwo
      rw [isId] at next
      by_cases recorded : (e.record (key .pubrel e.mqttVersion m.msgid)).isSome = true
      · rw [if_pos recorded] at next
        have released := phaseOf_of_awaitsPubcomp restores.distinctOutbound restored ⟨isTwo, next⟩
        rcases unrecorded m mem two with awaits | ⟨-, absent⟩
        · left
          rw [phase', released, phaseOf_of_awaitsPubcomp durable.distinct mem awaits]
        · rw [absent] at recorded
          cases recorded
      · rw [if_neg recorded] at next
        have offered := phaseOf_of_awaitsPubrec restores.distinctOutbound restored ⟨isTwo, next⟩
        rcases unrecorded m mem two with awaits | ⟨awaits, -⟩
        · right
          refine ⟨phaseOf_of_awaitsPubcomp durable.distinct mem awaits, ?_, phase'.trans offered⟩
          by_contra sent
          have isFreed : freed m.msgid e.trace = true := by simpa using sent
          have present := durable.released m mem two (freed_iff.mp isFreed)
          exact recorded (Option.isSome_iff_ne_none.mpr present)
        · left
          rw [phase', offered, phaseOf_of_awaitsPubrec durable.distinct mem awaits]
  · have notRestored : msgid ∉ ids e'.outbound :=
      fun mem => inFlight ((restores.mem_ids durable).mp mem)
    left
    rw [phaseOf, phaseOf, findMessage_eq_none.mpr inFlight, findMessage_eq_none.mpr notRestored]

theorem Restores.booked (restores : Restores e e') (durable : e.Durable)
    (booked : Booked e server) : Booked e' server := by
  have isRestarted : Event.Neutral .restarted := trivial
  rcases @neutral_append [.restarted] e.trace
    (List.forall_mem_singleton.mpr isRestarted) with ⟨same, last, discards, written, -⟩
  rw [List.singleton_append, ← restores.trace] at same discards written
  have last (msgid : Nat) : lastStarted msgid e'.trace = lastStarted msgid e.trace :=
    restores.trace ▸ last msgid
  have unread : server.unread e'.trace = server.unread e.trace :=
    congrArg (List.drop server.read) written
  constructor
  · exact restores.distinctOutbound
  · intro m mem
    rcases restores.message durable mem with ⟨old, oldMem, isId, -⟩
    exact isId ▸ booked.positive old oldMem
  · intro m mem
    rcases restores.message durable mem with ⟨old, oldMem, -, isQos⟩
    exact isQos ▸ booked.qos old oldMem
  · intro m mem
    rcases restores.message durable mem with ⟨old, oldMem, isId, isQos⟩
    rw [last, ← isId, ← isQos]
    exact booked.numbered old oldMem
  · rw [written]
    exact booked.read_le
  · exact booked.accepts
  · rw [same]
    exact booked.known
  · rw [unread, same]
    exact booked.publication
  · intro number id mem
    rw [last]
    rw [unread] at mem
    exact booked.last number id mem
  · intro number id started
    rw [same] at started
    rw [restores.mem_ids durable, last, discards]
    exact booked.once number id started

theorem Restores.unrecorded (restores : Restores e e') : e'.Unrecorded := by
  intro m mem two
  rcases (restores.outbound m).mp mem with ⟨publish, stored, rfl⟩
  have next := @restoredSent_nextMessageType e publish two
  have isId : (e.restoredSent publish).msgid = publish.msgId := rfl
  rw [restores.mqttVersion, isId]
  split at next
  next => exact .inl ⟨two, next⟩
  next absent =>
    refine .inr ⟨⟨two, next⟩, ?_⟩
    by_contra present
    rcases Option.ne_none_iff_exists'.mp present with ⟨record, isRecord⟩
    rw [restores.subset isRecord] at absent
    exact absent rfl

/-- A restart agrees with the server. -/
theorem Restores.agrees (restores : Restores e e') (durable : e.Durable)
    (unrecorded : current = true → e.Unrecorded) (agrees : Agrees e server up current) :
    Agrees e' server false current := by
  have booked := agrees.toBooked
  refine ⟨restores.booked durable booked, fun msgid => ?_⟩
  have isRestarted : Event.Neutral .restarted := trivial
  rcases @neutral_append [.restarted] e.trace
    (List.forall_mem_singleton.mpr isRestarted) with ⟨-, last, -, written, frees⟩
  rw [List.singleton_append, ← restores.trace] at written
  have unread : server.unread e'.trace = server.unread e.trace :=
    congrArg (List.drop server.read) written
  have same : e'.handover server false current msgid =
      { e.handover server up current msgid with
        phase := phaseOf e'.outbound msgid
        queued := false
        up := false } := by
    rw [Exchange.handover, unread, restores.queue, decide_eq_false List.not_mem_nil, restores.trace]
    exact congrArg₂ (fun passed freed => ({
      e.handover server up current msgid with
      phase := phaseOf e'.outbound msgid
      passed := passed
      freed := freed
      queued := false
      up := false } : TwoPhase)) (congrArg server.passed (last msgid)) (frees msgid)
  have inv := (agrees.numbers msgid).dropQueue.down
  rw [same]
  by_cases isCurrent : current = true
  · rcases restores.phase durable (unrecorded isCurrent) booked.qos msgid with
      kept | ⟨released, unfreed, offered⟩
    · rw [kept]
      exact inv
    · rw [offered]
      exact inv.fallBack rfl rfl released unfreed
  · refine .of_stale ?_ rfl (by simpa using isCurrent)
    exact inv.sound.of_same rfl rfl rfl rfl

end Exchange

end Paho
