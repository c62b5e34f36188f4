import Paho.Protocol.Resend

/-!
# The ids of the publications that a session holds

A publication is held while its message is in flight or its PUBLISH is in the store. Of its own
accord a session holds no other ids and sends no other PUBLISH, neither on the arrival of a packet
nor when it is restored from the store; a session that is cleaned holds none.
-/

namespace Paho

open Relation

namespace Exchange

/-- The id belongs to a message in flight, or to a PUBLISH that was sent and is in the store. -/
def Holds (e : Exchange) (id : Nat) : Prop :=
  id ∈ ids e.outbound ∨
    ∃ key publish, key.stem = .publishSent ∧ e.record key = some (.publish publish) ∧
      publish.msgId = id

/--
After a change, a session holds what it held before, and ids that are fresh, and has sent PUBLISH
packets with such ids only.
-/
structure Within (fresh : Nat → Prop) (e e' : Exchange) : Prop where
  holds : ∀ id, e'.Holds id → e.Holds id ∨ fresh id
  sent : ∃ events, e'.trace = events ++ e.trace ∧
    ∀ id dup rc, .sentPublish id dup rc ∈ events → e.Holds id ∨ fresh id

variable {fresh : Nat → Prop} {e e' e'' : Exchange}

namespace Within

theorem refl (e : Exchange) : Within fresh e e :=
  ⟨fun _ => .inl, [], rfl, by simp⟩

theorem trans (first : Within fresh e e') (second : Within fresh e' e'') : Within fresh e e'' := by
  have earlier : ∀ id, e'.Holds id ∨ fresh id → e.Holds id ∨ fresh id := by
    rintro id (held | isFresh)
    · exact first.holds id held
    · exact .inr isFresh
  rcases first.sent with ⟨events, trace, sent⟩
  rcases second.sent with ⟨later, laterTrace, laterSent⟩
  refine ⟨fun id held => earlier id (second.holds id held), later ++ events, ?_, ?_⟩
  · rw [laterTrace, trace, List.append_assoc]
  · intro id dup rc mem
    rcases List.mem_append.mp mem with mem | mem
    · exact earlier id (laterSent id dup rc mem)
    · exact sent id dup rc mem

theorem mono {more : Nat → Prop} (within : Within fresh e e') (le : ∀ id, fresh id → more id) :
    Within more e e' := by
  rcases within.sent with ⟨events, trace, sent⟩
  refine ⟨fun id held => (within.holds id held).imp_right (le id), events, trace, ?_⟩
  intro id dup rc mem
  exact (sent id dup rc mem).imp_right (le id)

/-- Where no id is fresh, nothing new is held. -/
theorem keeps (within : Within (fun _ => False) e e') (id : Nat) (held : e'.Holds id) :
    e.Holds id := by
  rcases within.holds id held with before | never
  · exact before
  · exact never.elim

/-- Nothing new is in flight or in the store, and the event is no PUBLISH, or one with such an id.
-/
theorem of_event {event : Event} (trace : e'.trace = event :: e.trace)
    (outbound : ∀ id ∈ ids e'.outbound, e.Holds id ∨ fresh id)
    (record : ∀ key publish, key.stem = .publishSent → e'.record key = some (.publish publish) →
      e.record key = some (.publish publish) ∨ e.Holds publish.msgId ∨ fresh publish.msgId)
    (sent : ∀ id dup rc, event = .sentPublish id dup rc → e.Holds id ∨ fresh id) :
    Within fresh e e' := by
  refine ⟨?_, [event], trace, ?_⟩
  · rintro id (inFlight | ⟨key, publish, stem, stored, rfl⟩)
    · exact outbound id inFlight
    · rcases record key publish stem stored with old | known
      · exact .inl (.inr ⟨key, publish, stem, old, rfl⟩)
      · exact known
  · intro id dup rc mem
    exact sent id dup rc (List.mem_singleton.mp mem).symm

theorem log (event : Event) (other : ∀ id dup rc, event ≠ .sentPublish id dup rc) :
    Within fresh e (e.log event) := by
  apply of_event rfl
  · intro id inFlight
    exact .inl (.inl inFlight)
  · intro key publish _ stored
    exact .inl stored
  · intro id dup rc same
    exact absurd same (other id dup rc)

/-- Without an event, nothing new is in flight or in the store. -/
theorem of_fewer (trace : e'.trace = e.trace) (outbound : ids e'.outbound ⊆ ids e.outbound)
    (record : ∀ key publish, key.stem = .publishSent → e'.record key = some (.publish publish) →
      e.record key = some (.publish publish)) : Within fresh e e' := by
  refine ⟨?_, [], trace, by simp⟩
  rintro id (inFlight | ⟨key, publish, stem, stored, rfl⟩)
  · exact .inl (.inl (outbound inFlight))
  · exact .inl (.inr ⟨key, publish, stem, record key publish stem stored, rfl⟩)

theorem sendAck (mqttVersion : Nat) (type : PacketType) (msgId : Nat) (rc : CompletionCode) :
    Within fresh e (e.sendAck mqttVersion type msgId rc) := by
  apply of_event (sendAck_trace ..)
  · intro id inFlight
    rw [sendAck_outbound] at inFlight
    exact .inl (.inl inFlight)
  · intro key publish stem stored
    rw [sendAck_record] at stored
    split at stored
    · cases stored
    · exact .inl stored
  · intro id dup rc same
    cases same

/-- A PUBLISH whose id is held or fresh is sent. -/
theorem sendPublish {publish : Publish} (known : e.Holds publish.msgId ∨ fresh publish.msgId)
    (rc : CompletionCode) : Within fresh e (e.sendPublish publish rc) := by
  apply of_event rfl
  · intro id inFlight
    exact .inl (.inl inFlight)
  · intro key other _ stored
    rw [sendPublish_record] at stored
    split at stored
    · cases stored
      exact .inr known
    · exact .inl stored
  · intro id dup rc same
    cases same
    exact known

theorem acknowledges {type : PacketType} {msgId : Nat}
    (acknowledges : Acknowledges e type msgId e') : Within fresh e e' := by
  cases acknowledges with
  | sent rc => exact sendAck _ _ _ rc
  | queued =>
      apply of_event rfl
      · intro id inFlight
        exact .inl (.inl inFlight)
      · intro key publish _ stored
        exact .inl stored
      · intro id dup rc same
        cases same

theorem finishOutbound (msgId : Nat) : Within fresh e (e.finishOutbound msgId) := by
  refine of_fewer rfl ?_ ?_
  · exact (removeMessage_sublist.map _).subset
  · intro key publish _ stored
    rw [finishOutbound_record] at stored
    split at stored
    · cases stored
    · exact stored

theorem finishInbound (msgId : Nat) : Within fresh e (e.finishInbound msgId) := by
  refine of_fewer rfl ?_ ?_
  · exact List.Subset.refl _
  · intro key publish _ stored
    rw [finishInbound_record] at stored
    split at stored
    · cases stored
    · exact stored

theorem acceptPubrec (msgId : Nat) : Within fresh e (e.acceptPubrec msgId) := by
  refine of_fewer rfl ?_ ?_
  · have same : ids (e.acceptPubrec msgId).outbound = ids e.outbound :=
      ids_updateMessage fun _ same => same
    rw [same]
    exact List.Subset.refl _
  · intro key publish _ stored
    exact stored

theorem storeInbound (m : Messages) : Within fresh e (e.storeInbound m) := by
  apply of_fewer (storeInbound_trace ..)
  · rw [storeInbound_outbound]
    exact List.Subset.refl _
  · intro key publish _ stored
    rwa [storeInbound_record] at stored

theorem persistReceived (publish : Publish) : Within fresh e (e.persistReceived publish) := by
  refine of_fewer rfl ?_ ?_
  · exact List.Subset.refl _
  · intro key other stem stored
    rw [persistReceived_record] at stored
    split at stored
    next isKey =>
      rw [isKey.2] at stem
      cases stem
    · exact stored

end Within

theorem holds_clean (e : Exchange) (id : Nat) : ¬e.clean.Holds id := by
  rintro (inFlight | ⟨key, publish, stem, stored, rfl⟩)
  · cases inFlight
  · simp [MQTTPersistence.isInflight, stem] at stored

theorem internal_within (internal : Internal e e') : Within fresh e e' := by
  cases internal with
  | retryPublish mem awaits rc => exact .sendPublish (.inl (.inl (mem_ids_of_mem mem))) rc
  | retryPubrel mem awaits rc => exact .sendAck _ _ _ rc
  | sendQueued mem rc => exact .sendAck _ _ _ rc
  | resent type msgid => exact .log _ (by simp)
  | dropQueue => exact .of_fewer rfl (List.Subset.refl _) fun _ _ _ stored => stored
  | clean =>
      apply Within.of_event rfl
      · simp
      · intro key publish stem stored
        exact absurd (.inr ⟨key, publish, stem, stored, rfl⟩) (holds_clean e publish.msgId)
      · simp
  | connect => exact .log _ (by simp)

theorem internals_within (internals : ReflTransGen Internal e e') : Within fresh e e' := by
  induction internals with
  | refl => exact .refl e
  | tail _ internal ih => exact ih.trans (internal_within internal)

/-- When the session was cleaned, it holds nothing. -/
theorem internals_cleaned (internals : ReflTransGen Internal e e') :
    e'.trace.count .sessionCleaned = e.trace.count .sessionCleaned ∨ ∀ id, ¬e'.Holds id := by
  induction internals with
  | refl => exact .inl rfl
  | @tail mid last _ internal ih =>
      by_cases cleans : last = mid.clean
      · right
        rw [cleans]
        exact holds_clean mid
      · rcases ih with same | nothing
        · left
          rw [← same]
          cases internal with
          | clean => exact absurd rfl cleans
          | retryPublish mem awaits rc => simp
          | retryPubrel mem awaits rc => simp
          | sendQueued mem rc => simp
          | resent type msgid => simp
          | dropQueue => rfl
          | connect => simp
        · right
          intro id held
          exact nothing id ((internal_within internal).keeps id held)

theorem handles_within {packet : Session.Packet} (handles : Handles e packet e') :
    Within fresh e e' := by
  have received : ∀ {e : Exchange} {event : Event},
      (∀ id dup rc, event ≠ .sentPublish id dup rc) → Within fresh e (e.log event) :=
    fun other => .log _ other
  cases handles with
  | pubackIgnored => exact received (by simp)
  | puback => exact (received (by simp)).trans (.finishOutbound _)
  | pubrecUnexpected _ acknowledges => exact (received (by simp)).trans (.acknowledges acknowledges)
  | pubrecError => exact (received (by simp)).trans (.finishOutbound _)
  | pubrec _ _ acknowledges =>
      exact ((received (by simp)).trans (.acceptPubrec _)).trans (.acknowledges acknowledges)
  | pubcompUnexpected => exact received (by simp)
  | pubcomp => exact (received (by simp)).trans (.finishOutbound _)
  | publish0 => exact (received (by simp)).trans (received (by simp))
  | publish1 _ acknowledges =>
      exact ((received (by simp)).trans (received (by simp))).trans (.acknowledges acknowledges)
  | publishDelivered _ _ _ acknowledges =>
      exact ((((Within.persistReceived _).trans (received (by simp))).trans (.storeInbound _)).trans
        (received (by simp))).trans (.acknowledges acknowledges)
  | publishKept _ _ acknowledges =>
      exact (((Within.persistReceived _).trans (received (by simp))).trans (.storeInbound _)).trans
        (.acknowledges acknowledges)
  | publishOther => exact received (by simp)
  | pubrelUnexpected _ acknowledges => exact (received (by simp)).trans (.acknowledges acknowledges)
  | @pubrel msgId m _ _ _ acknowledges =>
      have released : Within fresh (e.log (.received .pubrel msgId))
          (if mqttVersion5 ≤ m.mqttVersion then e.log (.received .pubrel msgId)
            else (e.log (.received .pubrel msgId)).log
              (.processed (MQTTProtocol.publicationOf m))) := by
        split
        · exact .refl _
        · exact received (by simp)
      exact (((received (by simp)).trans released).trans (.finishInbound msgId)).trans
        (.acknowledges acknowledges)

end Exchange

namespace Session

open Exchange MQTTPersistence

variable {fresh : Nat → Prop}

theorem removeRecords_within (c : Clients) (keys : List PersistenceKey) :
    Within fresh c.exchange (c.removeRecords keys).exchange := by
  rw [Clients.exchange_removeRecords]
  refine .of_fewer rfl (List.Subset.refl _) ?_
  intro key publish _ stored
  rw [erase_record] at stored
  split at stored
  · cases stored
  · exact stored

/-- A message is restored under the id of its record. -/
theorem restoreKey_within (c : Clients) (k : PersistenceKey) :
    Within fresh c.exchange (restoringClients (restoreKey c k)).exchange := by
  unfold restoreKey
  split
  · exact .refl _
  · split
    · exact .refl _
    next record stored =>
      split
      · exact .refl _
      · split
        next publish =>
          exact .of_fewer rfl (List.Subset.refl _) fun _ _ _ same => same
        next _ publish stem =>
          let message := MQTTPersistence.restoredSent c publish
          refine ⟨?_, [], rfl, by simp⟩
          rintro id (inFlight | ⟨key, other, sent, same, rfl⟩)
          · have inFlight : id ∈ ids (insertInOrder message c.outboundMsgs) :=
              @ids_map_untouched (insertInOrder message c.outboundMsgs) ▸ inFlight
            have restored := ((insertInOrder_perm _ _).map Messages.msgid).mem_iff.mp inFlight
            rcases List.mem_cons.mp restored with rfl | old
            · exact .inl (.inr ⟨k, publish, stem, stored, rfl⟩)
            · left
              left
              exact (@ids_map_untouched c.outboundMsgs).symm ▸ old
          · exact .inl (.inr ⟨key, other, sent, same, rfl⟩)
        · split
          · exact .refl _
          · exact removeRecords_within c _
        · exact removeRecords_within c _

theorem wrapMsgID_within (c : Clients) :
    Within fresh c.exchange { c with outboundMsgs := wrapMsgID c.outboundMsgs }.exchange := by
  refine .of_fewer rfl ?_ fun _ _ _ stored => stored
  intro id inFlight
  simp only [Clients.exchange, ids_map_untouched] at inFlight ⊢
  exact ((wrapMsgID_perm _).map Messages.msgid).mem_iff.mp inFlight

/-- A new process holds what the store holds. -/
theorem restart_within (c : Clients) (keys : List PersistenceKey) :
    Within fresh c.exchange (restart c keys).exchange := by
  have started : Within fresh c.exchange ((Session.fresh c).log .restarted).exchange := by
    apply Within.of_event rfl
    · intro id inFlight
      cases inFlight
    · intro key publish _ stored
      exact .inl stored
    · simp
  exact @restart_keeps (fun after => Within fresh c.exchange after.exchange)
    (fun after k within => within.trans (restoreKey_within after k))
    (fun after within => within.trans (wrapMsgID_within after)) _ started keys

end Session

end Paho
