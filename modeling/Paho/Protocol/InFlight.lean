import Paho.Protocol.Restoring

/-!
# Messages in flight

Every message in flight awaits an acknowledgement that a retry asks for again, in every run of
a session with restarts anywhere.
-/

namespace Paho

open Relation

/-- A message for which a retry sends a packet. -/
def Messages.Due (m : Messages) : Prop :=
  Exchange.AwaitsPublish m ∨ Exchange.AwaitsPubrel m

namespace Exchange

open MQTTPersistence

/-- The messages in flight, and those that a restart would restore. -/
structure InFlight (e : Exchange) : Prop extends Filed e where
  distinct : (ids e.outbound).Nodup
  due : ∀ m ∈ e.outbound, m.Due
  recorded : ∀ id publish,
    e.record (key .publishSent e.mqttVersion id) = some (.publish publish) →
      publish.qos = 1 ∨ publish.qos = 2

variable {e e' : Exchange} {msgid : Nat}

theorem due_createMessage {publish : Publish} {qos : Nat} (atLeast : qos = 1 ∨ qos = 2)
    (retained : Bool) (now : Nat) :
    (MQTTProtocol.createMessage publish qos retained now).Due := by
  left
  rcases atLeast with rfl | rfl
  · exact .inl rfl
  · exact .inr ⟨rfl, rfl⟩

theorem due_restoredSent {publish : Publish} (qos : publish.qos = 1 ∨ publish.qos = 2) :
    (e.restoredSent publish).Due := by
  rcases qos with one | two
  · left
    exact .inl one
  · cases recorded : (e.record (key .pubrel e.mqttVersion publish.msgId)).isSome with
    | true =>
        right
        refine ⟨?_, ?_⟩
        · change publish.qos ≠ 0
          omega
        · simp [restoredSent, recorded]
    | false =>
        left
        refine .inr ⟨two, ?_⟩
        simp [restoredSent, recorded, MQTTProtocol.createMessage, two]

namespace InFlight

/-- Messages only leave, and publish-sent records only go. -/
theorem of_fewer (inFlight : e.InFlight) (filed : e'.Filed)
    (version : e'.mqttVersion = e.mqttVersion) (fewer : e'.outbound.Sublist e.outbound)
    (record : ∀ id publish,
      e'.record (key .publishSent e.mqttVersion id) = some (.publish publish) →
        e.record (key .publishSent e.mqttVersion id) = some (.publish publish)) :
    e'.InFlight where
  toFiled := filed
  distinct := inFlight.distinct.sublist (fewer.map Messages.msgid)
  due := fun m mem => inFlight.due m (fewer.subset mem)
  recorded := by
    intro id publish stored
    rw [version] at stored
    exact inFlight.recorded id publish (record id publish stored)

/-- The records of publications are as they were. -/
theorem of_same (inFlight : e.InFlight) (filed : e'.Filed)
    (version : e'.mqttVersion = e.mqttVersion) (outbound : e'.outbound = e.outbound)
    (record : ∀ id, e'.record (key .publishSent e.mqttVersion id) =
      e.record (key .publishSent e.mqttVersion id)) : e'.InFlight := by
  apply inFlight.of_fewer filed version
  · rw [outbound]
  · intro id publish stored
    rw [← record id]
    exact stored

theorem log (inFlight : e.InFlight) (event : Event) : (e.log event).InFlight :=
  inFlight.of_same (inFlight.toFiled.log event) rfl rfl fun _ => rfl

theorem sendAck (inFlight : e.InFlight) (type : PacketType) (rc : CompletionCode) :
    (e.sendAck e.mqttVersion type msgid rc).InFlight := by
  apply inFlight.of_same (inFlight.toFiled.sendAck type rc) (by simp) (by simp)
  intro id
  rw [sendAck_record, if_neg]
  rintro ⟨_, _, same⟩
  exact Stem.noConfusion (key_inj.mp same).1

theorem acknowledges (inFlight : e.InFlight) {type : PacketType}
    (acknowledges : Acknowledges e type msgid e') : e'.InFlight := by
  cases acknowledges with
  | sent rc => exact inFlight.sendAck type rc
  | queued =>
      exact inFlight.of_same ⟨inFlight.wellKeyed, inFlight.version⟩ rfl rfl fun _ => rfl

theorem finishOutbound (inFlight : e.InFlight) (msgId : Nat) :
    (e.finishOutbound msgId).InFlight := by
  apply inFlight.of_fewer (inFlight.toFiled.finishOutbound msgId) rfl removeMessage_sublist
  intro id publish stored
  rw [finishOutbound_record] at stored
  split at stored
  · cases stored
  · exact stored

theorem finishInbound (inFlight : e.InFlight) (msgId : Nat) :
    (e.finishInbound msgId).InFlight := by
  apply inFlight.of_fewer (inFlight.toFiled.finishInbound msgId) rfl (List.Sublist.refl _)
  intro id publish stored
  rw [finishInbound_record] at stored
  split at stored
  · cases stored
  · exact stored

theorem clean (inFlight : e.InFlight) : e.clean.InFlight := by
  apply inFlight.of_fewer inFlight.toFiled.clean rfl (List.nil_sublist _)
  intro id publish stored
  rw [clean_record] at stored
  split at stored
  · cases stored
  · exact stored

theorem acceptPubrec (inFlight : e.InFlight) {m : Messages}
    (found : findMessage e.outbound msgid = some m) (awaits : AwaitsPubrec m) :
    (e.acceptPubrec msgid).InFlight where
  toFiled := inFlight.toFiled.acceptPubrec msgid
  distinct := by
    have same : ids (e.acceptPubrec msgid).outbound = ids e.outbound :=
      ids_updateMessage fun _ same => same
    rw [same]
    exact inFlight.distinct
  due := by
    intro m' mem
    rcases (mem_updateMessage inFlight.distinct).mp mem with kept | ⟨old, oldMem, same, rfl⟩
    · exact inFlight.due m' kept.1
    · rcases findMessage_mem found with ⟨foundMem, foundId⟩
      have isOld := eq_of_mem_of_nodup inFlight.distinct oldMem foundMem (same.trans foundId.symm)
      subst isOld
      right
      refine ⟨?_, rfl⟩
      change old.qos ≠ 0
      have two := awaits.1
      omega
  recorded := inFlight.recorded

/-- A PUBLISH of QoS 1 or 2 is put in the store and sent. -/
theorem sendPublish (inFlight : e.InFlight) {publish : Publish} {rc : CompletionCode}
    (filed : (e.sendPublish publish rc).Filed) (qos : publish.qos = 1 ∨ publish.qos = 2) :
    (e.sendPublish publish rc).InFlight where
  toFiled := filed
  distinct := inFlight.distinct
  due := inFlight.due
  recorded := by
    intro id other stored
    rw [sendPublish_record] at stored
    split at stored
    · cases stored
      exact qos
    · exact inFlight.recorded id other stored

theorem persistReceived (inFlight : e.InFlight) {publish : Publish}
    (version : publish.mqttVersion = e.mqttVersion) (qos : publish.qos = 2) :
    (e.persistReceived publish).InFlight := by
  apply inFlight.of_same (inFlight.toFiled.persistReceived version qos) rfl rfl
  intro id
  rw [persistReceived_record, if_neg]
  rintro ⟨_, same⟩
  exact Stem.noConfusion (congrArg PersistenceKey.stem same)

theorem storeInbound (inFlight : e.InFlight) (m : Messages) : (e.storeInbound m).InFlight :=
  inFlight.of_same (inFlight.toFiled.storeInbound m) (by simp) (by simp) (by simp)

theorem restores (inFlight : e.InFlight) (restores : Restores e e') : e'.InFlight where
  toFiled := restores.filed inFlight.toFiled
  distinct := restores.distinctOutbound
  due := by
    intro m mem
    rcases (restores.outbound m).mp mem with ⟨publish, stored, rfl⟩
    exact due_restoredSent (inFlight.recorded _ publish stored)
  recorded := by
    intro id publish stored
    rw [restores.mqttVersion] at stored
    exact inFlight.recorded id publish (restores.subset stored)

end InFlight

theorem internal_inFlight (internal : Internal e e') (inFlight : e.InFlight) : e'.InFlight := by
  have filed := internal_filed internal inFlight.toFiled
  cases internal with
  | retryPublish mem awaits rc =>
      apply inFlight.sendPublish filed
      rcases awaits with one | two
      · exact .inl one
      · exact .inr two.1
  | retryPubrel mem awaits rc =>
      rw [inFlight.version _ mem]
      exact inFlight.sendAck .pubrel rc
  | sendQueued mem rc => exact inFlight.sendAck _ rc
  | resent => exact inFlight.log _
  | dropQueue => exact inFlight.of_same filed rfl rfl fun _ => rfl
  | clean => exact inFlight.clean
  | connect => exact inFlight.log _

theorem internals_inFlight (internals : ReflTransGen Internal e e') (inFlight : e.InFlight) :
    e'.InFlight := by
  induction internals with
  | refl => exact inFlight
  | tail _ internal ih => exact internal_inFlight internal ih

theorem starts_inFlight {message : Session.Message} (starts : Starts e message msgid e')
    (inFlight : e.InFlight) : e'.InFlight := by
  have filed := starts_filed starts inFlight.toFiled
  cases starts with
  | unacknowledged qos => exact inFlight.log _
  | @start _ rc positive unused qos =>
      have started : (e.start (MQTTProtocol.createMessage
          (Session.publishPacket e.mqttVersion message false msgid) message.qos message.retained
          0)).InFlight := by
        refine ⟨⟨inFlight.wellKeyed, ?_⟩, ?_, ?_, inFlight.recorded⟩
        · intro m mem
          rcases List.mem_append.mp mem with old | new
          · exact inFlight.version m old
          · rw [List.mem_singleton.mp new]
            rfl
        · rw [start_outbound, ids_append]
          exact List.nodup_append_comm.mp (List.nodup_cons.mpr ⟨unused, inFlight.distinct⟩)
        · intro m mem
          rcases List.mem_append.mp mem with old | new
          · exact inFlight.due m old
          · rw [List.mem_singleton.mp new]
            exact due_createMessage qos _ _
      exact started.sendPublish filed qos

theorem handles_inFlight {packet : Session.Packet} (handles : Handles e packet e')
    (inFlight : e.InFlight) : e'.InFlight := by
  cases handles with
  | pubackIgnored ignored => exact inFlight.log _
  | puback found qos => exact (inFlight.log _).finishOutbound _
  | pubrecUnexpected unexpected acknowledges =>
      exact (inFlight.log _).acknowledges acknowledges
  | pubrecError found awaits version error => exact (inFlight.log _).finishOutbound _
  | @pubrec msgId _ _ _ found awaits acknowledges =>
      have logged : (e.log (.received .pubrec msgId)).InFlight := inFlight.log _
      exact (logged.acceptPubrec found awaits).acknowledges acknowledges
  | pubcompUnexpected unexpected => exact inFlight.log _
  | pubcomp found awaits => exact (inFlight.log _).finishOutbound _
  | publish0 qos => exact (inFlight.log _).log _
  | publish1 qos acknowledges => exact ((inFlight.log _).log _).acknowledges acknowledges
  | publishDelivered qos version new acknowledges =>
      exact ((((inFlight.persistReceived rfl qos).log _).storeInbound _).log _).acknowledges
        acknowledges
  | publishKept qos kept acknowledges =>
      exact (((inFlight.persistReceived rfl qos).log _).storeInbound _).acknowledges acknowledges
  | publishOther qos => exact inFlight.log _
  | pubrelUnexpected unexpected acknowledges =>
      exact (inFlight.log _).acknowledges acknowledges
  | @pubrel msgId m _ found awaits acknowledges =>
      apply InFlight.acknowledges _ acknowledges
      apply InFlight.finishInbound
      split
      · exact inFlight.log _
      · exact (inFlight.log _).log _

end Exchange

namespace Session

theorem create_inFlight {mqttVersion : Nat} {cleansession : Bool} {persistence : Option Store}
    (empty : ∀ k, (create mqttVersion cleansession persistence).record k = none) :
    (create mqttVersion cleansession persistence).exchange.InFlight where
  wellKeyed := by
    intro k record _ stored
    cases (empty k).symm.trans stored
  version := fun m mem => absurd mem List.not_mem_nil
  distinct := List.nodup_nil
  due := fun m mem => absurd mem List.not_mem_nil
  recorded := by
    intro id publish stored
    cases (empty _).symm.trans stored

/-- One step of a session keeps its messages in flight. -/
theorem step_inFlight {c : Clients} {input : Input} (inFlight : c.exchange.InFlight)
    (listed : ListsKeys c input) : (step c input).exchange.InFlight := by
  by_cases restarts : ∃ keys, input.action = .restart keys
  · rcases restarts with ⟨keys, action⟩
    exact inFlight.restores (step_restores inFlight.toFiled action listed)
  · have running : ∀ keys, input.action ≠ .restart keys :=
      fun keys action => restarts ⟨keys, action⟩
    rcases step_refines (c := c) running with internals | ⟨_, _, _, starts, _⟩ | ⟨_, _, handles⟩
    · exact Exchange.internals_inFlight internals inFlight
    · exact Exchange.starts_inFlight starts inFlight
    · exact Exchange.handles_inFlight handles inFlight

end Session

end Paho
