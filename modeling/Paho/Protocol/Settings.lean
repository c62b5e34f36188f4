import Paho.Protocol.Refinement

/-!
# Settings of a session

What is fixed when a client is created or connects, and no operation on the session changes. A
session that is neither a clean session nor expires when it is closed outlives its connections.
-/

namespace Paho

/-- The fields that decide whether a session is discarded. -/
structure Settings where
  mqttVersion : Nat
  cleansession : Bool
  cleanstart : Bool
  sessionExpiry : Nat

namespace Clients

def settings (c : Clients) : Settings :=
  ⟨c.mqttVersion, c.cleansession, c.cleanstart, c.sessionExpiry⟩

/-- Closing the connection keeps the session. -/
def KeepsOnClose (c : Clients) : Prop :=
  c.cleansession = false ∧ (mqttVersion5 ≤ c.mqttVersion → c.sessionExpiry ≠ 0)

theorem KeepsOnClose.of_settings {c c' : Clients} (keeps : c.KeepsOnClose)
    (same : c'.settings = c.settings) : c'.KeepsOnClose := by
  unfold KeepsOnClose at keeps ⊢
  rcases c with ⟨⟩
  rcases c' with ⟨⟩
  simp only [settings, Settings.mk.injEq] at same
  rcases same with ⟨rfl, rfl, rfl, rfl⟩
  exact keeps

end Clients

/-- The settings stay, and the last id stays or is forgotten with the session. -/
structure Steady (c c' : Clients) : Prop where
  settings : c'.settings = c.settings
  msgID : c'.msgID = c.msgID ∨ c'.msgID = 0

namespace Steady

variable {c c' c'' : Clients}

theorem of_same (settings : c'.settings = c.settings) (msgID : c'.msgID = c.msgID) : Steady c c' :=
  ⟨settings, .inl msgID⟩

theorem trans (first : Steady c c') (second : Steady c' c'') : Steady c c'' := by
  refine ⟨second.settings.trans first.settings, ?_⟩
  rcases second.msgID with same | zero
  · exact first.msgID.imp same.trans same.trans
  · exact .inr zero

end Steady

section Operations

variable (c : Clients)

theorem steady_putPacket (record : Record) (htype : PacketType) (msgId scr mqttVersion : Nat) :
    Steady c (MQTTPersistence.putPacket c record htype msgId scr mqttVersion) := by
  unfold MQTTPersistence.putPacket
  split
  · split <;> exact .of_same rfl rfl
  · exact .of_same rfl rfl

theorem steady_send_ack (mqttVersion : Nat) (type : PacketType) (msgid : Nat) :
    Steady c (MQTTPacket.send_ack c mqttVersion type msgid).2 := by
  unfold MQTTPacket.send_ack
  split
  · exact (steady_putPacket c _ _ _ _ _).trans (.of_same rfl rfl)
  · exact .of_same rfl rfl

theorem steady_send_publish (publish : Publish) (dup : Bool) (qos : Nat) (retained : Bool) :
    Steady c (MQTTPacket.send_publish c publish dup qos retained).2 := by
  unfold MQTTPacket.send_publish
  split
  · exact .of_same rfl rfl
  · exact (steady_putPacket c _ _ _ _ _).trans (.of_same rfl rfl)

theorem steady_acknowledge (mqttVersion : Nat) (type : PacketType) (msgId : Nat) :
    Steady c (MQTTProtocol.acknowledge c mqttVersion type msgId).2 := by
  unfold MQTTProtocol.acknowledge
  split
  · exact steady_send_ack c _ _ _
  · exact .of_same rfl rfl

theorem steady_startPublish (publish : Publish) (qos : Nat) (retained : Bool) :
    Steady c (MQTTProtocol.startPublish c publish qos retained).2 := by
  unfold MQTTProtocol.startPublish
  dsimp only
  split
  · refine Steady.trans ?_ (steady_send_publish _ _ _ _ _)
    exact .of_same rfl rfl
  · exact steady_send_publish _ _ _ _ _

theorem steady_persistReceived (publish : Publish) :
    Steady c (MQTTPacket.persistReceived c publish) := by
  unfold MQTTPacket.persistReceived
  split
  · exact steady_putPacket c _ _ _ _ _
  · exact .of_same rfl rfl

theorem steady_storeInbound (m : Messages) : Steady c (MQTTProtocol.storeInbound c m) := by
  unfold MQTTProtocol.storeInbound
  split <;> exact .of_same rfl rfl

theorem steady_handlePublishes (publish : Publish) :
    Steady c (MQTTProtocol.handlePublishes c publish).2 := by
  have received : Steady c (c.log (.receivedPublish publish)) := .of_same rfl rfl
  have stored (m : Messages) := received.trans (steady_storeInbound _ m)
  unfold MQTTProtocol.handlePublishes
  dsimp only
  split
  · exact .of_same rfl rfl
  · refine Steady.trans ?_ (steady_acknowledge _ _ _ _)
    exact .of_same rfl rfl
  · refine Steady.trans ?_ (steady_acknowledge _ _ _ _)
    split
    · exact (stored _).trans (.of_same rfl rfl)
    · exact stored _
  · exact .of_same rfl rfl

theorem steady_handlePubacks (msgId : Nat) :
    Steady c (MQTTProtocol.handlePubacks c msgId).2 := by
  unfold MQTTProtocol.handlePubacks
  dsimp only
  split
  · exact .of_same rfl rfl
  · split <;> exact .of_same rfl rfl

theorem steady_handlePubcomps (msgId : Nat) :
    Steady c (MQTTProtocol.handlePubcomps c msgId).2 := by
  unfold MQTTProtocol.handlePubcomps
  dsimp only
  split
  · exact .of_same rfl rfl
  · split
    · exact .of_same rfl rfl
    · split <;> exact .of_same rfl rfl

theorem steady_handlePubrecs (msgId rc : Nat) :
    Steady c (MQTTProtocol.handlePubrecs c msgId rc).2 := by
  have acknowledged (c' : Clients) (steady : Steady c c') :
      Steady c (MQTTProtocol.acknowledge c' c'.mqttVersion .pubrel msgId).2 :=
    steady.trans (steady_acknowledge c' _ _ _)
  unfold MQTTProtocol.handlePubrecs
  dsimp only
  split
  · exact acknowledged _ (.of_same rfl rfl)
  · split
    · exact acknowledged _ (.of_same rfl rfl)
    · split
      · exact acknowledged _ (.of_same rfl rfl)
      · split
        · exact .of_same rfl rfl
        · exact acknowledged _ (.of_same rfl rfl)

theorem steady_releaseInbound (m : Messages) (msgId : Nat) :
    Steady c (MQTTProtocol.releaseInbound c m msgId) := by
  unfold MQTTProtocol.releaseInbound
  split <;> exact .of_same rfl rfl

theorem steady_handlePubrels (msgId : Nat) :
    Steady c (MQTTProtocol.handlePubrels c msgId).2 := by
  have received : Steady c (c.log (.received .pubrel msgId)) := .of_same rfl rfl
  have answered := received.trans (steady_acknowledge _ c.mqttVersion .pubcomp msgId)
  unfold MQTTProtocol.handlePubrels
  dsimp only
  split
  · exact answered
  · split
    · exact answered
    · split
      · exact answered
      · exact (received.trans (steady_releaseInbound _ _ _)).trans (steady_acknowledge _ _ _ _)

theorem steady_receive (packet : Session.Packet) : Steady c (Session.receive c packet) := by
  cases packet with
  | publish dup message msgId =>
      exact (steady_persistReceived c _).trans (steady_handlePublishes _ _)
  | puback msgId => exact steady_handlePubacks c msgId
  | pubrec msgId rc => exact steady_handlePubrecs c msgId rc
  | pubrel msgId => exact steady_handlePubrels c msgId
  | pubcomp msgId => exact steady_handlePubcomps c msgId

theorem steady_asyncCloseSession : Steady c (MQTTAsync.closeSession c) := by
  unfold MQTTAsync.closeSession
  dsimp only
  split
  · exact ⟨rfl, .inr rfl⟩
  · exact .of_same rfl rfl

theorem steady_closeSession : Steady c (MQTTProtocol.closeSession c) := by
  unfold MQTTProtocol.closeSession MQTTAsync.nextOrClose
  split
  · exact .of_same rfl rfl
  · exact steady_asyncCloseSession c

theorem steady_countSent (regardless : Bool) : Steady c (MQTTProtocol.countSent c regardless) := by
  unfold MQTTProtocol.countSent
  split <;> exact .of_same rfl rfl

theorem steady_retryMessage (m : Messages) : Steady c (MQTTProtocol.retryMessage c m).2 := by
  have published := steady_send_publish c (MQTTProtocol.retryPublish m) true m.qos m.retain
  have released := steady_send_ack c m.mqttVersion .pubrel m.msgid
  unfold MQTTProtocol.retryMessage
  split
  · split
    next result =>
      rw [result] at published
      exact published.trans (steady_closeSession _)
    next result =>
      rw [result] at published
      exact published.trans (.of_same rfl rfl)
  · split
    · split
      next result =>
        rw [result] at released
        exact released.trans (.of_same rfl rfl)
      next result =>
        rw [result] at released
        exact released.trans (steady_closeSession _)
    · exact .of_same rfl rfl

theorem steady_retryLoop (now : Nat) (regardless : Bool) (remaining : List Messages) :
    Steady c (MQTTProtocol.retryLoop now regardless c remaining) := by
  induction remaining generalizing c with
  | nil => exact .of_same rfl rfl
  | cons m rest ih =>
      have counted := steady_countSent c regardless
      have retried := steady_retryMessage (MQTTProtocol.countSent c regardless) m
      unfold MQTTProtocol.retryLoop
      split
      · split
        · split
          next result =>
            rw [result] at retried
            exact (counted.trans retried).trans (ih _)
          next result =>
            rw [result] at retried
            exact counted.trans retried
        · exact ih c
      · exact .of_same rfl rfl

theorem steady_retry (now : Nat) (doRetry regardless : Bool) (c : Clients) :
    Steady c (MQTTProtocol.retry now doRetry regardless c) := by
  have stays : Steady c c := .of_same rfl rfl
  unfold MQTTProtocol.retry MQTTProtocol.retries
  split
  · exact stays
  · split
    · exact steady_closeSession c
    · split
      · exact stays
      · split
        · split
          · exact stays
          · split
            · apply Steady.trans _ (steady_retryLoop _ now true _)
              exact .of_same rfl rfl
            · exact steady_retryLoop c now _ _
        · exact stays

theorem steady_sendQueuedAcks (requests : List AckRequest) :
    Steady c (MQTTProtocol.sendQueuedAcks c requests) := by
  induction requests generalizing c with
  | nil => exact .of_same rfl rfl
  | cons ackReq rest ih =>
      have sent := steady_send_ack c c.mqttVersion ackReq.ackType ackReq.messageId
      unfold MQTTProtocol.sendQueuedAcks
      split
      next result =>
        rw [result] at sent
        exact sent.trans (ih _)
      next result =>
        rw [result] at sent
        exact sent

theorem steady_writeAvailable : Steady c (MQTTProtocol.writeAvailable c) :=
  (steady_sendQueuedAcks c _).trans (.of_same rfl rfl)

end Operations

section Closing

variable {c : Clients}

/-- Closing a session that outlives its connection leaves its exchanges as they are. -/
theorem exchange_asyncCloseSession (keeps : c.KeepsOnClose) :
    (MQTTAsync.closeSession c).exchange = c.exchange := by
  have discards : (c.cleansession ||
      (decide (mqttVersion5 ≤ c.mqttVersion) && c.sessionExpiry == 0)) = false := by
    rw [keeps.1]
    by_cases version : mqttVersion5 ≤ c.mqttVersion
    · simp [keeps.2 version]
    · simp [version]
  unfold MQTTAsync.closeSession
  dsimp only
  rw [if_neg]
  · rfl
  · change ¬(c.cleansession || (decide (mqttVersion5 ≤ c.mqttVersion) && c.sessionExpiry == 0)) =
      true
    rw [discards]
    exact Bool.false_ne_true

theorem exchange_closeSession_keeps (keeps : c.KeepsOnClose) :
    (MQTTProtocol.closeSession c).exchange = c.exchange := by
  unfold MQTTProtocol.closeSession MQTTAsync.nextOrClose
  split
  · rfl
  · exact exchange_asyncCloseSession keeps

end Closing

end Paho
