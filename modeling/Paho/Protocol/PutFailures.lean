import Paho.Protocol.FailingStore
import Paho.Protocol.Resend

/-!
# What becomes of a put that fails

Whatever a put returns, the packet is given to the socket. So what the calls owe to the store is
honoured in a run exactly when no put of the run fails.
-/

namespace Paho

namespace FailingStore

/-- There is a store, and a PUBREC that waits to be sent belongs to a PUBLISH that was to be put
into it. -/
structure Sound (s : Client) : Prop where
  store : s.c.persistence.isSome = true
  queued : ∀ ack ∈ s.c.outboundQueue, ack.ackType = .pubrec → Filed s.log ack.messageId

/-- No put has failed, and none that the store has still to answer will. -/
structure Served (s : Client) : Prop where
  succeeded : Succeeded s.log
  answers : ∀ result ∈ s.puts, result.rc = 0

/-- From a sound client the log grows as it should, and the client is sound afterwards. -/
def Follows (s s' : Client) : Prop :=
  Sound s → Sound s' ∧ Grows s.log s'.log ∧ (Served s → Served s')

/-- The session goes on with its store, and without more acknowledgements in the queue. -/
structure Continues (c c' : Clients) : Prop where
  store : c'.persistence.isSome = c.persistence.isSome
  queue : c'.outboundQueue ⊆ c.outboundQueue

section Sessions

variable {c c' c'' : Clients}

theorem Continues.of_eq (store : c'.persistence = c.persistence)
    (queue : c'.outboundQueue = c.outboundQueue) : Continues c c' where
  store := by rw [store]
  queue := by rw [queue]; exact List.Subset.refl _

theorem Continues.trans (first : Continues c c') (second : Continues c' c'') : Continues c c'' where
  store := second.store.trans first.store
  queue := List.Subset.trans second.queue first.queue

theorem continues_removeRecords (c : Clients) (keys : List PersistenceKey) :
    Continues c (c.removeRecords keys) where
  store := Option.isSome_map
  queue := List.Subset.refl _

theorem continues_cleanSession (c : Clients) : Continues c (MQTTAsync.cleanSession c) :=
  (continues_removeRecords c _).trans (.of_eq rfl rfl)

theorem continues_closeSession (c : Clients) : Continues c (MQTTProtocol.closeSession c) := by
  have closed : Continues c (MQTTAsync.closeOnly c) := .of_eq rfl rfl
  unfold MQTTProtocol.closeSession MQTTAsync.nextOrClose
  split
  · exact closed
  · unfold MQTTAsync.closeSession
    simp only
    split
    · exact closed.trans (continues_cleanSession _)
    · exact closed

theorem continues_storeInbound (c : Clients) (m : Messages) :
    Continues c (MQTTProtocol.storeInbound c m) := by
  unfold MQTTProtocol.storeInbound
  split
  · exact .of_eq rfl rfl
  · exact .of_eq rfl rfl

theorem continues_releaseInbound (c : Clients) (m : Messages) (msgId : Nat) :
    Continues c (MQTTProtocol.releaseInbound c m msgId) := by
  have processed : Continues c (if mqttVersion5 ≤ m.mqttVersion then c
      else MQTTProtocol.processPublication c (MQTTProtocol.publicationOf m)) := by
    split
    · exact .of_eq rfl rfl
    · exact .of_eq rfl rfl
  unfold MQTTProtocol.releaseInbound
  exact (processed.trans (continues_removeRecords _ _)).trans (.of_eq rfl rfl)

theorem continues_handlePubacks (c : Clients) (msgId : Nat) :
    Continues c (MQTTProtocol.handlePubacks c msgId).2 := by
  unfold MQTTProtocol.handlePubacks
  simp only
  split
  · exact .of_eq rfl rfl
  · split
    · exact .of_eq rfl rfl
    · exact ⟨Option.isSome_map, List.Subset.refl _⟩

theorem continues_handlePubcomps (c : Clients) (msgId : Nat) :
    Continues c (MQTTProtocol.handlePubcomps c msgId).2 := by
  unfold MQTTProtocol.handlePubcomps
  simp only
  split
  · exact .of_eq rfl rfl
  · split
    · exact .of_eq rfl rfl
    · split
      · exact .of_eq rfl rfl
      · exact ⟨Option.isSome_map, List.Subset.refl _⟩

theorem continues_restoreKey (c : Clients) (k : PersistenceKey) :
    Continues c (Session.restoringClients (MQTTPersistence.restoreKey c k)) := by
  unfold MQTTPersistence.restoreKey
  split
  · exact .of_eq rfl rfl
  · split
    · exact .of_eq rfl rfl
    · split
      · exact .of_eq rfl rfl
      · split
        · exact .of_eq rfl rfl
        · exact .of_eq rfl rfl
        · split
          · exact .of_eq rfl rfl
          · exact continues_removeRecords c _
        · exact continues_removeRecords c _

theorem continues_restoreKeys (c : Clients) (keys : List PersistenceKey) :
    Continues c (Session.restoringClients (MQTTPersistence.restoreKeys c keys)) := by
  induction keys generalizing c with
  | nil => exact .of_eq rfl rfl
  | cons k keys ih =>
      have first := continues_restoreKey c k
      unfold MQTTPersistence.restoreKeys
      cases round : MQTTPersistence.restoreKey c k with
      | continues c' =>
          rw [round] at first
          exact first.trans (ih c')
      | failed c' =>
          rw [round] at first
          exact first
      | exits c' =>
          rw [round] at first
          exact first

theorem continues_restart (c : Clients) (keys : List PersistenceKey) :
    Continues c (Session.restart c keys) := by
  have fresh : Continues c ((Session.fresh c).log .restarted) := ⟨rfl, List.nil_subset _⟩
  have loop := fresh.trans (continues_restoreKeys ((Session.fresh c).log .restarted) keys)
  unfold Session.restart MQTTPersistence.restorePackets
  cases ends : MQTTPersistence.restoreKeys ((Session.fresh c).log .restarted) keys with
  | continues c' =>
      rw [ends] at loop
      exact loop.trans (.of_eq rfl rfl)
  | failed c' =>
      rw [ends] at loop
      exact loop.trans (.of_eq rfl rfl)
  | exits c' =>
      rw [ends] at loop
      exact loop

end Sessions

section Calls

variable {s s' s'' : Client}

namespace Follows

theorem refl (s : Client) : Follows s s :=
  fun sound => ⟨sound, .refl, id⟩

theorem trans (first : Follows s s') (second : Follows s' s'') : Follows s s'' := by
  intro sound
  rcases first sound with ⟨sound', grows, served⟩
  rcases second sound' with ⟨sound'', grows', served'⟩
  exact ⟨sound'', grows.trans grows', served' ∘ served⟩

/-- The session goes on, and nothing is put or given. -/
theorem of_continues (continues : Continues s.c s'.c) (log : s'.log = s.log)
    (puts : s'.puts = s.puts) :
    Follows s s' := by
  intro sound
  refine ⟨⟨continues.store.trans sound.store, ?_⟩, ?_, ?_⟩
  · intro ack mem isPubrec
    rw [log]
    exact sound.queued ack (continues.queue mem) isPubrec
  · rw [log]
    exact .refl
  · exact fun served => ⟨log ▸ served.succeeded, puts ▸ served.answers⟩

end Follows

/-- The log of a client that has put what it was to put. -/
theorem succeeded_cons {log : List Entry} {stem : Stem} {msgId : Nat} {rc : Int} :
    Succeeded (.put stem msgId rc :: log) ↔ rc = 0 ∧ Succeeded log := by
  constructor
  · intro succeeded
    exact ⟨succeeded stem msgId rc List.mem_cons_self,
      fun other id code mem => succeeded other id code (List.mem_cons_of_mem _ mem)⟩
  · rintro ⟨isZero, succeeded⟩ other id code mem
    rcases List.mem_cons.mp mem with same | mem
    · cases same
      exact isZero
    · exact succeeded other id code mem

theorem succeeded_given {log : List Entry} {type : PacketType} {qos msgId : Nat} :
    Succeeded (.given type qos msgId :: log) ↔ Succeeded log := by
  constructor
  · exact fun succeeded other id code mem => succeeded other id code (List.mem_cons_of_mem _ mem)
  · intro succeeded other id code mem
    exact succeeded other id code ((List.mem_cons.mp mem).resolve_left (by simp))

/-- There is a store: the put is made. -/
theorem putPacket_log (store : s.c.persistence.isSome = true) (record : Record) (htype : PacketType)
    (msgId scr mqttVersion : Nat) :
    ∃ rc, (Client.putPacket s record htype msgId scr mqttVersion).1 = rc ∧
      (Client.putPacket s record htype msgId scr mqttVersion).2.log =
        .put (Client.stem htype scr) msgId rc :: s.log := by
  unfold Client.putPacket
  split
  next absent =>
    rw [absent] at store
    cases store
  · exact ⟨_, rfl, rfl⟩

theorem putPacket_continues (s : Client) (record : Record) (htype : PacketType)
    (msgId scr mqttVersion : Nat) :
    Continues s.c (Client.putPacket s record htype msgId scr mqttVersion).2.c := by
  have stored : Continues s.c
    (MQTTPersistence.putPacket s.c record htype msgId scr mqttVersion) := by
    unfold MQTTPersistence.putPacket
    split
    · split
      · exact ⟨Option.isSome_map, List.Subset.refl _⟩
      · exact ⟨Option.isSome_map, List.Subset.refl _⟩
      · exact ⟨Option.isSome_map, List.Subset.refl _⟩
    · exact ⟨Option.isSome_map, List.Subset.refl _⟩
  unfold Client.putPacket
  split
  · exact .of_eq rfl rfl
  · simp only
    split
    · exact stored
    · exact .of_eq rfl rfl

theorem putPacket_served (served : Served s) (record : Record) (htype : PacketType)
    (msgId scr mqttVersion : Nat) :
    Served (Client.putPacket s record htype msgId scr mqttVersion).2 := by
  have rc : (s.puts.headD {}).rc = 0 := by
    cases answers : s.puts with
    | nil => rfl
    | cons result _ =>
        apply served.answers
        rw [answers]
        exact List.mem_cons_self
  unfold Client.putPacket
  split
  · exact served
  · constructor
    · exact succeeded_cons.mpr ⟨rc, served.succeeded⟩
    · exact fun result mem => served.answers result (List.mem_of_mem_tail mem)

theorem putdatas_served (served : Served s) (type : PacketType) (qos msgId : Nat)
    (event : CompletionCode → Event) : Served (Client.putdatas s type qos msgId event).2 :=
  ⟨succeeded_given.mpr served.succeeded, served.answers⟩

theorem putdatas_continues (s : Client) (type : PacketType) (qos msgId : Nat)
    (event : CompletionCode → Event) :
    Continues s.c (Client.putdatas s type qos msgId event).2.c :=
  .of_eq rfl rfl

/-- A packet that needs no record, or a PUBREC of a PUBLISH that was filed, is given to the socket.
-/
theorem follows_putdatas {type : PacketType} {qos msgId : Nat} {event : CompletionCode → Event}
    (allowed : needs type qos = none ∨ (type = .pubrec ∧ Filed s.log msgId)) :
    Follows s (Client.putdatas s type qos msgId event).2 := by
  intro sound
  refine ⟨⟨sound.store, ?_⟩, ?_, fun served => putdatas_served served type qos msgId event⟩
  · intro ack mem isPubrec
    rcases sound.queued ack mem isPubrec with ⟨rc, filed⟩
    exact ⟨rc, List.mem_cons_of_mem _ filed⟩
  · rcases allowed with noRecord | ⟨rfl, filed⟩
    · exact .plain .refl noRecord
    · exact .pubrec .refl filed

/-- A packet is given to the socket right behind the put of its record. -/
theorem follows_put_putdatas {record : Record} {type : PacketType} {qos msgId mqttVersion : Nat}
    {event : CompletionCode → Event} (isRecord : needs type qos = some (Client.stem type 0)) :
    Follows s (Client.putdatas (Client.putPacket s record type msgId 0 mqttVersion).2 type qos msgId
      event).2 := by
  intro sound
  rcases putPacket_log sound.store record type msgId 0 mqttVersion with ⟨rc, -, log⟩
  have continues := (putPacket_continues s record type msgId 0 mqttVersion).trans
    (putdatas_continues (Client.putPacket s record type msgId 0 mqttVersion).2 type qos msgId event)
  have isLog : (Client.putdatas (Client.putPacket s record type msgId 0 mqttVersion).2
    type qos msgId
      event).2.log = .given type qos msgId :: .put (Client.stem type 0) msgId rc :: s.log :=
    congrArg (Entry.given type qos msgId :: ·) log
  refine ⟨⟨continues.store.trans sound.store, ?_⟩, ?_, ?_⟩
  · intro ack mem isPubrec
    rcases sound.queued ack (continues.queue mem) isPubrec with ⟨rc', filed⟩
    rw [isLog]
    exact ⟨rc', List.mem_cons_of_mem _ (List.mem_cons_of_mem _ filed)⟩
  · rw [isLog]
    exact .sent rc .refl isRecord
  · intro served
    apply putdatas_served
    exact putPacket_served served record type msgId 0 mqttVersion

theorem follows_send_publish (s : Client) (publish : Publish) (dup : Bool) (qos : Nat)
    (retained : Bool) : Follows s (Client.send_publish s publish dup qos retained).2 := by
  unfold Client.send_publish
  by_cases qos0 : qos = 0
  · simp only [qos0, if_true]
    exact follows_putdatas (.inl rfl)
  · simp only [qos0, if_false]
    apply follows_put_putdatas
    simp [needs, qos0, Client.stem]

theorem follows_send_ack {type : PacketType} {msgid : Nat} (mqttVersion : Nat)
    (allowed : type = .pubrec → Filed s.log msgid) :
    Follows s (Client.send_ack s mqttVersion type msgid).2 := by
  unfold Client.send_ack
  by_cases isPubrel : type = .pubrel
  · subst isPubrel
    simp only [if_true]
    apply follows_put_putdatas
    rfl
  · simp only [isPubrel, if_false]
    apply follows_putdatas
    by_cases isPubrec : type = .pubrec
    · exact .inr ⟨isPubrec, allowed isPubrec⟩
    · left
      cases type <;> simp_all [needs]

theorem follows_acknowledge {type : PacketType} {msgid : Nat} (mqttVersion : Nat)
    (allowed : type = .pubrec → Filed s.log msgid) :
    Follows s (Client.acknowledge s mqttVersion type msgid).2 := by
  unfold Client.acknowledge
  split
  · exact follows_send_ack mqttVersion allowed
  · intro sound
    refine ⟨⟨sound.store, ?_⟩, .refl, fun served => ⟨served.succeeded, served.answers⟩⟩
    intro ack mem isPubrec
    rcases List.mem_append.mp mem with old | new
    · exact sound.queued ack old isPubrec
    · rw [List.mem_singleton.mp new] at isPubrec ⊢
      exact allowed isPubrec

theorem follows_sendQueuedAcks {acks : List AckRequest}
    (allowed : ∀ ack ∈ acks, ack.ackType = .pubrec → Filed s.log ack.messageId) :
    Follows s (Client.sendQueuedAcks s acks) := by
  induction acks generalizing s with
  | nil => exact .refl s
  | cons ack acks ih =>
      have first := @follows_send_ack s ack.ackType ack.messageId s.c.mqttVersion
        (allowed ack List.mem_cons_self)
      unfold Client.sendQueuedAcks
      generalize Client.send_ack s s.c.mqttVersion ack.ackType ack.messageId = result at first
      rcases result with ⟨rc, s'⟩
      intro sound
      have grows := (first sound).2.1
      have rest : Follows s' (Client.sendQueuedAcks s' acks) := by
        apply ih
        intro other mem isPubrec
        rcases allowed other (List.mem_cons_of_mem _ mem) isPubrec with ⟨rc, filed⟩
        exact ⟨rc, grows.suffix.subset filed⟩
      cases rc with
      | complete => exact first.trans rest sound
      | interrupted => exact first sound
      | socketError => exact first sound

theorem follows_writeAvailable (s : Client) : Follows s (Client.writeAvailable s) := by
  intro sound
  have sent : Follows s (Client.sendQueuedAcks s s.c.outboundQueue) :=
    follows_sendQueuedAcks sound.queued
  apply sent.trans _ sound
  exact .of_continues ⟨rfl, List.nil_subset _⟩ rfl rfl

theorem follows_startPublish (s : Client) (publish : Publish) (qos : Nat) (retained : Bool) :
    Follows s (Client.startPublish s publish qos retained).2 := by
  unfold Client.startPublish
  split
  · apply Follows.trans _ (follows_send_publish _ _ false qos retained)
    exact .of_continues (.of_eq rfl rfl) rfl rfl
  · exact follows_send_publish _ _ false qos retained

theorem follows_returned (s : Client) (rc : Int) : Follows s { s with rc := rc } :=
  .of_continues (.of_eq rfl rfl) rfl rfl

theorem follows_publish (s : Client) (message : Session.Message) :
    Follows s (Client.publish s message) := by
  unfold Client.publish
  split
  · exact .refl s
  · split
    · exact (follows_startPublish s _ 0 message.retained).trans (follows_returned _ _)
    · split
      · exact .refl s
      next msgId c assigned =>
        have continues : Continues s.c c := by
          unfold MQTTProtocol.assignMsgId at assigned
          split at assigned
          · cases assigned
          · injection assigned with same
            injection same with _ isClient
            subst isClient
            split
            · exact .of_eq rfl rfl
            · exact .of_eq rfl rfl
        have assigned' : Follows s { s with c := c } := .of_continues continues rfl rfl
        split
        · exact assigned'
        · exact (assigned'.trans (follows_startPublish _ _ message.qos message.retained)).trans
            (follows_returned _ _)

theorem follows_handlePubrecs (s : Client) (msgId rc : Nat) :
    Follows s (Client.handlePubrecs s msgId rc).2 := by
  have logged : Follows s { s with c := s.c.log (.received .pubrec msgId) } :=
    .of_continues (.of_eq rfl rfl) rfl rfl
  have pubrel (before : Client) (mqttVersion : Nat) :
      Follows before (Client.acknowledge before mqttVersion .pubrel msgId).2 :=
    follows_acknowledge mqttVersion (by simp)
  unfold Client.handlePubrecs
  simp only
  split
  · exact logged.trans (pubrel _ _)
  · split
    · exact logged.trans (pubrel _ _)
    · split
      · exact logged.trans (pubrel _ _)
      · split
        · apply logged.trans
          exact .of_continues ⟨Option.isSome_map, List.Subset.refl _⟩ rfl rfl
        · apply logged.trans (Follows.trans _ (pubrel _ _))
          exact .of_continues (.of_eq rfl rfl) rfl rfl

theorem follows_handlePubrels (s : Client) (msgId : Nat) :
    Follows s (Client.handlePubrels s msgId).2 := by
  have logged : Follows s { s with c := s.c.log (.received .pubrel msgId) } :=
    .of_continues (.of_eq rfl rfl) rfl rfl
  have pubcomp (before : Client) (mqttVersion : Nat) :
      Follows before (Client.acknowledge before mqttVersion .pubcomp msgId).2 :=
    follows_acknowledge mqttVersion (by simp)
  unfold Client.handlePubrels
  simp only
  split
  · exact logged.trans (pubcomp _ _)
  · split
    · exact logged.trans (pubcomp _ _)
    · split
      · exact logged.trans (pubcomp _ _)
      · apply logged.trans (Follows.trans _ (pubcomp _ _))
        exact .of_continues (continues_releaseInbound _ _ msgId) rfl rfl

/-- A PUBLISH of another QoS than 2 has no record. -/
theorem follows_handlePublishes {publish : Publish} (notTwo : publish.qos ≠ 2) :
    Follows s (Client.handlePublishes s publish).2 := by
  have logged : Follows s { s with c := s.c.log (.receivedPublish publish) } :=
    .of_continues (.of_eq rfl rfl) rfl rfl
  unfold Client.handlePublishes
  simp only
  split
  · apply logged.trans
    exact .of_continues (.of_eq rfl rfl) rfl rfl
  · apply logged.trans (Follows.trans _ (follows_acknowledge publish.mqttVersion (by simp)))
    exact .of_continues (.of_eq rfl rfl) rfl rfl
  next isTwo => exact absurd isTwo notTwo
  · exact logged

/-- A packet other than a PUBLISH of QoS 2. -/
theorem follows_receive {packet : Session.Packet}
    (notTwo : ∀ dup message msgId, packet = .publish dup message msgId → message.qos ≠ 2) :
    Follows s (Client.receive s packet) := by
  cases packet with
  | publish dup message msgId =>
      have notTwo : message.qos ≠ 2 := notTwo dup message msgId rfl
      have unfiled : Client.persistReceived s
        (Session.publishPacket s.c.mqttVersion message dup msgId)
          = (0, s) := if_neg notTwo
      simp only [Client.receive, unfiled]
      exact (follows_returned s 0).trans
        (Follows.trans (follows_handlePublishes notTwo) (follows_returned _ _))
  | puback msgId => exact .of_continues (continues_handlePubacks s.c msgId) rfl rfl
  | pubcomp msgId => exact .of_continues (continues_handlePubcomps s.c msgId) rfl rfl
  | pubrec msgId reason => exact (follows_handlePubrecs s msgId reason).trans (follows_returned _ _)
  | pubrel msgId => exact (follows_handlePubrels s msgId).trans (follows_returned _ _)

theorem follows_giveUp (s : Client) : Follows s (Client.giveUp s) := by
  have bad : Continues s.c { s.c with good := false } := .of_eq rfl rfl
  exact .of_continues (bad.trans (continues_closeSession _)) rfl rfl

theorem follows_retryMessage (s : Client) (m : Messages) :
    Follows s (Client.retryMessage s m).2 := by
  unfold Client.retryMessage
  split
  · have sent := follows_send_publish s (MQTTProtocol.retryPublish m) true m.qos m.retain
    generalize Client.send_publish s (MQTTProtocol.retryPublish m) true m.qos m.retain =
      result at sent
    rcases result with ⟨rc, s'⟩
    cases rc with
    | complete => exact sent.trans (.of_continues (.of_eq rfl rfl) rfl rfl)
    | interrupted => exact sent.trans (.of_continues (.of_eq rfl rfl) rfl rfl)
    | socketError => exact sent.trans (follows_giveUp s')
  · split
    · have sent := @follows_send_ack s .pubrel m.msgid m.mqttVersion (by simp)
      generalize Client.send_ack s m.mqttVersion .pubrel m.msgid = result at sent
      rcases result with ⟨rc, s'⟩
      cases rc with
      | complete => exact sent.trans (.of_continues (.of_eq rfl rfl) rfl rfl)
      | interrupted => exact sent.trans (follows_giveUp s')
      | socketError => exact sent.trans (follows_giveUp s')
    · exact .refl s

theorem follows_retryLoop (now : Nat) (regardless : Bool) (s : Client) (due : List Messages) :
    Follows s (Client.retryLoop now regardless s due) := by
  induction due generalizing s with
  | nil => exact .refl s
  | cons m due ih =>
      unfold Client.retryLoop
      split
      · split
        · have counted : Follows s { s with c := MQTTProtocol.countSent s.c regardless } := by
            refine .of_continues ?_ rfl rfl
            unfold MQTTProtocol.countSent
            split
            · exact .of_eq rfl rfl
            · exact .of_eq rfl rfl
          have retried := counted.trans (follows_retryMessage _ m)
          generalize Client.retryMessage { s with c := MQTTProtocol.countSent s.c regardless } m =
            result at retried
          rcases result with ⟨goesOn, s'⟩
          cases goesOn with
          | true => exact retried.trans (ih s')
          | false => exact retried
        · exact ih s
      · exact .refl s

theorem follows_retry (now : Nat) (doRetry regardless : Bool) (s : Client) :
    Follows s (Client.retry now doRetry regardless s) := by
  unfold Client.retry
  split
  · exact .refl s
  · split
    · exact .of_continues (continues_closeSession s.c) rfl rfl
    · split
      · exact .refl s
      · split
        · unfold Client.retries
          split
          · exact .refl s
          · split
            · apply Follows.trans _ (follows_retryLoop now _ _ _)
              exact .of_continues (.of_eq rfl rfl) rfl rfl
            · exact follows_retryLoop now _ _ _
        · exact .refl s

theorem follows_completeConnection (s : Client) (sessionPresent : Bool) :
    Follows s (Client.completeConnection s sessionPresent) := by
  have connected : Continues s.c
      { s.c with connected := true, good := true, trace := .connected :: s.c.trace } :=
        .of_eq rfl rfl
  unfold Client.completeConnection
  simp only
  generalize isClient : (if (s.c.cleansession || s.c.cleanstart) = true then _ else _) = c
  have continues : Continues s.c c := by
    rw [← isClient]
    split
    · exact connected.trans (continues_cleanSession _)
    · split
      · exact connected.trans (continues_cleanSession _)
      · exact connected
  split
  · apply Follows.trans _ (follows_retry 0 true true _)
    exact .of_continues (continues.trans (.of_eq rfl rfl)) rfl rfl
  · exact .of_continues continues rfl rfl

/-- Every action but the arrival of a PUBLISH of QoS 2. -/
theorem follows_act {action : Session.Action}
    (notTwo : ∀ dup message msgId, action = .receive (.publish dup message msgId) →
      message.qos ≠ 2) : Follows s (Client.act s action) := by
  cases action with
  | publish message =>
      simp only [Client.act]
      split
      · exact follows_publish s message
      · exact .refl s
  | receive packet =>
      simp only [Client.act]
      split
      · apply follows_receive
        rintro dup message msgId rfl
        exact notTwo dup message msgId rfl
      · exact .refl s
  | retry doRetry => exact follows_retry _ doRetry false s
  | continueWrite succeeded =>
      simp only [Client.act]
      split
      · split
        · apply Follows.trans _ (follows_writeAvailable _)
          exact .of_continues (.of_eq rfl rfl) rfl rfl
        · exact .of_continues (.of_eq rfl rfl) rfl rfl
      · exact .refl s
  | connectionLost =>
      refine .of_continues ?_ rfl rfl
      simp only [Client.act, Session.act]
      split
      · exact continues_closeSession s.c
      · exact .of_eq rfl rfl
  | connect sessionPresent =>
      simp only [Client.act]
      split
      · exact .refl s
      · exact follows_completeConnection s sessionPresent
  | restart keys => exact .of_continues (continues_restart s.c keys) rfl rfl

end Calls

section Steps

variable {s : Client} {publish : Publish}

theorem acknowledge_pubrec (s : Client) (mqttVersion msgId : Nat) :
    (Client.acknowledge s mqttVersion .pubrec msgId).2.log = .given .pubrec 0 msgId :: s.log ∨
      ((Client.acknowledge s mqttVersion .pubrec msgId).2.log = s.log ∧
        (Client.acknowledge s mqttVersion .pubrec msgId).1 = .complete) := by
  unfold Client.acknowledge
  split
  · exact .inl rfl
  · exact .inr ⟨rfl, rfl⟩

/-- A PUBLISH of QoS 2 that was to be put into the store is handled: PUBREC is given to the socket,
or it is queued and no error is returned. -/
theorem handlePublishes_two (isTwo : publish.qos = 2) (filed : Filed s.log publish.msgId) :
    Follows s (Client.handlePublishes s publish).2 ∧
      ((Client.handlePublishes s publish).2.log = .given .pubrec 0 publish.msgId :: s.log ∨
        ((Client.handlePublishes s publish).2.log = s.log ∧
          (Client.handlePublishes s publish).1 = .complete)) := by
  have logged : Continues s.c (s.c.log (.receivedPublish publish)) := .of_eq rfl rfl
  have stored (m : Messages) := logged.trans (continues_storeInbound _ m)
  have acknowledged (c : Clients) (continues : Continues s.c c) :
      Follows s (Client.acknowledge { s with c := c } publish.mqttVersion .pubrec
        publish.msgId).2 := by
    have goesOn : Follows s { s with c := c } := .of_continues continues rfl rfl
    exact goesOn.trans (follows_acknowledge publish.mqttVersion fun _ => filed)
  unfold Client.handlePublishes
  simp only [isTwo]
  constructor
  · apply acknowledged
    split
    · exact (stored _).trans (.of_eq rfl rfl)
    · exact stored _
  · exact acknowledge_pubrec { s with c := _ } publish.mqttVersion publish.msgId

/-- The arrival of a PUBLISH of QoS 2: its put, and its PUBREC whatever the put has returned. -/
theorem receive_two {dup : Bool} {message : Session.Message} {msgId : Nat} (isTwo : message.qos = 2)
    (sound : Sound s) :
    Sound (Client.receive s (.publish dup message msgId)) ∧
      (Served s → Served (Client.receive s (.publish dup message msgId))) ∧
      ∃ rc, (Client.receive s (.publish dup message msgId)).log =
          .given .pubrec 0 msgId :: .put .publishReceived msgId rc :: s.log ∨
        ((Client.receive s (.publish dup message msgId)).log =
            .put .publishReceived msgId rc :: s.log ∧
          (Client.receive s (.publish dup message msgId)).rc = 0) := by
  generalize isPublish : Session.publishPacket s.c.mqttVersion message dup msgId = publish
  have qos : publish.qos = 2 := by
    rw [← isPublish]
    exact isTwo
  have id : publish.msgId = msgId := by
    rw [← isPublish]
    rfl
  rcases putPacket_log sound.store (.publish publish) .publish publish.msgId 1
    publish.mqttVersion with
    ⟨rc, -, log⟩
  have continues :=
    putPacket_continues s (.publish publish) .publish publish.msgId 1 publish.mqttVersion
  have filed : Client.persistReceived s publish =
      Client.putPacket s (.publish publish) .publish publish.msgId 1 publish.mqttVersion :=
        if_pos qos
  simp only [Client.receive, isPublish, filed]
  have puts (served : Served s) :=
    putPacket_served served (.publish publish) .publish publish.msgId 1 publish.mqttVersion
  generalize Client.putPacket s (.publish publish) .publish publish.msgId 1 publish.mqttVersion =
    result at log continues puts
  rcases result with ⟨error, s'⟩
  have log' : s'.log = .put .publishReceived msgId rc :: s.log := by
    rw [← id]
    exact log
  have sound' : Sound { s' with rc := error } := by
    constructor
    · exact continues.store.trans sound.store
    · intro ack mem isPubrec
      rcases sound.queued ack (continues.queue mem) isPubrec with ⟨code, filed⟩
      refine ⟨code, ?_⟩
      rw [log']
      exact List.mem_cons_of_mem _ filed
  have isFiled : Filed ({ s' with rc := error } : Client).log publish.msgId := by
    refine ⟨rc, ?_⟩
    rw [id, log']
    exact List.mem_cons_self
  rcases handlePublishes_two qos isFiled with ⟨follows, outcome⟩
  rcases follows sound' with ⟨after, -, stillServed⟩
  refine ⟨⟨after.store, after.queued⟩, ?_, rc, ?_⟩
  · intro served
    have after := stillServed ⟨(puts served).succeeded, (puts served).answers⟩
    exact ⟨after.succeeded, after.answers⟩
  rw [id] at outcome
  rcases outcome with given | ⟨queued, noError⟩
  · exact .inl (given.trans (congrArg (Entry.given .pubrec 0 msgId :: ·) log'))
  · exact .inr ⟨queued.trans log', congrArg code noError⟩

/-- Without a put that fails nothing has to be returned. -/
theorem honours_of_succeeded {s' : Client} (ahead : WrittenAhead s'.log)
    (succeeded : Succeeded s'.log) :
    Honours s s' := by
  have noFailure {new : List Entry} {stem : Stem} {msgId : Nat} {rc : Int}
    (isNew : s'.log = new ++ s.log)
      (mem : .put stem msgId rc ∈ new) : rc = 0 :=
    succeeded stem msgId rc (isNew ▸ List.mem_append_left _ mem)
  constructor
  · exact ahead
  · exact fun new stem msgId rc isNew mem fails => absurd (noFailure isNew mem) fails
  · exact fun new stem msgId rc isNew mem fails => absurd (noFailure isNew mem) fails

/-- The client with what the environment gives it for a step. -/
def provided (s : Client) (input : Input) : Client :=
  { s with c := Session.provide s.c input.input, puts := input.puts, rc := 0 }

/-- In a step the log grows as it should, or a PUBLISH of QoS 2 arrives. -/
theorem step_cases (s : Client) (input : Input) :
    Follows (provided s input) (step s input) ∨
      ∃ dup message msgId, message.qos = 2 ∧
        step s input = Client.receive (provided s input) (.publish dup message msgId) := by
  by_cases isOther : ∀ dup message msgId,
      input.input.action = .receive (.publish dup message msgId) → message.qos ≠ 2
  · exact .inl (follows_act isOther)
  · push Not at isOther
    rcases isOther with ⟨dup, message, msgId, action, qos⟩
    have isAct : step s input =
        if s.c.connected = true then
          Client.receive (provided s input) (.publish dup message msgId)
        else provided s input := by
      simp only [step, action, Client.act]
      rfl
    rw [isAct]
    split
    · exact .inr ⟨dup, message, msgId, qos, rfl⟩
    · exact .inl (.refl _)

theorem sound_provided (sound : Sound s) (input : Input) : Sound (provided s input) :=
  ⟨sound.store, sound.queued⟩

theorem sound_step (sound : Sound s) (input : Input) : Sound (step s input) := by
  rcases step_cases s input with follows | ⟨dup, message, msgId, qos, isReceive⟩
  · exact (follows (sound_provided sound input)).1
  · rw [isReceive]
    exact (receive_two qos (sound_provided sound input)).1

/-- When the store has only good answers, no put of the step fails. -/
theorem succeeded_step (sound : Sound s) (succeeded : Succeeded s.log) {input : Input}
    (answers : ∀ result ∈ input.puts, result.rc = 0) : Succeeded (step s input).log := by
  have served : Served (provided s input) := ⟨succeeded, answers⟩
  rcases step_cases s input with follows | ⟨dup, message, msgId, qos, isReceive⟩
  · exact ((follows (sound_provided sound input)).2.2 served).succeeded
  · rw [isReceive]
    exact ((receive_two qos (sound_provided sound input)).2.1 served).succeeded

/-- The log is only added to. -/
theorem suffix_step (sound : Sound s) (input : Input) : s.log <:+ (step s input).log := by
  rcases step_cases s input with follows | ⟨dup, message, msgId, qos, isReceive⟩
  · exact (follows (sound_provided sound input)).2.1.suffix
  · have put (rc : Int) : s.log <:+ .put .publishReceived msgId rc :: s.log := List.suffix_cons ..
    rcases (@receive_two _ dup message msgId qos (sound_provided sound input)).2.2 with
      ⟨rc, given | ⟨queued, -⟩⟩
    · rw [isReceive, given]
      exact (put rc).trans (List.suffix_cons ..)
    · rw [isReceive, queued]
      exact put rc

/-- A step of a sound client honours the store exactly when no put of it fails. -/
theorem step_honours_iff (sound : Sound s) (ahead : WrittenAhead s.log)
    (succeeded : Succeeded s.log) (input : Input) : Honours s (step s input) ↔
    Succeeded (step s input).log := by
  rcases step_cases s input with follows | ⟨dup, message, msgId, qos, isReceive⟩
  · have grows : Grows s.log (step s input).log := (follows (sound_provided sound input)).2.1
    constructor
    · exact fun honours => grows.succeeded honours.ahead succeeded
    · exact fun allSucceeded =>
        honours_of_succeeded (grows.writtenAhead allSucceeded ahead) allSucceeded
  · rw [isReceive]
    rcases (@receive_two _ dup message msgId qos (sound_provided sound input)).2.2 with
      ⟨rc, given | ⟨queued, noError⟩⟩
    · constructor
      · intro honours
        have ahead' := honours.ahead
        rw [given] at ahead' ⊢
        have isZero := ahead'.1 .publishReceived rfl
        rw [lastPut, if_pos ⟨rfl, rfl⟩] at isZero
        injection isZero with isZero
        exact succeeded_given.mpr (succeeded_cons.mpr ⟨isZero, succeeded⟩)
      · intro allSucceeded
        apply honours_of_succeeded _ allSucceeded
        rw [given] at allSucceeded ⊢
        have isZero := (succeeded_cons.mp (succeeded_given.mp allSucceeded)).1
        refine ⟨?_, ahead⟩
        rintro _ ⟨⟩
        rw [lastPut, if_pos ⟨rfl, rfl⟩, isZero]
    · constructor
      · intro honours
        rw [queued]
        have isZero : rc = 0 := by
          by_contra fails
          have returned := honours.reported [.put .publishReceived msgId rc] _ _ rc queued
            List.mem_cons_self fails
          exact fails (returned.symm.trans noError)
        exact succeeded_cons.mpr ⟨isZero, succeeded⟩
      · intro allSucceeded
        apply honours_of_succeeded _ allSucceeded
        rw [queued]
        exact ahead

theorem suffix_run (sound : Sound s) (inputs : List Input) :
    s.log <:+ (Machine.run step s inputs).log := by
  induction inputs generalizing s with
  | nil => exact List.suffix_rfl
  | cons input inputs ih => exact (suffix_step sound input).trans (ih (sound_step sound input))

/-- A run honours the store exactly when no put of it fails. -/
theorem guarded_honours_iff (sound : Sound s) (ahead : WrittenAhead s.log)
    (succeeded : Succeeded s.log) (inputs : List Input) :
    Machine.Guarded step (fun s input => Honours s (step s input)) s inputs ↔
      Succeeded (Machine.run step s inputs).log := by
  induction inputs generalizing s with
  | nil => simp [succeeded]
  | cons input inputs ih =>
      rw [Machine.guarded_cons, Machine.run_cons]
      have first := step_honours_iff sound ahead succeeded input
      constructor
      · rintro ⟨honours, guarded⟩
        exact (ih (sound_step sound input) honours.ahead (first.mp honours)).mp guarded
      · intro allSucceeded
        have grown := suffix_run (sound_step sound input) inputs
        have honours := first.mpr fun stem msgId rc mem =>
          allSucceeded stem msgId rc (grown.subset mem)
        exact ⟨honours,
          (ih (sound_step sound input) honours.ahead (first.mp honours)).mpr allSucceeded⟩

/-- When the store has only good answers, no put of a run fails. -/
theorem succeeded_run (sound : Sound s) (succeeded : Succeeded s.log) {inputs : List Input}
    (answers : ∀ input ∈ inputs, ∀ result ∈ input.puts, result.rc = 0) :
    Succeeded (Machine.run step s inputs).log := by
  induction inputs generalizing s with
  | nil => exact succeeded
  | cons input inputs ih =>
      apply ih (sound_step sound input)
      · exact succeeded_step sound succeeded (answers input List.mem_cons_self)
      · exact fun other mem => answers other (List.mem_cons_of_mem _ mem)

/-- A client with any store: every step of a run honours the store exactly when every put that the
run makes returns zero, as it does when the store and `beforeWrite` return nothing else. -/
theorem honours_run_iff (mqttVersion : Nat) (cleansession : Bool) (store : Store)
    (inputs : List Input) :
    (Machine.Guarded step (fun s input => Honours s (step s input))
        (start (Session.create mqttVersion cleansession (some store))) inputs ↔
      ∀ stem msgId rc,
        .put stem msgId rc ∈
          (Machine.run step (start (Session.create mqttVersion cleansession (some store)))
            inputs).log →
        rc = 0) ∧
      ((∀ input ∈ inputs, ∀ result ∈ input.puts, result.rc = 0) →
        Machine.Guarded step (fun s input => Honours s (step s input))
          (start (Session.create mqttVersion cleansession (some store))) inputs) := by
  have sound : Sound (start (Session.create mqttVersion cleansession (some store))) := by
    constructor
    · rfl
    · exact fun ack mem => absurd mem List.not_mem_nil
  have empty : Succeeded (start (Session.create mqttVersion cleansession (some store))).log :=
    fun _ _ _ mem => absurd mem List.not_mem_nil
  have always := guarded_honours_iff sound trivial empty inputs
  exact ⟨always, fun answers => always.mpr (succeeded_run sound empty answers)⟩

/-- A message of QoS 1. -/
def letter : Session.Message where
  topic := [97]
  payload := []
  qos := 1
  retained := false
  properties := []

/-- The put of a PUBLISH of QoS 1 fails: the packet is given to the socket, zero is returned, and
the message stays without a record. -/
theorem not_honours :
    ¬Machine.Guarded step (fun s input => Honours s (step s input))
      (start (Session.create mqttVersion311 false (some ∅)))
      [{ input := { action := .connect false } },
        { input := { action := .publish letter }
          puts := [{ put := -2 }] }] := by
  rintro ⟨-, honours, -⟩
  have log :
      (step (step (start (Session.create mqttVersion311 false (some ∅)))
          { input := { action := .connect false } })
        { input := { action := .publish letter }
          puts := [{ put := -2 }] }).log =
        [.given .publish 1 1, .put .publishSent 1 (-2)] := by
    decide
  have ahead := honours.ahead
  rw [log] at ahead
  have isZero : some (-2 : Int) = some 0 := ahead.1 .publishSent rfl
  cases isZero

end Steps

end FailingStore

end Paho
