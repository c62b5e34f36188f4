import Paho.Protocol.Refinement

/-!
# Safety of the outbound exchanges

In every run of a session the ids of the messages in flight are distinct, a message whose
PUBREC was received is never published again, and a message leaves the session only when its
exchange ends or the session is discarded.
-/

namespace Paho

open Relation

/-- Two states of one message: all but the next packet type and the time of last sending
agree. -/
structure Messages.Same (m m' : Messages) : Prop where
  qos : m'.qos = m.qos
  retain : m'.retain = m.retain
  msgid : m'.msgid = m.msgid
  mqttVersion : m'.mqttVersion = m.mqttVersion
  properties : m'.properties = m.properties
  publish : m'.publish = m.publish

theorem Messages.Same.refl (m : Messages) : m.Same m :=
  ⟨rfl, rfl, rfl, rfl, rfl, rfl⟩

/-- Among these events, newest first, every PUBLISH with this id was sent after a publication
with this id was started. -/
def NoResend (msgid : Nat) (events : List Event) : Prop :=
  ∀ newer older dup rc, events = newer ++ .sentPublish msgid dup rc :: older →
    ∃ qos, .started msgid qos ∈ older

theorem noResend_nil (msgid : Nat) : NoResend msgid [] := by
  intro newer older dup rc split
  simp at split

theorem noResend_cons {msgid : Nat} {event : Event} {events : List Event} :
    NoResend msgid (event :: events) ↔
      NoResend msgid events ∧
        ∀ dup rc, event = .sentPublish msgid dup rc → ∃ qos, .started msgid qos ∈ events := by
  constructor
  · intro noResend
    refine ⟨fun newer older dup rc split => ?_, fun dup rc sent => ?_⟩
    · exact noResend (event :: newer) older dup rc (by simp [split])
    · exact noResend [] events dup rc (by simp [sent])
  · rintro ⟨noResend, sent⟩ newer older dup rc split
    cases newer with
    | nil =>
        obtain ⟨rfl, rfl⟩ := List.cons.inj split
        exact sent dup rc rfl
    | cons first newer => exact noResend newer older dup rc (List.cons.inj split).2

/-- Events that are no PUBLISH of this id. -/
theorem noResend_append {msgid : Nat} {newer older : List Event}
    (noPublish : ∀ dup rc, .sentPublish msgid dup rc ∉ newer) (noResend : NoResend msgid older) :
    NoResend msgid (newer ++ older) := by
  induction newer with
  | nil => exact noResend
  | cons event newer ih =>
      rw [List.cons_append, noResend_cons]
      refine ⟨ih fun dup rc mem => noPublish dup rc (List.mem_cons_of_mem _ mem), ?_⟩
      rintro dup rc rfl
      exact absurd List.mem_cons_self (noPublish dup rc)

namespace Exchange

/-- The messages in flight are messages that `MQTTProtocol_startPublish` can have put there. -/
structure OutboundWellFormed (e : Exchange) : Prop where
  distinct : (ids e.outbound).Nodup
  positive : ∀ m ∈ e.outbound, 0 < m.msgid
  qos : ∀ m ∈ e.outbound, m.qos = 1 ∨ m.qos = 2
  awaitsPubcomp : ∀ m ∈ e.outbound, m.nextMessageType = some .pubcomp → m.qos = 2

/-- Since `base`, no PUBLISH of this id was sent for the message that had it then: either a
publication reuses the id, or whatever has the id waits for PUBCOMP. -/
def Sealed (base : List Event) (msgid : Nat) (e : Exchange) : Prop :=
  ∃ events, e.trace = events ++ base ∧ NoResend msgid events ∧
    ((∃ qos, .started msgid qos ∈ events) ∨
      ∀ m ∈ e.outbound, m.msgid = msgid → AwaitsPubcomp m)

/-- Messages in flight stay, or the session was discarded. -/
def Keeps (e e' : Exchange) : Prop :=
  ∃ events, e'.trace = events ++ e.trace ∧
    (e'.outbound = e.outbound ∨ .sessionCleaned ∈ events)

variable {e e' : Exchange} {base : List Event} {msgid : Nat}

theorem Acknowledges.outbound {type : PacketType} {msgId : Nat}
    (acknowledges : Acknowledges e type msgId e') : e'.outbound = e.outbound := by
  cases acknowledges <;> simp

/-- What acknowledging adds to the trace. -/
theorem Acknowledges.trace {type : PacketType} {msgId : Nat}
    (acknowledges : Acknowledges e type msgId e') :
    (∃ rc, e'.trace = .sentAck type msgId rc :: e.trace) ∨
      e'.trace = .queuedAck type msgId :: e.trace := by
  cases acknowledges with
  | sent rc => exact .inl ⟨rc, by simp⟩
  | queued => exact .inr (by simp)

namespace OutboundWellFormed

/-- Well-formedness only depends on the messages in flight. -/
theorem of_outbound (wellFormed : e.OutboundWellFormed) (same : e'.outbound = e.outbound) :
    e'.OutboundWellFormed where
  distinct := same ▸ wellFormed.distinct
  positive := same ▸ wellFormed.positive
  qos := same ▸ wellFormed.qos
  awaitsPubcomp := same ▸ wellFormed.awaitsPubcomp

theorem of_empty (empty : e.outbound = []) : e.OutboundWellFormed := by
  constructor <;> simp [empty]

theorem removeMessage (wellFormed : e.OutboundWellFormed)
    (removed : e'.outbound = removeMessage e.outbound msgid) : e'.OutboundWellFormed where
  distinct := removed ▸ ids_removeMessage_nodup wellFormed.distinct
  positive := fun m mem => wellFormed.positive m (mem_of_mem_removeMessage (removed ▸ mem))
  qos := fun m mem => wellFormed.qos m (mem_of_mem_removeMessage (removed ▸ mem))
  awaitsPubcomp := fun m mem =>
    wellFormed.awaitsPubcomp m (mem_of_mem_removeMessage (removed ▸ mem))

theorem acceptPubrec (wellFormed : e.OutboundWellFormed) {m : Messages}
    (found : findMessage e.outbound msgid = some m) (awaits : AwaitsPubrec m) :
    (e.acceptPubrec msgid).OutboundWellFormed := by
  have shape : ∀ m' ∈ (e.acceptPubrec msgid).outbound,
      m' ∈ e.outbound ∨ (m'.msgid = m.msgid ∧ m'.qos = 2) := by
    intro m' mem
    rcases (mem_updateMessage wellFormed.distinct).mp mem with kept | ⟨old, oldMem, oldId, rfl⟩
    · exact .inl kept.1
    · have := eq_of_mem_of_nodup wellFormed.distinct oldMem (findMessage_mem found).1
        (oldId.trans (findMessage_mem found).2.symm)
      subst this
      exact .inr ⟨rfl, awaits.1⟩
  constructor
  · have sameIds : ids (e.acceptPubrec msgid).outbound = ids e.outbound :=
      ids_updateMessage fun _ same => same
    exact sameIds ▸ wellFormed.distinct
  · intro m' mem
    rcases shape m' mem with kept | accepted
    · exact wellFormed.positive m' kept
    · exact accepted.1 ▸ wellFormed.positive m (findMessage_mem found).1
  · intro m' mem
    rcases shape m' mem with kept | accepted
    · exact wellFormed.qos m' kept
    · exact .inr accepted.2
  · intro m' mem awaits'
    rcases shape m' mem with kept | accepted
    · exact wellFormed.awaitsPubcomp m' kept awaits'
    · exact accepted.2

end OutboundWellFormed

section Steps

theorem internal_keeps (internal : Internal e e') : Keeps e e' := by
  cases internal with
  | retryPublish mem awaits rc => exact ⟨[_], rfl, .inl rfl⟩
  | retryPubrel mem awaits rc => exact ⟨[_], sendAck_trace .., .inl (sendAck_outbound ..)⟩
  | sendQueued mem rc => exact ⟨[_], sendAck_trace .., .inl (sendAck_outbound ..)⟩
  | resent => exact ⟨[_], rfl, .inl rfl⟩
  | dropQueue => exact ⟨[], rfl, .inl rfl⟩
  | clean => exact ⟨[.sessionCleaned], rfl, .inr List.mem_cons_self⟩
  | connect => exact ⟨[_], rfl, .inl rfl⟩

theorem internals_keep (internals : ReflTransGen Internal e e') : Keeps e e' := by
  induction internals with
  | refl => exact ⟨[], rfl, .inl rfl⟩
  | tail _ internal ih =>
      rcases ih with ⟨events, trace, kept⟩
      rcases internal_keeps internal with ⟨more, trace', kept'⟩
      refine ⟨more ++ events, by rw [trace', trace, List.append_assoc], ?_⟩
      rcases kept with same | cleaned
      · rcases kept' with same' | cleaned'
        · exact .inl (same'.trans same)
        · exact .inr (List.mem_append_left _ cleaned')
      · exact .inr (List.mem_append_right _ cleaned)

theorem internal_wellFormed (internal : Internal e e') (wellFormed : e.OutboundWellFormed) :
    e'.OutboundWellFormed := by
  cases internal with
  | retryPublish mem awaits rc => exact wellFormed.of_outbound rfl
  | retryPubrel mem awaits rc => exact wellFormed.of_outbound (sendAck_outbound ..)
  | sendQueued mem rc => exact wellFormed.of_outbound (sendAck_outbound ..)
  | resent => exact wellFormed.of_outbound rfl
  | dropQueue => exact wellFormed.of_outbound rfl
  | clean => exact .of_empty rfl
  | connect => exact wellFormed.of_outbound rfl

theorem internals_wellFormed (internals : ReflTransGen Internal e e')
    (wellFormed : e.OutboundWellFormed) : e'.OutboundWellFormed := by
  induction internals with
  | refl => exact wellFormed
  | tail _ internal ih => exact internal_wellFormed internal ih

theorem handles_wellFormed {packet : Session.Packet} (handles : Handles e packet e')
    (wellFormed : e.OutboundWellFormed) : e'.OutboundWellFormed := by
  cases handles with
  | pubackIgnored ignored => exact wellFormed.of_outbound rfl
  | puback found qos => exact wellFormed.removeMessage rfl
  | pubrecUnexpected unexpected acknowledges => exact wellFormed.of_outbound acknowledges.outbound
  | pubrecError found awaits version error => exact wellFormed.removeMessage rfl
  | pubrec found awaits acknowledges =>
      exact (wellFormed.acceptPubrec found awaits).of_outbound acknowledges.outbound
  | pubcompUnexpected unexpected => exact wellFormed.of_outbound rfl
  | pubcomp found awaits => exact wellFormed.removeMessage rfl
  | publish0 qos => exact wellFormed.of_outbound rfl
  | publish1 qos acknowledges => exact wellFormed.of_outbound acknowledges.outbound
  | publishDelivered qos version new acknowledges =>
      exact wellFormed.of_outbound (acknowledges.outbound.trans (storeInbound_outbound ..))
  | publishKept qos kept acknowledges =>
      exact wellFormed.of_outbound (acknowledges.outbound.trans (storeInbound_outbound ..))
  | publishOther qos => exact wellFormed.of_outbound rfl
  | pubrelUnexpected unexpected acknowledges => exact wellFormed.of_outbound acknowledges.outbound
  | pubrel found awaits acknowledges =>
      refine wellFormed.of_outbound (acknowledges.outbound.trans ?_)
      split <;> rfl

theorem starts_wellFormed {message : Session.Message} {msgId : Nat}
    (starts : Starts e message msgId e')
    (wellFormed : e.OutboundWellFormed) : e'.OutboundWellFormed := by
  cases starts with
  | unacknowledged qos => exact wellFormed.of_outbound rfl
  | @start _ rc positive unused qos =>
      constructor
      · simp only [sendPublish_outbound, start_outbound, ids_append]
        refine List.nodup_append.mpr ⟨wellFormed.distinct, List.nodup_singleton _, ?_⟩
        rintro id mem other new rfl
        have same : id = msgId := List.mem_singleton.mp new
        exact unused (same ▸ mem)
      · intro m mem
        rcases List.mem_append.mp mem with old | new
        · exact wellFormed.positive m old
        · exact List.mem_singleton.mp new ▸ positive
      · intro m mem
        rcases List.mem_append.mp mem with old | new
        · exact wellFormed.qos m old
        · exact List.mem_singleton.mp new ▸ qos
      · intro m mem awaits
        rcases List.mem_append.mp mem with old | new
        · exact wellFormed.awaitsPubcomp m old awaits
        · rw [List.mem_singleton.mp new] at awaits
          exact absurd awaits (MQTTProtocol.createMessage_nextMessageType_ne _ _ _ _)

/-- Changes that add no PUBLISH of the id to the trace, and no message to those in flight
except messages that wait for PUBCOMP, keep it sealed. -/
theorem Sealed.of_frame (sealed : Sealed base msgid e) (events : List Event)
    (trace : e'.trace = events ++ e.trace)
    (noPublish : ∀ dup rc, .sentPublish msgid dup rc ∉ events)
    (outbound : ∀ m ∈ e'.outbound, m.msgid = msgid → AwaitsPubcomp m ∨ m ∈ e.outbound) :
    Sealed base msgid e' := by
  rcases sealed with ⟨since, trace', noResend, guard⟩
  refine ⟨events ++ since, by rw [trace, trace', List.append_assoc],
    noResend_append noPublish noResend, ?_⟩
  rcases guard with ⟨qos, started⟩ | waiting
  · exact .inl ⟨qos, List.mem_append_right _ started⟩
  · refine .inr fun m mem same => ?_
    rcases outbound m mem same with awaits | old
    · exact awaits
    · exact waiting m old same

/-- One event that is no PUBLISH, and no new message. -/
theorem Sealed.of_event (sealed : Sealed base msgid e) {event : Event}
    (trace : e'.trace = event :: e.trace)
    (noPublish : ∀ dup rc, event ≠ .sentPublish msgid dup rc)
    (outbound : ∀ m ∈ e'.outbound, m ∈ e.outbound) : Sealed base msgid e' := by
  refine sealed.of_frame [event] trace ?_ fun m mem _ => .inr (outbound m mem)
  intro dup rc mem
  exact noPublish dup rc (List.mem_singleton.mp mem).symm

theorem internal_sealed (internal : Internal e e') (sealed : Sealed base msgid e) :
    Sealed base msgid e' := by
  cases internal with
  | @retryPublish m mem awaits rc =>
      rcases sealed with ⟨since, trace, noResend, guard⟩
      refine ⟨.sentPublish m.msgid true rc :: since, by simp [trace, MQTTProtocol.retryPublish],
        ?_, ?_⟩
      · refine noResend_cons.mpr ⟨noResend, fun dup rc' sent => ?_⟩
        rcases guard with started | waiting
        · exact started
        · -- a message that waits for PUBCOMP is not due for a PUBLISH
          have same : m.msgid = msgid := (Event.sentPublish.inj sent).1
          have waits := waiting m mem same
          rcases awaits with one | two
          · exact absurd waits.1 (by omega)
          · exact absurd (two.2.symm.trans waits.2) (by decide)
      · rcases guard with ⟨qos, started⟩ | waiting
        · exact .inl ⟨qos, List.mem_cons_of_mem _ started⟩
        · exact .inr waiting
  | retryPubrel mem awaits rc =>
      exact sealed.of_event (sendAck_trace ..) (by simp) (by simp)
  | sendQueued mem rc => exact sealed.of_event (sendAck_trace ..) (by simp) (by simp)
  | resent => exact sealed.of_event (log_trace ..) (by simp) (by simp)
  | dropQueue => exact sealed
  | clean => exact sealed.of_event (clean_trace _) (by simp) (by simp)
  | connect => exact sealed.of_event (log_trace ..) (by simp) (by simp)

theorem internals_sealed (internals : ReflTransGen Internal e e') (sealed : Sealed base msgid e) :
    Sealed base msgid e' := by
  induction internals with
  | refl => exact sealed
  | tail _ internal ih => exact internal_sealed internal ih

theorem Acknowledges.sealed {type : PacketType} {msgId : Nat}
    (acknowledges : Acknowledges e type msgId e') (sealed : Sealed base msgid e) :
    Sealed base msgid e' := by
  have outbound : ∀ m ∈ e'.outbound, m ∈ e.outbound :=
    fun m mem => acknowledges.outbound ▸ mem
  rcases acknowledges.trace with ⟨rc, trace⟩ | trace
  · exact sealed.of_event trace (by simp) outbound
  · exact sealed.of_event trace (by simp) outbound

theorem Sealed.log (sealed : Sealed base msgid e) {event : Event}
    (noPublish : ∀ dup rc, event ≠ .sentPublish msgid dup rc) :
    Sealed base msgid (e.log event) :=
  sealed.of_event rfl noPublish fun _ mem => mem

theorem Sealed.of_same (sealed : Sealed base msgid e) (trace : e'.trace = e.trace)
    (outbound : ∀ m ∈ e'.outbound, m.msgid = msgid → AwaitsPubcomp m ∨ m ∈ e.outbound) :
    Sealed base msgid e' :=
  sealed.of_frame [] trace (by simp) outbound

theorem Sealed.finishOutbound (sealed : Sealed base msgid e) (msgId : Nat) :
    Sealed base msgid (e.finishOutbound msgId) :=
  sealed.of_same rfl fun _ mem _ => .inr (mem_of_mem_removeMessage mem)

theorem Sealed.storeInbound (sealed : Sealed base msgid e) (m : Messages) :
    Sealed base msgid (e.storeInbound m) :=
  sealed.of_same (storeInbound_trace ..) fun _ mem _ => .inr (by simpa using mem)

theorem Sealed.persistReceived (sealed : Sealed base msgid e) (publish : Publish) :
    Sealed base msgid (e.persistReceived publish) :=
  sealed.of_same rfl fun _ mem _ => .inr mem

theorem handles_sealed {packet : Session.Packet} (handles : Handles e packet e')
    (wellFormed : e.OutboundWellFormed) (sealed : Sealed base msgid e) :
    Sealed base msgid e' := by
  cases handles with
  | pubackIgnored ignored => exact sealed.log (by simp)
  | puback found qos => exact (sealed.log (by simp)).finishOutbound _
  | pubrecUnexpected unexpected acknowledges =>
      exact acknowledges.sealed (sealed.log (by simp))
  | pubrecError found awaits version error => exact (sealed.log (by simp)).finishOutbound _
  | @pubrec msgId rc m _ found awaits acknowledges =>
      refine acknowledges.sealed ((sealed.log (by simp)).of_same rfl fun m' mem _ => ?_)
      rcases (mem_updateMessage wellFormed.distinct).mp mem with kept | ⟨old, oldMem, oldId, rfl⟩
      · exact .inr kept.1
      · have same := eq_of_mem_of_nodup wellFormed.distinct oldMem (findMessage_mem found).1
          (oldId.trans (findMessage_mem found).2.symm)
        exact .inl ⟨same ▸ awaits.1, rfl⟩
  | pubcompUnexpected unexpected => exact sealed.log (by simp)
  | pubcomp found awaits => exact (sealed.log (by simp)).finishOutbound _
  | publish0 qos => exact (sealed.log (by simp)).log (by simp)
  | publish1 qos acknowledges =>
      exact acknowledges.sealed ((sealed.log (by simp)).log (by simp))
  | publishDelivered qos version new acknowledges =>
      exact acknowledges.sealed
        ((((sealed.persistReceived _).log (by simp)).storeInbound _).log (by simp))
  | publishKept qos kept acknowledges =>
      exact acknowledges.sealed (((sealed.persistReceived _).log (by simp)).storeInbound _)
  | publishOther qos => exact sealed.log (by simp)
  | pubrelUnexpected unexpected acknowledges =>
      exact acknowledges.sealed (sealed.log (by simp))
  | @pubrel msgId m _ found awaits acknowledges =>
      refine acknowledges.sealed ?_
      have released : Sealed base msgid (if mqttVersion5 ≤ m.mqttVersion
          then e.log (.received .pubrel msgId)
          else (e.log (.received .pubrel msgId)).log
            (.processed (MQTTProtocol.publicationOf m))) := by
        split
        · exact sealed.log (by simp)
        · exact (sealed.log (by simp)).log (by simp)
      exact released.of_same rfl fun _ mem _ => .inr mem

theorem starts_keeps {message : Session.Message} {msgId : Nat}
    (starts : Starts e message msgId e') {m : Messages}
    (mem : m ∈ e.outbound) : m ∈ e'.outbound := by
  cases starts with
  | unacknowledged qos => exact mem
  | start positive unused qos => exact List.mem_append_left _ mem

theorem starts_sealed {message : Session.Message} {msgId : Nat}
    (starts : Starts e message msgId e')
    (positive : 0 < msgid) (sealed : Sealed base msgid e) : Sealed base msgid e' := by
  cases starts with
  | unacknowledged qos => exact sealed.log (by simp; omega)
  | @start _ rc positive' unused qos =>
      rcases sealed with ⟨since, trace, noResend, guard⟩
      refine ⟨.sentPublish msgId false rc :: .started msgId message.qos :: since, ?_, ?_, ?_⟩
      · simp [trace, Session.publishPacket]
      · refine noResend_cons.mpr
          ⟨noResend_cons.mpr ⟨noResend, by simp⟩, fun dup rc' sent => ?_⟩
        have same : msgId = msgid := (Event.sentPublish.inj sent).1
        exact ⟨message.qos, same ▸ List.mem_cons_self⟩
      · rcases guard with ⟨qos', started⟩ | waiting
        · exact .inl ⟨qos', by simp [started]⟩
        · by_cases same : msgId = msgid
          · exact .inl ⟨message.qos, by simp [same]⟩
          · refine .inr fun m mem sameId => ?_
            rcases List.mem_append.mp mem with old | new
            · exact waiting m old sameId
            · rw [List.mem_singleton.mp new] at sameId
              exact absurd sameId same

/-- The packets that end the exchange of a message. -/
def EndedBy (mqttVersion : Nat) (m : Messages) : Session.Packet → Prop
  | .puback msgId => msgId = m.msgid ∧ m.qos = 1
  | .pubcomp msgId => msgId = m.msgid ∧ AwaitsPubcomp m
  | .pubrec msgId rc =>
      msgId = m.msgid ∧ AwaitsPubrec m ∧ mqttVersion5 ≤ mqttVersion ∧
        reasonCodeUnspecifiedError ≤ rc
  | .publish _ _ _ => False
  | .pubrel _ => False

/-- When the exchange of the message found under an id ends, any other message stays. -/
theorem stays_of_removeMessage (wellFormed : e.OutboundWellFormed) {msgId : Nat}
    {found m : Messages} (foundMem : findMessage e.outbound msgId = some found)
    (mem : m ∈ e.outbound) : (∃ m' ∈ removeMessage e.outbound msgId, m.Same m') ∨
      (msgId = m.msgid ∧ m = found) := by
  by_cases same : m.msgid = msgId
  · have sameMessage := eq_of_mem_of_nodup wellFormed.distinct mem (findMessage_mem foundMem).1
      (same.trans (findMessage_mem foundMem).2.symm)
    exact .inr ⟨same.symm, sameMessage⟩
  · exact .inl ⟨m, (mem_removeMessage wellFormed.distinct).mpr ⟨mem, same⟩, .refl m⟩

theorem handles_stays {packet : Session.Packet} (handles : Handles e packet e')
    (wellFormed : e.OutboundWellFormed) {m : Messages} (mem : m ∈ e.outbound) :
    (∃ m' ∈ e'.outbound, m.Same m') ∨ EndedBy e.mqttVersion m packet := by
  have kept (same : e'.outbound = e.outbound) :
      (∃ m' ∈ e'.outbound, m.Same m') ∨ EndedBy e.mqttVersion m packet :=
    .inl ⟨m, same ▸ mem, .refl m⟩
  cases handles with
  | pubackIgnored ignored => exact kept rfl
  | puback found qos =>
      rcases stays_of_removeMessage wellFormed found mem with stays | ⟨same, rfl⟩
      · exact .inl stays
      · exact .inr ⟨same, qos⟩
  | pubrecUnexpected unexpected acknowledges => exact kept acknowledges.outbound
  | pubrecError found awaits version error =>
      rcases stays_of_removeMessage wellFormed found mem with stays | ⟨same, rfl⟩
      · exact .inl stays
      · exact .inr ⟨same, awaits, version, error⟩
  | @pubrec msgId rc found _ foundMem awaits acknowledges =>
      have accepted := acknowledges.outbound
      refine .inl ?_
      rw [accepted]
      by_cases same : m.msgid = msgId
      · exact ⟨{ m with nextMessageType := some .pubcomp },
          (mem_updateMessage wellFormed.distinct).mpr (.inr ⟨m, mem, same, rfl⟩),
          ⟨rfl, rfl, rfl, rfl, rfl, rfl⟩⟩
      · exact ⟨m, (mem_updateMessage wellFormed.distinct).mpr (.inl ⟨mem, same⟩), .refl m⟩
  | pubcompUnexpected unexpected => exact kept rfl
  | pubcomp found awaits =>
      rcases stays_of_removeMessage wellFormed found mem with stays | ⟨same, rfl⟩
      · exact .inl stays
      · exact .inr ⟨same, awaits⟩
  | publish0 qos => exact kept rfl
  | publish1 qos acknowledges => exact kept acknowledges.outbound
  | publishDelivered qos version new acknowledges =>
      exact kept (acknowledges.outbound.trans (storeInbound_outbound ..))
  | publishKept qos kept' acknowledges =>
      exact kept (acknowledges.outbound.trans (storeInbound_outbound ..))
  | publishOther qos => exact kept rfl
  | pubrelUnexpected unexpected acknowledges => exact kept acknowledges.outbound
  | pubrel found awaits acknowledges =>
      refine kept (acknowledges.outbound.trans ?_)
      split <;> rfl

end Steps

end Exchange

namespace Session

open Machine

/-- The process goes on. -/
def Running (_ : Clients) (input : Input) : Prop :=
  ∀ keys, input.action ≠ .restart keys

/-- The two ways in which a message leaves a session. -/
inductive Leaves (c : Clients) (input : Input) (m : Messages) : Prop
  | ended (packet : Packet) (action : input.action = .receive packet)
      (ends : Exchange.EndedBy c.mqttVersion m packet)
  | cleaned (events : List Event) (trace : (step c input).trace = events ++ c.trace)
      (mem : .sessionCleaned ∈ events)

theorem step_wellFormed (c : Clients) (input : Input)
    (wellFormed : c.exchange.OutboundWellFormed) (running : Running c input) :
    (step c input).exchange.OutboundWellFormed := by
  rcases step_refines (c := c) running with internals | ⟨message, msgId, _, starts, _, _⟩
    | ⟨packet, _, handles⟩
  · exact Exchange.internals_wellFormed internals wellFormed
  · exact Exchange.starts_wellFormed starts wellFormed
  · exact Exchange.handles_wellFormed handles wellFormed

theorem step_sealed {base : List Event} {msgid : Nat} (positive : 0 < msgid) (c : Clients)
    (input : Input) (wellFormed : c.exchange.OutboundWellFormed) (running : Running c input)
    (sealed : c.exchange.Sealed base msgid) : (step c input).exchange.Sealed base msgid := by
  rcases step_refines (c := c) running with internals | ⟨message, msgId, _, starts, _, _⟩
    | ⟨packet, _, handles⟩
  · exact Exchange.internals_sealed internals sealed
  · exact Exchange.starts_sealed starts positive sealed
  · exact Exchange.handles_sealed handles wellFormed sealed

theorem run_sealed {base : List Event} {msgid : Nat} (positive : 0 < msgid) {c : Clients}
    {inputs : List Input} (wellFormed : c.exchange.OutboundWellFormed)
    (sealed : c.exchange.Sealed base msgid) (running : Guarded step Running c inputs) :
    (run step c inputs).exchange.Sealed base msgid := by
  induction inputs generalizing c with
  | nil => exact sealed
  | cons input inputs ih =>
      exact ih (step_wellFormed c input wellFormed running.1)
        (step_sealed positive c input wellFormed running.1 sealed) running.2

theorem step_stays {c : Clients} {input : Input} (wellFormed : c.exchange.OutboundWellFormed)
    (running : Running c input) {m : Messages} (mem : m ∈ c.outboundMsgs) :
    (∃ m' ∈ (step c input).outboundMsgs, m.Same m') ∨ Leaves c input m := by
  have mem' : m.untouched ∈ c.exchange.outbound := List.mem_map_of_mem mem
  have back (stays : ∃ m' ∈ (step c input).exchange.outbound, m.untouched.Same m') :
      ∃ m' ∈ (step c input).outboundMsgs, m.Same m' := by
    rcases stays with ⟨m', stays, same⟩
    obtain ⟨original, originalMem, rfl⟩ := List.mem_map.mp stays
    exact ⟨original, originalMem, ⟨same.1, same.2, same.3, same.4, same.5, same.6⟩⟩
  rcases step_refines (c := c) running with internals | ⟨message, msgId, _, starts, _, _⟩
    | ⟨packet, action, handles⟩
  · rcases Exchange.internals_keep internals with ⟨events, trace, same | cleaned⟩
    · exact .inl (back ⟨m.untouched, same ▸ mem', .refl _⟩)
    · exact .inr (.cleaned events trace cleaned)
  · exact .inl (back ⟨m.untouched, Exchange.starts_keeps starts mem', .refl _⟩)
  · rcases Exchange.handles_stays handles wellFormed mem' with stays | ended
    · exact .inl (back stays)
    · refine .inr (.ended packet action ?_)
      cases packet <;> exact ended

/-- Outbound QoS safety. In every run of a session the ids of the messages in flight are
distinct; from the moment a message waits for PUBCOMP, no PUBLISH is sent with its id before
another publication is started with it, and until then it keeps waiting for PUBCOMP; and a
message in flight stays in every step, unless the step handles the packet that ends its
exchange or discards the session. -/
theorem outbound_safety {c : Clients} (wellFormed : c.exchange.OutboundWellFormed)
    {inputs : List Input} (running : ∀ input ∈ inputs, ∀ keys, input.action ≠ .restart keys) :
    (ids (run step c inputs).outboundMsgs).Nodup ∧
    (∀ before after, inputs = before ++ after →
      ∀ m ∈ (run step c before).outboundMsgs, m.nextMessageType = some .pubcomp →
        ∃ events, (run step c inputs).trace = events ++ (run step c before).trace ∧
          NoResend m.msgid events ∧
          ((∃ qos, .started m.msgid qos ∈ events) ∨
            ∀ m' ∈ (run step c inputs).outboundMsgs, m'.msgid = m.msgid →
              m'.nextMessageType = some .pubcomp)) ∧
    (∀ before input after, inputs = before ++ input :: after →
      ∀ m ∈ (run step c before).outboundMsgs,
        (∃ m' ∈ (step (run step c before) input).outboundMsgs, m.Same m') ∨
          Leaves (run step c before) input m) := by
  have guarded : Guarded step Running c inputs :=
    guarded_of_forall fun input mem _ => running input mem
  have reached {before after : List Input} (split : inputs = before ++ after) :
      (run step c before).exchange.OutboundWellFormed ∧
        Guarded step Running (run step c before) after := by
    have parts := guarded_append.mp (split ▸ guarded)
    exact ⟨invariant_of_guarded step_wellFormed wellFormed parts.1, parts.2⟩
  refine ⟨?_, ?_, ?_⟩
  · have final := (reached (List.append_nil inputs).symm).1.distinct
    rwa [Clients.exchange, ids_map_untouched] at final
  · intro before after split m mem awaits
    obtain ⟨wellFormedBefore, guardedAfter⟩ := reached split
    have mem' : m.untouched ∈ (run step c before).exchange.outbound := List.mem_map_of_mem mem
    have qos := wellFormedBefore.awaitsPubcomp m.untouched mem' awaits
    have sealed : (run step c before).exchange.Sealed (run step c before).trace m.msgid := by
      refine ⟨[], rfl, noResend_nil _, .inr fun other otherMem same => ?_⟩
      have := eq_of_mem_of_nodup wellFormedBefore.distinct otherMem mem' same
      exact this ▸ ⟨qos, awaits⟩
    have positive : 0 < m.msgid := wellFormedBefore.positive m.untouched mem'
    have final := run_sealed positive wellFormedBefore sealed guardedAfter
    rw [← run_append, ← split] at final
    rcases final with ⟨events, trace, noResend, waits⟩
    refine ⟨events, trace, noResend, waits.imp_right fun waiting m' mem' same => ?_⟩
    exact (waiting m'.untouched (List.mem_map_of_mem mem') same).2
  · intro before input after split m mem
    obtain ⟨wellFormedBefore, guardedAfter⟩ := reached split
    exact step_stays wellFormedBefore guardedAfter.1 mem

/-- A run in which a publication of QoS 2 is acknowledged twice with PUBREC. -/
theorem outbound_safety_pubrec_twice :
    let message : Message := ⟨[], [], 2, false, []⟩
    let before : List Input :=
      [{ action := .connect true }, { action := .publish message },
        { action := .receive (.pubrec 1 0) }]
    let after : List Input := [{ action := .receive (.pubrec 1 0) }, { action := .retry true }]
    let m : Messages := ⟨2, false, 1, 4, [], some ⟨some [], some []⟩, 0, some .pubcomp⟩
    ∃ events, (run step (create 4 false none) (before ++ after)).trace =
        events ++ (run step (create 4 false none) before).trace ∧
      NoResend m.msgid events ∧
      ((∃ qos, .started m.msgid qos ∈ events) ∨
        ∀ m' ∈ (run step (create 4 false none) (before ++ after)).outboundMsgs,
          m'.msgid = m.msgid → m'.nextMessageType = some .pubcomp) := by
  intro message before after m
  have wellFormed : (create 4 false none).exchange.OutboundWellFormed := .of_empty rfl
  have running : ∀ input ∈ before ++ after, ∀ keys, input.action ≠ .restart keys := by
    simp [before, after]
  exact (outbound_safety wellFormed running).2.1 before after rfl m (by decide) rfl

end Session

end Paho
