import Paho.Protocol.Conversation

/-!
# What client and server know of an id

Client, server and what is under way between them, as far as they concern one id: a two-phase
delivery of the publications of QoS 2 that have the id in turn. What the client does to its
exchanges is made of steps of that.
-/

namespace Paho

open Relation

/-- What the client waits for under an id. -/
def phaseOf (messages : List Messages) (msgid : Nat) : TwoPhase.Phase :=
  match findMessage messages msgid with
  | none => .idle
  | some m =>
      if m.qos ≠ 2 then .idle
      else if m.nextMessageType = some .pubrec then .offered
      else if m.nextMessageType = some .pubcomp then .released
      else .idle

/-- Whether an event sends PUBREL for an id. -/
def Event.releases (msgid : Nat) : Event → Bool
  | .sentAck .pubrel id _ => id == msgid
  | _ => false

theorem Event.Neutral.releases {event : Event} {msgid : Nat} (neutral : event.Neutral) :
    event.releases msgid = false := by
  cases event with
  | sentAck type id rc =>
      cases type with
      | pubrel => exact absurd rfl neutral
      | _ => rfl
  | _ => rfl

/-- PUBREL was sent for the publication that now has an id. -/
def freed (msgid : Nat) (trace : List Event) : Bool :=
  (sinceStarted msgid trace).any (Event.releases msgid)

/-- What a packet to the server is for an id. -/
def Upward.about (msgid : Nat) : Upward → Option TwoPhase.Message
  | .publish _ qos id => if qos = 2 ∧ id = msgid then some .offer else none
  | .pubrel id => if id = msgid then some .release else none

namespace Session

/-- What a packet from the server is for an id. -/
def Packet.about (msgid : Nat) : Packet → Option TwoPhase.Message
  | .pubrec id _ => if id = msgid then some .offer else none
  | .pubcomp id => if id = msgid then some .release else none
  | _ => none

end Session

/-- How often the publication that last started with an id was passed on, if it is of QoS 2. -/
def Server.passed (server : Server) : Option (Nat × Nat) → Nat
  | some (number, 2) => server.delivered.count number
  | _ => 1

namespace Exchange

variable {e e' : Exchange} {server : Server} {up current : Bool} {msgid : Nat}

/-- What client and server know of an id, and what is under way for it. -/
@[simps]
def handover (e : Exchange) (server : Server) (up current : Bool) (msgid : Nat) : TwoPhase where
  phase := phaseOf e.outbound msgid
  passed := server.passed (lastStarted msgid e.trace)
  freed := freed msgid e.trace
  queued := decide (⟨msgid, .pubrel⟩ ∈ e.queue)
  forward := (server.unread e.trace).filterMap (Upward.about msgid)
  held := decide (msgid ∈ server.held)
  backward := server.answers.filterMap (Session.Packet.about msgid)
  up := up
  current := current

/-- What the session does other than on the arrival of a packet or on a new publication, while the
connection and the session stay. -/
inductive Quiet (up : Bool) : Exchange → Exchange → Prop
  | retryPublish {e : Exchange} {m : Messages} (isUp : up = true) (mem : m ∈ e.outbound)
      (awaits : AwaitsPublish m) (rc : CompletionCode) :
      Quiet up e (e.sendPublish (MQTTProtocol.retryPublish m) rc)
  | retryPubrel {e : Exchange} {m : Messages} (isUp : up = true) (mem : m ∈ e.outbound)
      (awaits : AwaitsPubrel m) (notOne : m.qos ≠ 1) (rc : CompletionCode) :
      Quiet up e (e.sendAck m.mqttVersion .pubrel m.msgid rc)
  | sendQueued {e : Exchange} {ackReq : AckRequest} (mem : ackReq ∈ e.queue)
      (rc : CompletionCode) :
      Quiet up e (e.sendAck e.mqttVersion ackReq.ackType ackReq.messageId rc)
  | resent (e : Exchange) (type : PacketType) (msgid : Nat) :
      Quiet up e (e.log (.resent type msgid))
  | dropQueue (e : Exchange) : Quiet up e { e with queue := [] }

/-- The books of client and server. Each packet under way is that of the publication that last
started with its id, and a publication of QoS 2 is passed on at most once: it has been, unless it is
in flight or was discarded. -/
structure Booked (e : Exchange) (server : Server) : Prop where
  distinct : (ids e.outbound).Nodup
  positive : ∀ m ∈ e.outbound, 0 < m.msgid
  qos : ∀ m ∈ e.outbound, m.qos = 1 ∨ m.qos = 2
  numbered : ∀ m ∈ e.outbound, ∃ number, lastStarted m.msgid e.trace = some (number, m.qos)
  read_le : server.read ≤ (packetsWritten e.trace).length
  accepts : ∀ id rc, .pubrec id rc ∈ server.answers → rc < reasonCodeUnspecifiedError
  known : ∀ number ∈ server.delivered, number < (publications e.trace).length
  publication : ∀ number qos id, .publish number qos id ∈ server.unread e.trace →
    (publications e.trace)[number]? = some (id, qos)
  last : ∀ number id, .publish number 2 id ∈ server.unread e.trace →
    lastStarted id e.trace = some (number, 2)
  once : ∀ number id, (publications e.trace)[number]? = some (id, 2) →
    server.delivered.count number ≤ 1 ∧ (server.delivered.count number = 1 ∨
      (id ∈ ids e.outbound ∧ lastStarted id e.trace = some (number, 2)) ∨
      number < discarded e.trace)

/-- The books are in order, and so is every id. -/
structure Agrees (e : Exchange) (server : Server) (up current : Bool) : Prop extends
    Booked e server where
  numbers : ∀ msgid, (e.handover server up current msgid).Inv

/-! ## Events -/

section Events

variable {event : Event} {events trace : List Event}

theorem unread_cons (other : event ≠ .connected)
    (read : server.read ≤ (packetsWritten trace).length) :
    server.unread (event :: trace) = server.unread trace ++ (packetOf trace event).toList := by
  rw [Server.unread, Server.unread, packetsWritten_cons other, List.drop_append_of_le_length read]

theorem freed_cons (other : ∀ id qos, event ≠ .started id qos) :
    freed msgid (event :: trace) = (event.releases msgid || freed msgid trace) := by
  have starts : event.starts msgid = false := by
    cases event with
    | started id qos => exact absurd rfl (other id qos)
    | _ => rfl
  rw [freed, sinceStarted_cons, starts, if_neg Bool.false_ne_true, List.any_cons]
  rfl

theorem packetOf_publish {number qos : Nat}
    (packet : packetOf trace event = some (.publish number qos msgid)) :
    lastStarted msgid trace = some (number, qos) := by
  cases event with
  | sentPublish id dup rc =>
      rw [packetOf] at packet
      split at packet
      · cases packet
      · rcases Option.map_eq_some_iff.mp packet with ⟨⟨number', qos'⟩, last, same⟩
        cases same
        exact last
  | sentAck type id rc =>
      cases type with
      | pubrel =>
          rw [packetOf] at packet
          split at packet <;> cases packet
      | _ => cases packet
  | _ => cases packet

/-- Neutral events change nothing that matters. -/
theorem neutral_append (neutral : ∀ event ∈ events, event.Neutral) :
    publications (events ++ trace) = publications trace ∧
      (∀ msgid, lastStarted msgid (events ++ trace) = lastStarted msgid trace) ∧
      discarded (events ++ trace) = discarded trace ∧
      packetsWritten (events ++ trace) = packetsWritten trace ∧
      ∀ msgid, freed msgid (events ++ trace) = freed msgid trace := by
  induction events with
  | nil => exact ⟨rfl, fun _ => rfl, rfl, rfl, fun _ => rfl⟩
  | cons event events ih =>
      have isNeutral := neutral event List.mem_cons_self
      rcases ih fun other mem => neutral other (List.mem_cons_of_mem _ mem) with
        ⟨same, last, discards, written, frees⟩
      refine ⟨?_, fun msgid => ?_, ?_, ?_, fun msgid => ?_⟩
      · rw [List.cons_append, publications_cons isNeutral.not_started, same]
      · rw [List.cons_append, lastStarted_cons isNeutral.not_started, last]
      · rw [List.cons_append, discarded_cons, discards]
        rintro rfl
        exact isNeutral
      · rw [List.cons_append, isNeutral.packetsWritten, written]
      · rw [List.cons_append, freed_cons isNeutral.not_started, isNeutral.releases, frees,
          Bool.false_or]

end Events

/-- The client has done nothing that matters to the server. -/
structure Unmoved (e e' : Exchange) : Prop where
  outbound : e'.outbound = e.outbound
  queue : ∀ id, ⟨id, .pubrel⟩ ∈ e'.queue ↔ ⟨id, .pubrel⟩ ∈ e.queue
  trace : ∃ events, e'.trace = events ++ e.trace ∧ ∀ event ∈ events, event.Neutral

theorem Unmoved.handover (unmoved : Unmoved e e') :
    e'.handover server up current msgid = e.handover server up current msgid := by
  rcases unmoved.trace with ⟨events, trace, neutral⟩
  rcases @neutral_append events e.trace neutral with ⟨-, last, -, written, frees⟩
  simp only [Exchange.handover, unmoved.outbound, unmoved.queue, trace, last, Server.unread,
    written, frees]

theorem Unmoved.booked (unmoved : Unmoved e e') (booked : Booked e server) :
    Booked e' server := by
  rcases unmoved.trace with ⟨events, trace, neutral⟩
  rcases @neutral_append events e.trace neutral with ⟨same, last, discards, written, -⟩
  have unread : server.unread e'.trace = server.unread e.trace := by
    rw [trace, Server.unread, Server.unread, written]
  constructor
  · rw [unmoved.outbound]
    exact booked.distinct
  · rw [unmoved.outbound]
    exact booked.positive
  · rw [unmoved.outbound]
    exact booked.qos
  · simpa only [unmoved.outbound, trace, last] using booked.numbered
  · simpa only [trace, written] using booked.read_le
  · exact booked.accepts
  · simpa only [trace, same] using booked.known
  · rw [unread, trace, same]
    exact booked.publication
  · intro number id mem
    rw [trace, last]
    rw [unread] at mem
    exact booked.last number id mem
  · simpa only [unmoved.outbound, trace, same, last, discards] using booked.once

theorem Unmoved.agrees (unmoved : Unmoved e e') (agrees : Agrees e server up current) :
    Agrees e' server up current where
  toBooked := unmoved.booked agrees.toBooked
  numbers := fun msgid => unmoved.handover ▸ agrees.numbers msgid

theorem Unmoved.refl (e : Exchange) : Unmoved e e :=
  ⟨rfl, fun _ => Iff.rfl, [], rfl, fun _ mem => absurd mem List.not_mem_nil⟩

theorem Unmoved.log (unmoved : Unmoved e e') {event : Event} (neutral : event.Neutral) :
    Unmoved e (e'.log event) := by
  rcases unmoved.trace with ⟨events, trace, allNeutral⟩
  refine ⟨unmoved.outbound, unmoved.queue, event :: events, ?_, ?_⟩
  · rw [log_trace, trace, List.cons_append]
  · exact List.forall_mem_cons.mpr ⟨neutral, allNeutral⟩

/-- A packet is handed to the socket, or something else happens that is only remarked. -/
theorem Booked.write (booked : Booked e server) {event : Event}
    (outbound : e'.outbound = e.outbound) (trace : e'.trace = event :: e.trace)
    (notStarted : ∀ id qos, event ≠ .started id qos) (notCleaned : event ≠ .sessionCleaned)
    (notConnected : event ≠ .connected) : Booked e' server := by
  have unread : server.unread e'.trace =
      server.unread e.trace ++ (packetOf e.trace event).toList := by
    rw [trace, unread_cons notConnected booked.read_le]
  have last (id : Nat) : lastStarted id e'.trace = lastStarted id e.trace := by
    rw [trace, lastStarted_cons notStarted]
  have same : publications e'.trace = publications e.trace := by
    rw [trace, publications_cons notStarted]
  have sent {number qos id : Nat}
      (mem : .publish number qos id ∈ (packetOf e.trace event).toList) :
      lastStarted id e.trace = some (number, qos) :=
    packetOf_publish (Option.mem_toList.mp mem)
  constructor
  · rw [outbound]
    exact booked.distinct
  · rw [outbound]
    exact booked.positive
  · rw [outbound]
    exact booked.qos
  · simpa only [outbound, last] using booked.numbered
  · rw [trace, packetsWritten_cons notConnected, List.length_append]
    exact Nat.le_add_right_of_le booked.read_le
  · exact booked.accepts
  · simpa only [same] using booked.known
  · intro number qos id mem
    rw [same]
    rw [unread, List.mem_append] at mem
    rcases mem with mem | mem
    · exact booked.publication number qos id mem
    · exact publications_of_lastStarted (sent mem)
  · intro number id mem
    rw [last]
    rw [unread, List.mem_append] at mem
    rcases mem with mem | mem
    · exact booked.last number id mem
    · exact sent mem
  · have discards : discarded e'.trace = discarded e.trace := by
      rw [trace, discarded_cons notCleaned]
    simpa only [outbound, same, last, discards] using booked.once

/-! ## What the client does by itself -/

theorem phaseOf_of_mem {messages : List Messages} {m : Messages} (distinct : (ids messages).Nodup)
    (mem : m ∈ messages) :
    phaseOf messages m.msgid =
      if m.qos ≠ 2 then .idle
      else if m.nextMessageType = some .pubrec then .offered
      else if m.nextMessageType = some .pubcomp then .released
      else .idle := by
  rw [phaseOf, findMessage_of_mem distinct mem]

theorem phaseOf_of_awaitsPubrec {m : Messages} {messages : List Messages}
    (distinct : (ids messages).Nodup) (mem : m ∈ messages) (awaits : AwaitsPubrec m) :
    phaseOf messages m.msgid = .offered := by
  rw [phaseOf_of_mem distinct mem, if_neg (not_not.mpr awaits.1), if_pos awaits.2]

theorem phaseOf_of_awaitsPubcomp {m : Messages} {messages : List Messages}
    (distinct : (ids messages).Nodup) (mem : m ∈ messages) (awaits : AwaitsPubcomp m) :
    phaseOf messages m.msgid = .released := by
  have other : m.nextMessageType ≠ some .pubrec := by
    rw [awaits.2]
    decide
  rw [phaseOf_of_mem distinct mem, if_neg (not_not.mpr awaits.1), if_neg other, if_pos awaits.2]

theorem awaitsPubrec_of_phaseOf {messages : List Messages}
    (offered : phaseOf messages msgid = .offered) :
    ∃ m, findMessage messages msgid = some m ∧ AwaitsPubrec m := by
  rw [phaseOf] at offered
  cases found : findMessage messages msgid with
  | none =>
      rw [found] at offered
      cases offered
  | some m =>
      rw [found] at offered
      dsimp only at offered
      split_ifs at offered with other awaits
      exact ⟨m, rfl, not_not.mp other, awaits⟩

theorem awaitsPubcomp_of_phaseOf {messages : List Messages}
    (released : phaseOf messages msgid = .released) :
    ∃ m, findMessage messages msgid = some m ∧ AwaitsPubcomp m := by
  rw [phaseOf] at released
  cases found : findMessage messages msgid with
  | none =>
      rw [found] at released
      cases released
  | some m =>
      rw [found] at released
      dsimp only at released
      split_ifs at released with other first awaits
      exact ⟨m, rfl, not_not.mp other, awaits⟩

/-- A PUBLISH is sent: for its id it is an offer, if it is of QoS 2 and is written. -/
theorem handover_sendPublish (booked : Booked e server) {m : Messages} (mem : m ∈ e.outbound)
    (awaits : m.qos = 2 → m.nextMessageType = some .pubrec) (isUp : up = true) {dup : Bool}
    {rc : CompletionCode} (outbound : e'.outbound = e.outbound) (queue : e'.queue = e.queue)
    (trace : e'.trace = .sentPublish m.msgid dup rc :: e.trace) (msgid : Nat) :
    ReflTransGen TwoPhase.Step (e.handover server up current msgid)
      (e'.handover server up current msgid) := by
  have unread : server.unread e'.trace = server.unread e.trace ++
      (packetOf e.trace (.sentPublish m.msgid dup rc)).toList := by
    rw [trace, unread_cons Event.noConfusion booked.read_le]
  have same : e'.handover server up current msgid =
      { e.handover server up current msgid with
        forward := (e.handover server up current msgid).forward ++
          (packetOf e.trace (.sentPublish m.msgid dup rc)).toList.filterMap
            (Upward.about msgid) } := by
    rw [Exchange.handover, unread, outbound, queue, trace,
      lastStarted_cons (fun _ _ => Event.noConfusion), freed_cons (fun _ _ => Event.noConfusion),
      List.filterMap_append]
    rfl
  rw [same]
  rcases booked.numbered m mem with ⟨number, last⟩
  rw [packetOf, last]
  split
  · simp only [Option.toList_none, List.filterMap_nil, List.append_nil]
    exact .refl
  · by_cases about : m.qos = 2 ∧ m.msgid = msgid
    · rcases about with ⟨two, rfl⟩
      refine .single ?_
      have offered : phaseOf e.outbound m.msgid = .offered :=
        phaseOf_of_awaitsPubrec booked.distinct mem ⟨two, awaits two⟩
      have step := TwoPhase.Step.offer (f := e.handover server up current m.msgid) offered isUp
      simpa [Upward.about, two] using step
    · have nothing : (Option.map (fun x : Nat × Nat => Upward.publish x.1 x.2 m.msgid)
          (some (number, m.qos))).toList.filterMap (Upward.about msgid) = [] := by
        simp [Upward.about, about]
      simp only [nothing, List.append_nil]
      exact .refl

/-- A PUBREL is sent: for its id it is a release. -/
theorem handover_sendPubrel (booked : Booked e server) {id : Nat}
    (may : (phaseOf e.outbound id = .released ∧ up = true) ∨ ⟨id, .pubrel⟩ ∈ e.queue)
    {rc : CompletionCode} (outbound : e'.outbound = e.outbound) (queue : e'.queue = e.queue)
    (trace : e'.trace = .sentAck .pubrel id rc :: e.trace) (msgid : Nat) :
    ReflTransGen TwoPhase.Step (e.handover server up current msgid)
      (e'.handover server up current msgid) := by
  have unread : server.unread e'.trace = server.unread e.trace ++
      (packetOf e.trace (.sentAck .pubrel id rc)).toList := by
    rw [trace, unread_cons Event.noConfusion booked.read_le]
  have same : e'.handover server up current msgid =
      { e.handover server up current msgid with
        freed := id == msgid || (e.handover server up current msgid).freed
        forward := (e.handover server up current msgid).forward ++
          (packetOf e.trace (.sentAck .pubrel id rc)).toList.filterMap (Upward.about msgid) } := by
    rw [Exchange.handover, unread, outbound, queue, trace,
      lastStarted_cons (fun _ _ => Event.noConfusion), freed_cons (fun _ _ => Event.noConfusion),
      List.filterMap_append]
    rfl
  rw [same, packetOf]
  by_cases about : id = msgid
  · subst about
    refine .single ?_
    have step := TwoPhase.Step.release (f := e.handover server up current id)
      (by simpa using may) (decide (rc ≠ .socketError))
    cases rc <;> simpa [Upward.about] using step
  · have nothing : (if rc = .socketError then none else some (Upward.pubrel id)).toList.filterMap
        (Upward.about msgid) = [] := by
      split <;> simp [Upward.about, about]
    rw [nothing, List.append_nil, beq_false_of_ne about, Bool.false_or]

theorem Agrees.steps (agrees : Agrees e server up current) (booked : Booked e' server)
    (steps : ∀ msgid, ReflTransGen TwoPhase.Step (e.handover server up current msgid)
      (e'.handover server up current msgid)) : Agrees e' server up current where
  toBooked := booked
  numbers := fun msgid => (agrees.numbers msgid).steps (steps msgid)

/-- What the client does by itself agrees with the server. -/
theorem Quiet.agrees (quiet : Quiet up e e') (agrees : Agrees e server up current) :
    Agrees e' server up current := by
  have booked := agrees.toBooked
  cases quiet with
  | @retryPublish m isUp mem awaits rc =>
      refine agrees.steps (booked.write rfl rfl (fun _ _ => Event.noConfusion) Event.noConfusion
        Event.noConfusion) ?_
      refine handover_sendPublish booked mem (fun two => ?_) isUp rfl rfl rfl
      rcases awaits with one | ⟨-, awaits⟩
      · omega
      · exact awaits
  | @retryPubrel m isUp mem awaits notOne rc =>
      refine agrees.steps (booked.write (sendAck_outbound ..) (sendAck_trace ..)
        (fun _ _ => Event.noConfusion) Event.noConfusion Event.noConfusion) ?_
      have two : m.qos = 2 := (booked.qos m mem).resolve_left notOne
      exact handover_sendPubrel booked
        (.inl ⟨phaseOf_of_awaitsPubcomp booked.distinct mem ⟨two, awaits.2⟩, isUp⟩)
        (sendAck_outbound ..) (sendAck_queue ..) (sendAck_trace ..)
  | @sendQueued ackReq mem rc =>
      rcases ackReq with ⟨id, type⟩
      by_cases pubrel : type = .pubrel
      · subst pubrel
        refine agrees.steps (booked.write (sendAck_outbound ..) (sendAck_trace ..)
          (fun _ _ => Event.noConfusion) Event.noConfusion Event.noConfusion) ?_
        exact handover_sendPubrel booked (.inr mem) (sendAck_outbound ..) (sendAck_queue ..)
          (sendAck_trace ..)
      · refine Unmoved.agrees ⟨sendAck_outbound .., fun _ => by rw [sendAck_queue], [_],
          sendAck_trace .., ?_⟩ agrees
        exact List.forall_mem_singleton.mpr pubrel
  | resent type msgid =>
      have neutral : (Event.resent type msgid).Neutral := trivial
      exact ((Unmoved.refl e).log neutral).agrees agrees
  | dropQueue =>
      have same (msgid : Nat) :
          ({ e with queue := [] } : Exchange).handover server up current msgid =
            { e.handover server up current msgid with queued := false } := by
        simp [Exchange.handover]
      refine ⟨⟨booked.distinct, booked.positive, booked.qos, booked.numbered, booked.read_le,
        booked.accepts, booked.known, booked.publication, booked.last, booked.once⟩,
        fun msgid => ?_⟩
      rw [same]
      exact (agrees.numbers msgid).dropQueue

/-! ## Connections -/

theorem Agrees.down (agrees : Agrees e server up current) : Agrees e server false current where
  toBooked := agrees.toBooked
  numbers := fun msgid => (agrees.numbers msgid).down

theorem Agrees.stale (agrees : Agrees e server false current) : Agrees e server false false where
  toBooked := agrees.toBooked
  numbers := fun msgid => (agrees.numbers msgid).stale rfl

/-- The client discards the session, and with it what is in flight. -/
theorem Agrees.clean (agrees : Agrees e server false false) :
    Agrees e.clean server false false := by
  have booked := agrees.toBooked
  have unread : server.unread e.clean.trace = server.unread e.trace := by
    rw [clean_trace, unread_cons Event.noConfusion booked.read_le]
    exact List.append_nil _
  constructor
  · constructor
    · exact List.nodup_nil
    · exact fun m mem => absurd mem List.not_mem_nil
    · exact fun m mem => absurd mem List.not_mem_nil
    · exact fun m mem => absurd mem List.not_mem_nil
    · exact Nat.le_trans booked.read_le (List.prefix_append _ _).length_le
    · exact booked.accepts
    · exact booked.known
    · rw [unread]
      exact booked.publication
    · rw [unread]
      exact booked.last
    · intro number id started
      have once := booked.once number id started
      exact ⟨once.1, .inr (.inr (List.getElem?_eq_some_iff.mp started).1)⟩
  · intro msgid
    have same : e.clean.handover server false false msgid =
        { e.handover server false false msgid with phase := .idle } := by
      rw [Exchange.handover, unread, clean_trace, freed_cons (fun _ _ => Event.noConfusion)]
      rfl
    rw [same]
    exact (agrees.numbers msgid).discard rfl

theorem unread_connect (resumed : Bool) (trace : List Event) :
    (server.connect resumed).unread (.connected :: trace) = [] :=
  rfl

/-- Client and server take up the session that they have. -/
theorem Agrees.resume (agrees : Agrees e server false true) :
    Agrees (e.log .connected) (server.connect true) true true := by
  have booked := agrees.toBooked
  have last (id : Nat) : lastStarted id (e.log .connected).trace = lastStarted id e.trace := rfl
  constructor
  · constructor
    · exact booked.distinct
    · exact booked.positive
    · exact booked.qos
    · exact booked.numbered
    · exact Nat.zero_le _
    · exact fun id rc mem => absurd mem List.not_mem_nil
    · exact booked.known
    · rw [log_trace, unread_connect]
      exact fun number qos id mem => absurd mem List.not_mem_nil
    · rw [log_trace, unread_connect]
      exact fun number id mem => absurd mem List.not_mem_nil
    · exact booked.once
  · intro msgid
    have same : (e.log .connected).handover (server.connect true) true true msgid =
        { e.handover server false true msgid with forward := [], backward := [], up := true } := by
      rw [Exchange.handover, log_trace, freed_cons (fun _ _ => Event.noConfusion)]
      rfl
    rw [same]
    exact (agrees.numbers msgid).resume rfl

/-- Client and server begin a new session. -/
theorem Agrees.renew (agrees : Agrees e server up current) :
    Agrees (e.log .connected).clean (server.connect false) true true := by
  have booked := agrees.toBooked
  have unread : (server.connect false).unread (e.log .connected).clean.trace = [] := rfl
  constructor
  · constructor
    · exact List.nodup_nil
    · exact fun m mem => absurd mem List.not_mem_nil
    · exact fun m mem => absurd mem List.not_mem_nil
    · exact fun m mem => absurd mem List.not_mem_nil
    · exact Nat.zero_le _
    · exact fun id rc mem => absurd mem List.not_mem_nil
    · exact booked.known
    · rw [unread]
      exact fun number qos id mem => absurd mem List.not_mem_nil
    · rw [unread]
      exact fun number id mem => absurd mem List.not_mem_nil
    · intro number id started
      have once := booked.once number id started
      exact ⟨once.1, .inr (.inr (List.getElem?_eq_some_iff.mp started).1)⟩
  · intro msgid
    have same : (e.log .connected).clean.handover (server.connect false) true true msgid =
        { e.handover server up current msgid with
          phase := .idle
          forward := []
          held := false
          backward := []
          up := true
          current := true } := by
      rw [Exchange.handover, unread, clean_trace, freed_cons (fun _ _ => Event.noConfusion),
        log_trace, freed_cons (fun _ _ => Event.noConfusion)]
      rfl
    rw [same]
    exact (agrees.numbers msgid).renew

/-! ## The server reads a packet -/

theorem unread_readPacket (rc : Nat) (packet : Upward) (trace : List Event) :
    (server.readPacket rc packet).unread trace = (server.unread trace).tail := by
  have read : (server.readPacket rc packet).read = server.read + 1 := by
    unfold Server.readPacket
    split
    · split
      · split <;> rfl
      · rfl
    · rfl
  rw [Server.unread, Server.unread, read, List.tail_drop]

/-- A publication is passed on, for which another one than that of an id is no reason. -/
theorem passed_cons {number : Nat} {last : Option (Nat × Nat)} (other : last ≠ some (number, 2)) :
    ({ server with delivered := number :: server.delivered } : Server).passed last =
      server.passed last := by
  unfold Server.passed
  split
  next number' =>
    have different : number ≠ number' := by
      rintro rfl
      exact other rfl
    exact List.count_cons_of_ne different
  next => rfl

/-- The books when the server has read a packet. -/
theorem Booked.read (booked : Booked e server) {packet : Upward} {rest : List Upward}
    (isNext : server.unread e.trace = packet :: rest) {server' : Server}
    (read : server'.read = server.read + 1)
    (accepts : ∀ id rc, .pubrec id rc ∈ server'.answers → rc < reasonCodeUnspecifiedError)
    (known : ∀ number ∈ server'.delivered, number < (publications e.trace).length)
    (once : ∀ number id, (publications e.trace)[number]? = some (id, 2) →
      server'.delivered.count number = server.delivered.count number ∨
        server'.delivered.count number = 1) : Booked e server' := by
  have unread : server'.unread e.trace = rest := by
    have tail : server'.unread e.trace = (server.unread e.trace).tail := by
      rw [Server.unread, Server.unread, read, List.tail_drop]
    rw [tail, isNext, List.tail_cons]
  constructor
  · exact booked.distinct
  · exact booked.positive
  · exact booked.qos
  · exact booked.numbered
  · have some_left : server.read < (packetsWritten e.trace).length := by
      have length := congrArg List.length isNext
      rw [Server.unread, List.length_drop, List.length_cons] at length
      omega
    rw [read]
    exact some_left
  · exact accepts
  · exact known
  · intro number qos id mem
    refine booked.publication number qos id (isNext ▸ List.mem_cons_of_mem _ ?_)
    rwa [unread] at mem
  · intro number id mem
    refine booked.last number id (isNext ▸ List.mem_cons_of_mem _ ?_)
    rwa [unread] at mem
  · intro number id started
    have before := booked.once number id started
    rcases once number id started with same | one
    · rwa [same]
    · exact ⟨Nat.le_of_eq one, .inl one⟩

theorem accepts_append (booked : Booked e server) {packet : Session.Packet}
    (accepts : ∀ id rc, packet = .pubrec id rc → rc < reasonCodeUnspecifiedError) :
    ∀ id rc, .pubrec id rc ∈ server.answers ++ [packet] → rc < reasonCodeUnspecifiedError := by
  intro id rc mem
  rw [List.mem_append, List.mem_singleton] at mem
  rcases mem with mem | same
  · exact booked.accepts id rc mem
  · exact accepts id rc same.symm

/-- The server reads PUBREL. -/
theorem Agrees.readPubrel (agrees : Agrees e server up current) {id : Nat} {rest : List Upward}
    (isNext : server.unread e.trace = .pubrel id :: rest) (rc : Nat) :
    Agrees e (server.readPacket rc (.pubrel id)) up current := by
  have booked := agrees.toBooked
  have unread : (server.readPacket rc (.pubrel id)).unread e.trace = rest := by
    rw [unread_readPacket, isNext, List.tail_cons]
  constructor
  · refine booked.read isNext rfl (accepts_append booked fun _ _ same => ?_) booked.known
      fun _ _ _ => .inl rfl
    cases same
  · intro msgid
    have inv := agrees.numbers msgid
    have passed : (server.readPacket rc (.pubrel id)).passed (lastStarted msgid e.trace) =
        server.passed (lastStarted msgid e.trace) := rfl
    rw [Exchange.handover, isNext] at inv
    rw [Exchange.handover, unread, passed]
    by_cases about : id = msgid
    · subst about
      have next : (Upward.pubrel id :: rest).filterMap (Upward.about id) =
          .release :: rest.filterMap (Upward.about id) := by
        simp [Upward.about]
      have free : id ∉ (server.readPacket rc (.pubrel id)).held := by
        simp [Server.readPacket]
      have answered : (server.readPacket rc (.pubrel id)).answers.filterMap
          (Session.Packet.about id) =
            server.answers.filterMap (Session.Packet.about id) ++ [.release] := by
        simp [Server.readPacket, Session.Packet.about]
      rw [decide_eq_false free, answered]
      exact inv.readRelease next
    · have next : (Upward.pubrel id :: rest).filterMap (Upward.about msgid) =
          rest.filterMap (Upward.about msgid) := by
        simp [Upward.about, about]
      have same : msgid ∈ (server.readPacket rc (.pubrel id)).held ↔ msgid ∈ server.held := by
        simp [Server.readPacket, Ne.symm about]
      have answered : (server.readPacket rc (.pubrel id)).answers.filterMap
          (Session.Packet.about msgid) =
            server.answers.filterMap (Session.Packet.about msgid) := by
        simp [Server.readPacket, Session.Packet.about, about]
      rw [next] at inv
      simp only [same, answered]
      exact inv

/-- The server reads PUBLISH of QoS 2. -/
theorem Agrees.readPublish (agrees : Agrees e server up current) {number id : Nat}
    {rest : List Upward} (isNext : server.unread e.trace = .publish number 2 id :: rest) {rc : Nat}
    (accepts : rc < reasonCodeUnspecifiedError) :
    Agrees e (server.readPacket rc (.publish number 2 id)) up current := by
  have booked := agrees.toBooked
  have unread : (server.readPacket rc (.publish number 2 id)).unread e.trace = rest := by
    rw [unread_readPacket, isNext, List.tail_cons]
  have isPacket : .publish number 2 id ∈ server.unread e.trace := isNext ▸ List.mem_cons_self
  have last := booked.last number id isPacket
  have offered : (e.handover server up current id).forward =
      .offer :: rest.filterMap (Upward.about id) := by
    rw [handover_forward, isNext]
    simp [Upward.about]
  have isPassed : (e.handover server up current id).passed = server.delivered.count number := by
    rw [handover_passed, last]
    rfl
  have accepted : ∀ id' rc', .pubrec id' rc' ∈ server.answers ++ [Session.Packet.pubrec id rc] →
      rc' < reasonCodeUnspecifiedError := by
    refine accepts_append booked fun id' rc' same => ?_
    cases same
    exact accepts
  have answered : (server.answers ++ [Session.Packet.pubrec id rc]).filterMap
      (Session.Packet.about id) =
        server.answers.filterMap (Session.Packet.about id) ++ [.offer] := by
    simp [Session.Packet.about]
  have others {msgid : Nat} (about : id ≠ msgid) :
      (Upward.publish number 2 id :: rest).filterMap (Upward.about msgid) =
          rest.filterMap (Upward.about msgid) ∧
        (server.answers ++ [Session.Packet.pubrec id rc]).filterMap (Session.Packet.about msgid) =
          server.answers.filterMap (Session.Packet.about msgid) := by
    simp [Session.Packet.about, Upward.about, about]
  by_cases held : id ∈ server.held
  · have result : server.readPacket rc (.publish number 2 id) =
        { server with read := server.read + 1, answers := server.answers ++ [.pubrec id rc] } := by
      rw [Server.readPacket, if_pos rfl, if_pos held]
    rw [result] at unread ⊢
    constructor
    · exact booked.read isNext rfl accepted booked.known fun _ _ _ => .inl rfl
    · intro msgid
      have inv := agrees.numbers msgid
      by_cases about : id = msgid
      · subst about
        have step := inv.readOffer offered
        rw [handover_held, decide_eq_true held, if_pos rfl] at step
        rw [Exchange.handover, unread, decide_eq_true held]
        simp only [answered]
        exact step
      · rw [Exchange.handover, isNext, (others about).1] at inv
        rw [Exchange.handover, unread]
        simp only [(others about).2]
        exact inv
  · have result : server.readPacket rc (.publish number 2 id) =
        { server with
          read := server.read + 1
          held := id :: server.held
          delivered := number :: server.delivered
          answers := server.answers ++ [.pubrec id rc] } := by
      rw [Server.readPacket, if_pos rfl, if_neg held]
    rw [result] at unread ⊢
    have first : server.delivered.count number = 0 := by
      rw [← isPassed]
      cases (agrees.numbers id).sound with
      | before passed => exact passed
      | after _ _ spent =>
          refine absurd ?_ (spent (decide_eq_false held))
          rw [offered]
          exact List.mem_cons_self
    constructor
    · refine booked.read isNext rfl accepted ?_ ?_
      · refine List.forall_mem_cons.mpr ⟨?_, booked.known⟩
        exact lastStarted_lt last
      · intro other id' _
        by_cases same : other = number
        · right
          rw [same, List.count_cons_self, first]
        · left
          exact List.count_cons_of_ne (Ne.symm same)
    · intro msgid
      have inv := agrees.numbers msgid
      by_cases about : id = msgid
      · subst about
        have step := inv.readOffer offered
        rw [Exchange.handover, unread]
        simp only [answered]
        have passed : ({ server with
            read := server.read + 1
            held := id :: server.held
            delivered := number :: server.delivered
            answers := server.answers ++ [.pubrec id rc] } : Server).passed
              (lastStarted id e.trace) = 1 := by
          rw [last, Server.passed, List.count_cons_self, first]
        rw [handover_held, decide_eq_false held, if_neg Bool.false_ne_true, isPassed, first] at step
        rw [passed, decide_eq_true (show id ∈ id :: server.held from List.mem_cons_self)]
        exact step
      · rw [Exchange.handover, isNext, (others about).1] at inv
        rw [Exchange.handover, unread]
        have passed : ({ server with
            read := server.read + 1
            held := id :: server.held
            delivered := number :: server.delivered
            answers := server.answers ++ [.pubrec id rc] } : Server).passed
              (lastStarted msgid e.trace) = server.passed (lastStarted msgid e.trace) := by
          refine @passed_cons server _ _ fun same => about ?_
          have one := publications_of_lastStarted last
          rw [publications_of_lastStarted same] at one
          cases one
          rfl
        have kept : decide (msgid ∈ id :: server.held) = decide (msgid ∈ server.held) := by
          simp [Ne.symm about]
        simp only [(others about).2, kept]
        rw [passed]
        exact inv

/-- The server reads PUBLISH of QoS 1. -/
theorem Agrees.readUnconfirmed (agrees : Agrees e server up current) {number qos id : Nat}
    {rest : List Upward} (isNext : server.unread e.trace = .publish number qos id :: rest)
    (other : qos ≠ 2) (rc : Nat) :
    Agrees e (server.readPacket rc (.publish number qos id)) up current := by
  have booked := agrees.toBooked
  have isPacket : .publish number qos id ∈ server.unread e.trace := isNext ▸ List.mem_cons_self
  have publication := booked.publication number qos id isPacket
  have notTwo {number' id' : Nat} (two : (publications e.trace)[number']? = some (id', 2)) :
      number ≠ number' := by
    rintro rfl
    rw [publication] at two
    cases two
    exact other rfl
  have unread : (server.readPacket rc (.publish number qos id)).unread e.trace = rest := by
    rw [unread_readPacket, isNext, List.tail_cons]
  have result : server.readPacket rc (.publish number qos id) =
      { server with
        read := server.read + 1
        delivered := number :: server.delivered
        answers := server.answers ++ [.puback id] } := by
    rw [Server.readPacket, if_neg other]
  rw [result] at unread ⊢
  constructor
  · refine booked.read isNext rfl (accepts_append booked fun _ _ same => ?_) ?_ ?_
    · cases same
    · refine List.forall_mem_cons.mpr ⟨?_, booked.known⟩
      exact (List.getElem?_eq_some_iff.mp publication).1
    · intro number' id' two
      exact .inl (List.count_cons_of_ne (notTwo two))
  · intro msgid
    have inv := agrees.numbers msgid
    have next : (Upward.publish number qos id :: rest).filterMap (Upward.about msgid) =
        rest.filterMap (Upward.about msgid) := by
      simp [Upward.about, other]
    have answered : (server.answers ++ [Session.Packet.puback id]).filterMap
        (Session.Packet.about msgid) = server.answers.filterMap (Session.Packet.about msgid) := by
      simp [Session.Packet.about]
    have passed : ({ server with
        read := server.read + 1
        delivered := number :: server.delivered
        answers := server.answers ++ [.puback id] } : Server).passed (lastStarted msgid e.trace) =
          server.passed (lastStarted msgid e.trace) := by
      refine @passed_cons server _ _ fun same => ?_
      exact notTwo (publications_of_lastStarted same) rfl
    rw [Exchange.handover, isNext, next] at inv
    rw [Exchange.handover, unread, passed]
    simp only [answered]
    exact inv

/-- The server reads the next packet. -/
theorem Agrees.read (agrees : Agrees e server up current) {packet : Upward} {rest : List Upward}
    (isNext : server.unread e.trace = packet :: rest) {rc : Nat}
    (accepts : rc < reasonCodeUnspecifiedError) :
    Agrees e (server.readPacket rc packet) up current := by
  cases packet with
  | pubrel id => exact agrees.readPubrel isNext rc
  | publish number qos id =>
      by_cases two : qos = 2
      · subst two
        exact agrees.readPublish isNext accepts
      · exact agrees.readUnconfirmed isNext two rc

end Exchange

end Paho
