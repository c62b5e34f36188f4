import Paho.Protocol.ServerAgreement

/-!
# The client and the answers of its server

What the arrival of a packet of the server does, and what a new publication does, agree with what
the server knows.
-/

namespace Paho

namespace Exchange

variable {e e' : Exchange} {server : Server} {up current : Bool} {msgid : Nat}

theorem phaseOf_removeMessage {messages : List Messages} (distinct : (ids messages).Nodup)
    (id msgid : Nat) :
    phaseOf (removeMessage messages id) msgid =
      if msgid = id then .idle else phaseOf messages msgid := by
  have distinct' := @ids_removeMessage_nodup _ id distinct
  have kept := @mem_ids_removeMessage messages id distinct msgid
  split
  next same =>
    have none : findMessage (removeMessage messages id) msgid = none := by
      rw [findMessage_eq_none, kept]
      exact fun mem => mem.2 same
    rw [phaseOf, none]
  next different =>
    have same : findMessage (removeMessage messages id) msgid = findMessage messages msgid := by
      cases found : findMessage messages msgid with
      | none =>
          rw [findMessage_eq_none] at found ⊢
          exact fun mem => found (kept.mp mem).1
      | some m =>
          rcases findMessage_mem found with ⟨mem, rfl⟩
          exact findMessage_of_mem distinct' ((mem_removeMessage distinct).mpr ⟨mem, different⟩)
    rw [phaseOf, phaseOf, same]

theorem findMessage_updateMessage {messages : List Messages} {id : Nat}
    {update : Messages → Messages} (keeps : ∀ m, m.msgid = id → (update m).msgid = id)
    (msgid : Nat) :
    findMessage (updateMessage messages id update) msgid =
      if msgid = id then (findMessage messages id).map update else findMessage messages msgid := by
  induction messages with
  | nil => simp [updateMessage, findMessage]
  | cons m messages ih =>
      rw [updateMessage]
      by_cases here : m.msgid = id
      · have kept := keeps m here
        rw [if_pos here]
        by_cases same : msgid = id
        · simp [findMessage, kept, here, same]
        · simp [findMessage, kept, here, Ne.symm same, same]
      · rw [if_neg here]
        by_cases found : m.msgid = msgid
        · have different : msgid ≠ id := fun same => here (found.trans same)
          simp [findMessage, found, different]
        · rw [findMessage, List.find?_cons_of_neg (by simpa using found), ← findMessage, ih]
          simp [findMessage, here, found]

/-- What the confirmation of a packet does to the sender of it. -/
def after : Option TwoPhase.Message → TwoPhase.Phase → TwoPhase.Phase
  | some .offer, .offered => .released
  | some .release, .released => .idle
  | _, phase => phase

theorem after_offer (phase : TwoPhase.Phase) :
    after (some .offer) phase = if phase = .offered then .released else phase := by
  cases phase <;> rfl

theorem after_release (phase : TwoPhase.Phase) :
    after (some .release) phase = if phase = .released then .idle else phase := by
  cases phase <;> rfl

/-- The books do not depend on the packets that the client has received. -/
theorem Booked.received (booked : Booked e server) {packet : Session.Packet}
    {answers : List Session.Packet} (isNext : server.answers = packet :: answers) :
    Booked e { server with answers := answers } where
  distinct := booked.distinct
  positive := booked.positive
  qos := booked.qos
  numbered := booked.numbered
  read_le := booked.read_le
  accepts := fun id rc mem => booked.accepts id rc (isNext ▸ List.mem_cons_of_mem _ mem)
  known := booked.known
  publication := booked.publication
  last := booked.last
  once := booked.once

/-- The client receives a packet, and what it waits for changes with it. -/
theorem Agrees.received (agrees : Agrees e server true true) {packet : Session.Packet}
    {answers : List Session.Packet} (isNext : server.answers = packet :: answers) {event : Event}
    (neutral : event.Neutral) (queue : e'.queue = e.queue) (trace : e'.trace = event :: e.trace)
    (phases : ∀ msgid, phaseOf e'.outbound msgid =
      after (packet.about msgid) (phaseOf e.outbound msgid))
    (booked : Booked e' { server with answers := answers }) :
    Agrees e' { server with answers := answers } true true := by
  refine ⟨booked, fun msgid => ?_⟩
  have inv := agrees.numbers msgid
  rcases @neutral_append [event] e.trace
    (List.forall_mem_singleton.mpr neutral) with ⟨-, last, -, written, frees⟩
  have unread : ({ server with answers := answers } : Server).unread e'.trace =
      server.unread e.trace := by
    rw [trace, Server.unread, Server.unread]
    exact congrArg (List.drop server.read) written
  have passed : ({ server with answers := answers } : Server).passed (lastStarted msgid e'.trace) =
      server.passed (lastStarted msgid e.trace) := by
    rw [trace]
    exact congrArg server.passed (last msgid)
  have frees : freed msgid e'.trace = freed msgid e.trace := trace ▸ frees msgid
  rw [Exchange.handover, unread, passed, frees, queue, phases msgid]
  have backward : (e.handover server true true msgid).backward =
      (packet.about msgid).toList ++ answers.filterMap (Session.Packet.about msgid) := by
    rw [handover_backward, isNext, List.filterMap_cons]
    cases packet.about msgid <;> rfl
  cases about : packet.about msgid with
  | none =>
      rw [about] at backward
      rw [Exchange.handover] at inv
      have same : server.answers.filterMap (Session.Packet.about msgid) =
          answers.filterMap (Session.Packet.about msgid) := backward
      rw [same] at inv
      exact inv
  | some message =>
      rw [about] at backward
      cases message with
      | offer =>
          rw [after_offer]
          exact inv.accepted rfl backward
      | release =>
          rw [after_release]
          exact inv.completed rfl backward

/-- PUBREL is sent or queued for a publication that waits for PUBCOMP. -/
theorem Acknowledges.agrees {id : Nat} (acknowledges : Acknowledges e .pubrel id e')
    (agrees : Agrees e server true current) (released : phaseOf e.outbound id = .released) :
    Agrees e' server true current := by
  have booked := agrees.toBooked
  cases acknowledges with
  | sent rc =>
      refine agrees.steps (booked.write (sendAck_outbound ..) (sendAck_trace ..)
        (fun _ _ => Event.noConfusion) Event.noConfusion Event.noConfusion) ?_
      exact handover_sendPubrel booked (.inl ⟨released, rfl⟩) (sendAck_outbound ..)
        (sendAck_queue ..) (sendAck_trace ..)
  | queued =>
      refine ⟨booked.write rfl rfl (fun _ _ => Event.noConfusion) Event.noConfusion
        Event.noConfusion, fun msgid => ?_⟩
      have inv := agrees.numbers msgid
      have neutral : (Event.queuedAck .pubrel id).Neutral := trivial
      have unread : server.unread (e.queueAck .pubrel id).trace = server.unread e.trace := by
        rw [queueAck_trace, Server.unread, Server.unread, neutral.packetsWritten]
      have frees : freed msgid (e.queueAck .pubrel id).trace = freed msgid e.trace := by
        rw [queueAck_trace, freed_cons (fun _ _ => Event.noConfusion), neutral.releases,
          Bool.false_or]
      rw [Exchange.handover, unread, frees]
      by_cases about : id = msgid
      · subst about
        have step := inv.enqueue released rfl
        have queued : (⟨id, .pubrel⟩ : AckRequest) ∈ (e.queueAck .pubrel id).queue := by simp
        rw [decide_eq_true queued]
        exact step
      · have same : (⟨msgid, .pubrel⟩ : AckRequest) ∈ (e.queueAck .pubrel id).queue ↔
            ⟨msgid, .pubrel⟩ ∈ e.queue := by
          simp [Ne.symm about]
        simp only [same]
        exact inv

theorem Unmoved.acknowledge (unmoved : Unmoved e e') {e'' : Exchange} {type : PacketType}
    {id : Nat} (acknowledges : Acknowledges e' type id e'') (other : type ≠ .pubrel) :
    Unmoved e e'' := by
  rcases unmoved.trace with ⟨events, trace, neutral⟩
  cases acknowledges with
  | sent rc =>
      refine ⟨(sendAck_outbound ..).trans unmoved.outbound, fun msgid => ?_,
        .sentAck type id rc :: events, ?_, List.forall_mem_cons.mpr ⟨other, neutral⟩⟩
      · rw [sendAck_queue]
        exact unmoved.queue msgid
      · rw [sendAck_trace, trace, List.cons_append]
  | queued =>
      have isNeutral : (Event.queuedAck type id).Neutral := trivial
      refine ⟨unmoved.outbound, fun msgid => ?_, .queuedAck type id :: events, ?_,
        List.forall_mem_cons.mpr ⟨isNeutral, neutral⟩⟩
      · rw [queueAck_queue, List.mem_append, unmoved.queue msgid]
        simp [Ne.symm other]
      · rw [queueAck_trace, trace, List.cons_append]

theorem Agrees.pop (agrees : Agrees e server up current) {packet : Session.Packet}
    {answers : List Session.Packet} (isNext : server.answers = packet :: answers)
    (nothing : ∀ msgid, packet.about msgid = none) :
    Agrees e { server with answers := answers } up current := by
  refine ⟨agrees.toBooked.received isNext, fun msgid => ?_⟩
  have inv := agrees.numbers msgid
  rw [Exchange.handover, isNext, List.filterMap_cons, nothing msgid] at inv
  exact inv

/-- The exchange of a message ends. -/
theorem Booked.remove (booked : Booked e server) {id : Nat} {event : Event}
    (neutral : event.Neutral) (trace : e'.trace = event :: e.trace)
    (outbound : e'.outbound = removeMessage e.outbound id)
    (spent : ∀ number, lastStarted id e.trace = some (number, 2) →
      server.delivered.count number = 1) : Booked e' server := by
  rcases @neutral_append [event] e.trace
    (List.forall_mem_singleton.mpr neutral) with ⟨same, last, discards, written, -⟩
  rw [List.singleton_append, ← trace] at same discards written
  have last (msgid : Nat) : lastStarted msgid e'.trace = lastStarted msgid e.trace :=
    trace ▸ last msgid
  have unread : server.unread e'.trace = server.unread e.trace :=
    congrArg (List.drop server.read) written
  have sub : ∀ m ∈ e'.outbound, m ∈ e.outbound := fun m mem =>
    mem_of_mem_removeMessage (outbound ▸ mem)
  constructor
  · exact outbound ▸ ids_removeMessage_nodup booked.distinct
  · exact fun m mem => booked.positive m (sub m mem)
  · exact fun m mem => booked.qos m (sub m mem)
  · intro m mem
    rw [last]
    exact booked.numbered m (sub m mem)
  · rw [written]
    exact booked.read_le
  · exact booked.accepts
  · rw [same]
    exact booked.known
  · rw [unread, same]
    exact booked.publication
  · intro number msgid mem
    rw [last]
    rw [unread] at mem
    exact booked.last number msgid mem
  · intro number msgid started
    rw [same] at started
    rcases booked.once number msgid started with ⟨most, one | ⟨inFlight, isLast⟩ | before⟩
    · exact ⟨most, .inl one⟩
    · by_cases ended : msgid = id
      · exact ⟨most, .inl (spent number (ended ▸ isLast))⟩
      · refine ⟨most, .inr (.inl ⟨?_, (last msgid).trans isLast⟩)⟩
        rw [outbound]
        exact (mem_ids_removeMessage booked.distinct).mpr ⟨inFlight, ended⟩
    · exact ⟨most, .inr (.inr (discards ▸ before))⟩

theorem Booked.acceptPubrec (booked : Booked e server) (id : Nat) :
    Booked (e.acceptPubrec id) server := by
  have sameIds : ids (e.acceptPubrec id).outbound = ids e.outbound :=
    ids_updateMessage fun _ same => same
  have old : ∀ m' ∈ (e.acceptPubrec id).outbound,
      ∃ m ∈ e.outbound, m'.msgid = m.msgid ∧ m'.qos = m.qos := by
    intro m' mem
    rcases exists_of_mem_updateMessage mem with ⟨m, oldMem, rfl | ⟨-, rfl⟩⟩
    · exact ⟨m', oldMem, rfl, rfl⟩
    · exact ⟨m, oldMem, rfl, rfl⟩
  constructor
  · rw [sameIds]
    exact booked.distinct
  · intro m' mem
    rcases old m' mem with ⟨m, oldMem, isId, -⟩
    exact isId ▸ booked.positive m oldMem
  · intro m' mem
    rcases old m' mem with ⟨m, oldMem, -, isQos⟩
    exact isQos ▸ booked.qos m oldMem
  · intro m' mem
    rcases old m' mem with ⟨m, oldMem, isId, isQos⟩
    rw [isId, isQos]
    exact booked.numbered m oldMem
  · exact booked.read_le
  · exact booked.accepts
  · exact booked.known
  · exact booked.publication
  · exact booked.last
  · rw [sameIds]
    exact booked.once

/-- What the arrival of a packet of the server does agrees with the server. -/
theorem Handles.agrees {packet : Session.Packet} (handles : Handles e packet e')
    (agrees : Agrees e server true true) {answers : List Session.Packet}
    (isNext : server.answers = packet :: answers) :
    Agrees e' { server with answers := answers } true true := by
  have booked := agrees.toBooked.received isNext
  have logged {event : Event} (neutral : event.Neutral) : Unmoved e (e.log event) :=
    (Unmoved.refl e).log neutral
  have received (type : PacketType) (id : Nat) : (Event.received type id).Neutral := trivial
  have arrived (publish : Publish) : (Event.receivedPublish publish).Neutral := trivial
  have passedOn (publish : Publish) : (Event.processed publish).Neutral := trivial
  have stored (publish : Publish) (m : Messages) : Unmoved e
      (((e.persistReceived publish).log (.receivedPublish publish)).storeInbound m) :=
    ⟨storeInbound_outbound .., fun _ => by rw [storeInbound_queue]; rfl, [_],
      storeInbound_trace .., List.forall_mem_singleton.mpr (arrived publish)⟩
  cases handles with
  | pubackIgnored ignored =>
      exact (logged (received _ _)).agrees (agrees.pop isNext fun _ => rfl)
  | @puback id m found one =>
      rcases findMessage_mem found with ⟨mem, rfl⟩
      refine agrees.received isNext (received .puback m.msgid) rfl rfl (fun msgid => ?_) ?_
      · rw [finishOutbound_outbound, log_outbound, phaseOf_removeMessage booked.distinct]
        split
        next same =>
          rw [same, phaseOf_of_mem booked.distinct mem, if_pos (by omega)]
          rfl
        next => rfl
      · refine booked.remove (received .puback m.msgid) rfl rfl fun number last => ?_
        rcases booked.numbered m mem with ⟨number', last'⟩
        have two := (Prod.mk.inj (Option.some.inj (last.symm.trans last'))).2
        omega
  | @pubrecUnexpected id rc _ unexpected acknowledges =>
      have quiet := agrees.numbers id
      have isOffer : .offer ∈ (e.handover server true true id).backward := by
        rw [handover_backward, isNext]
        simp [Session.Packet.about]
      have notOffered : phaseOf e.outbound id ≠ .offered := by
        intro offered
        rcases awaitsPubrec_of_phaseOf offered with ⟨m, found, awaits⟩
        exact unexpected m found awaits
      have released : phaseOf e.outbound id = .released := by
        cases isPhase : phaseOf e.outbound id with
        | offered => exact absurd isPhase notOffered
        | released => rfl
        | idle => exact absurd isOffer ((quiet.idle rfl isPhase).unconfirmed rfl)
      refine acknowledges.agrees (agrees.received isNext (received .pubrec id) rfl rfl
        (fun msgid => ?_) ((logged (received .pubrec id)).booked booked)) released
      rw [log_outbound, Session.Packet.about]
      split
      next same =>
        subst same
        rw [released]
        rfl
      next => rfl
  | @pubrecError id rc m found awaits version error =>
      have accepts := agrees.accepts id rc (isNext ▸ List.mem_cons_self)
      omega
  | @pubrec id rc m _ found awaits acknowledges =>
      rcases findMessage_mem found with ⟨mem, rfl⟩
      have offered := phaseOf_of_awaitsPubrec booked.distinct mem awaits
      have phases (msgid : Nat) :
          phaseOf ((e.log (.received .pubrec m.msgid)).acceptPubrec m.msgid).outbound msgid =
            after ((Session.Packet.pubrec m.msgid rc).about msgid) (phaseOf e.outbound msgid) := by
        have updated := @findMessage_updateMessage e.outbound m.msgid
          (fun m => { m with nextMessageType := some .pubcomp }) (fun _ same => same) msgid
        rw [acceptPubrec_outbound, log_outbound, phaseOf, updated, Session.Packet.about]
        by_cases same : msgid = m.msgid
        · subst same
          rw [if_pos rfl, if_pos rfl, found, offered]
          simp [awaits.1, after]
        · rw [if_neg same, if_neg (Ne.symm same)]
          rfl
      refine acknowledges.agrees (agrees.received isNext (received .pubrec m.msgid) rfl rfl phases
        (((logged (received .pubrec m.msgid)).booked booked).acceptPubrec m.msgid)) ?_
      rw [phases, Session.Packet.about, if_pos rfl, offered]
      rfl
  | @pubcompUnexpected id unexpected =>
      have notReleased : phaseOf e.outbound id ≠ .released := by
        intro released
        rcases awaitsPubcomp_of_phaseOf released with ⟨m, found, awaits⟩
        exact unexpected m found awaits
      refine agrees.received isNext (received .pubcomp id) rfl rfl (fun msgid => ?_)
        ((logged (received .pubcomp id)).booked booked)
      rw [log_outbound, Session.Packet.about]
      split
      next same =>
        subst same
        cases isPhase : phaseOf e.outbound id with
        | offered => rfl
        | released => exact absurd isPhase notReleased
        | idle => rfl
      next => rfl
  | @pubcomp id m found awaits =>
      rcases findMessage_mem found with ⟨mem, rfl⟩
      have released := phaseOf_of_awaitsPubcomp booked.distinct mem awaits
      refine agrees.received isNext (received .pubcomp m.msgid) rfl rfl (fun msgid => ?_) ?_
      · rw [finishOutbound_outbound, log_outbound, phaseOf_removeMessage booked.distinct,
          Session.Packet.about]
        by_cases same : msgid = m.msgid
        · subst same
          rw [if_pos rfl, if_pos rfl, released]
          rfl
        · rw [if_neg same, if_neg (Ne.symm same)]
          rfl
      · refine booked.remove (received .pubcomp m.msgid) rfl rfl fun number last => ?_
        have passed := ((agrees.numbers m.msgid).released rfl released).passed
        rw [handover_passed, last] at passed
        exact passed
  | publish0 zero =>
      exact ((logged (arrived _)).log (passedOn _)).agrees (agrees.pop isNext fun _ => rfl)
  | publish1 one acknowledges =>
      exact (((logged (arrived _)).log (passedOn _)).acknowledge acknowledges (by decide)).agrees
        (agrees.pop isNext fun _ => rfl)
  | publishDelivered two version new acknowledges =>
      exact (((stored _ _).log (passedOn _)).acknowledge acknowledges (by decide)).agrees
        (agrees.pop isNext fun _ => rfl)
  | publishKept two kept acknowledges =>
      exact ((stored _ _).acknowledge acknowledges (by decide)).agrees
        (agrees.pop isNext fun _ => rfl)
  | publishOther more =>
      exact (logged (arrived _)).agrees (agrees.pop isNext fun _ => rfl)
  | pubrelUnexpected unexpected acknowledges =>
      exact ((logged (received _ _)).acknowledge acknowledges (by decide)).agrees
        (agrees.pop isNext fun _ => rfl)
  | @pubrel id m _ found awaits acknowledges =>
      have ended : Unmoved e ((if mqttVersion5 ≤ m.mqttVersion then e.log (.received .pubrel id)
          else (e.log (.received .pubrel id)).log
            (.processed (MQTTProtocol.publicationOf m))).finishInbound id) := by
        split
        · exact ⟨rfl, fun _ => Iff.rfl, [_], rfl, List.forall_mem_singleton.mpr (received _ _)⟩
        · exact ⟨rfl, fun _ => Iff.rfl, [_, _], rfl,
            List.forall_mem_cons.mpr ⟨passedOn _, List.forall_mem_singleton.mpr (received _ _)⟩⟩
      exact (ended.acknowledge acknowledges (by decide)).agrees (agrees.pop isNext fun _ => rfl)

/-! ## A publication starts -/

theorem phaseOf_append {messages : List Messages} {m : Messages}
    (unused : m.msgid ∉ ids messages) (msgid : Nat) :
    phaseOf (messages ++ [m]) msgid =
      if msgid = m.msgid then phaseOf [m] m.msgid else phaseOf messages msgid := by
  have none : findMessage messages m.msgid = none := findMessage_eq_none.mpr unused
  split
  next same =>
    subst same
    rw [phaseOf, phaseOf, findMessage, List.find?_append, ← findMessage, none]
    rfl
  next different =>
    have other : findMessage [m] msgid = Option.none := by
      simp [findMessage, Ne.symm different]
    have same : findMessage (messages ++ [m]) msgid = findMessage messages msgid := by
      rw [findMessage, List.find?_append, ← findMessage, ← findMessage, other, Option.or_none]
    rw [phaseOf, phaseOf, same]

/-- What a publication that starts changes in what is known of the ids. -/
theorem lastStarted_started (id qos msgid : Nat) (trace : List Event) :
    lastStarted msgid (.started id qos :: trace) =
      if id = msgid then some ((publications trace).length, qos) else lastStarted msgid trace :=
  rfl

/-- The books when a message is put in flight. -/
theorem Booked.start (booked : Booked e server) {m : Messages} (positive : 0 < m.msgid)
    (qos : m.qos = 1 ∨ m.qos = 2) (unused : m.msgid ∉ ids e.outbound)
    (nothing : ∀ number, .publish number 2 m.msgid ∉ server.unread e.trace) :
    Booked (e.start m) server := by
  have unread : server.unread (e.start m).trace = server.unread e.trace := by
    rw [start_trace, unread_cons Event.noConfusion booked.read_le]
    exact List.append_nil _
  have last {id : Nat} (other : id ≠ m.msgid) :
      lastStarted id (e.start m).trace = lastStarted id e.trace := by
    rw [start_trace, lastStarted_started, if_neg (Ne.symm other)]
  have cases_outbound {other : Messages} (mem : other ∈ (e.start m).outbound) :
      other ∈ e.outbound ∧ other.msgid ≠ m.msgid ∨ other = m := by
    rcases List.mem_append.mp mem with mem | mem
    · exact .inl ⟨mem, fun same => unused (same ▸ mem_ids_of_mem mem)⟩
    · exact .inr (List.mem_singleton.mp mem)
  have same : publications (e.start m).trace = publications e.trace ++ [(m.msgid, m.qos)] := rfl
  constructor
  · rw [start_outbound, ids_append]
    refine List.nodup_append.mpr ⟨booked.distinct, List.nodup_singleton _, ?_⟩
    rintro id mem other new rfl
    have same : id = m.msgid := List.mem_singleton.mp new
    exact unused (same ▸ mem)
  · intro other mem
    rcases cases_outbound mem with ⟨mem, -⟩ | rfl
    · exact booked.positive other mem
    · exact positive
  · intro other mem
    rcases cases_outbound mem with ⟨mem, -⟩ | rfl
    · exact booked.qos other mem
    · exact qos
  · intro other mem
    rcases cases_outbound mem with ⟨mem, different⟩ | rfl
    · rw [last different]
      exact booked.numbered other mem
    · exact ⟨_, if_pos rfl⟩
  · exact Nat.le_trans booked.read_le (List.prefix_append _ _).length_le
  · exact booked.accepts
  · intro number mem
    rw [same, List.length_append]
    exact Nat.lt_add_right _ (booked.known number mem)
  · intro number qos' id mem
    rw [unread] at mem
    have started := booked.publication number qos' id mem
    rw [same, List.getElem?_append_left (List.getElem?_eq_some_iff.mp started).1]
    exact started
  · intro number id mem
    rw [unread] at mem
    have other : id ≠ m.msgid := by
      rintro rfl
      exact nothing number mem
    rw [last other]
    exact booked.last number id mem
  · intro number id started
    rw [same] at started
    by_cases old : number < (publications e.trace).length
    · rw [List.getElem?_append_left old] at started
      rcases booked.once number id started with ⟨most, one | ⟨inFlight, isLast⟩ | before⟩
      · exact ⟨most, .inl one⟩
      · have other : id ≠ m.msgid := fun same => unused (same ▸ inFlight)
        refine ⟨most, .inr (.inl ⟨?_, (last other).trans isLast⟩)⟩
        rw [start_outbound, ids_append]
        exact List.mem_append_left _ inFlight
      · exact ⟨most, .inr (.inr before)⟩
    · have unknown : server.delivered.count number = 0 :=
        List.count_eq_zero.mpr fun mem => old (booked.known number mem)
      have bound := (List.getElem?_eq_some_iff.mp started).1
      rw [List.length_append, List.length_singleton] at bound
      have new : number = (publications e.trace).length := by omega
      rw [new, List.getElem?_concat_length] at started
      rcases Prod.mk.inj (Option.some.inj started) with ⟨rfl, two⟩
      refine ⟨by omega, .inr (.inl ⟨?_, ?_⟩)⟩
      · rw [start_outbound, ids_append]
        exact List.mem_append_right _ List.mem_cons_self
      · rw [start_trace, lastStarted_started, if_pos rfl, new, two]

/-- A message is put in flight. -/
theorem Agrees.start (agrees : Agrees e server true current) {m : Messages}
    (positive : 0 < m.msgid) (qos : m.qos = 1 ∨ m.qos = 2) (unused : m.msgid ∉ ids e.outbound)
    (next : m.qos = 2 → m.nextMessageType = some .pubrec)
    (unqueued : m.qos = 2 → ⟨m.msgid, .pubrel⟩ ∉ e.queue) :
    Agrees (e.start m) server true current := by
  have booked := agrees.toBooked
  have isIdle : phaseOf e.outbound m.msgid = .idle := by
    rw [phaseOf, findMessage_eq_none.mpr unused]
  have inv := agrees.numbers m.msgid
  have quiet := inv.idle (inv.current rfl) isIdle
  have unread : server.unread (e.start m).trace = server.unread e.trace := by
    rw [start_trace, unread_cons Event.noConfusion booked.read_le]
    exact List.append_nil _
  have unknown : server.delivered.count (publications e.trace).length = 0 :=
    List.count_eq_zero.mpr fun mem => absurd (booked.known _ mem) (Nat.lt_irrefl _)
  refine ⟨booked.start positive qos unused fun number mem => ?_, fun msgid => ?_⟩
  · refine quiet.nothing (List.mem_filterMap.mpr ⟨_, mem, ?_⟩)
    rw [Upward.about, if_pos ⟨rfl, rfl⟩]
  · have inv := agrees.numbers msgid
    rw [Exchange.handover, unread, start_outbound, phaseOf_append unused, start_trace,
      lastStarted_started, start_queue]
    by_cases about : msgid = m.msgid
    · subst about
      have isFreed : freed m.msgid (.started m.msgid m.qos :: e.trace) = false := by
        rw [freed, sinceStarted_cons]
        simp [Event.starts]
      rw [if_pos rfl, if_pos rfl, isFreed]
      rcases qos with one | two
      · have phase : phaseOf [m] m.msgid = .idle := by
          simp [phaseOf, findMessage, one]
        have passed : server.passed (some ((publications e.trace).length, m.qos)) = 1 := by
          rw [one]
          rfl
        have step := inv.other isIdle rfl
        rw [handover_phase, isIdle] at step
        rw [phase, passed]
        exact step
      · have phase : phaseOf [m] m.msgid = .offered := by
          simp [phaseOf, findMessage, two, next two]
        have passed : server.passed (some ((publications e.trace).length, m.qos)) = 0 := by
          rw [two]
          exact unknown
        rw [phase, passed]
        exact inv.start isIdle rfl (decide_eq_false (unqueued two))
    · have starts : (Event.started m.msgid m.qos).starts msgid = false := by
        simp [Event.starts, Ne.symm about]
      have isFreed : freed msgid (.started m.msgid m.qos :: e.trace) = freed msgid e.trace := by
        rw [freed, sinceStarted_cons, starts, if_neg Bool.false_ne_true, List.any_cons]
        rfl
      rw [if_neg about, if_neg (Ne.symm about), isFreed]
      exact inv

/-- What a new publication does agrees with the server, when no PUBREL waits for its id. -/
theorem Starts.agrees {message : Session.Message} {id : Nat} (starts : Starts e message id e')
    (agrees : Agrees e server true current)
    (unqueued : message.qos = 2 → ⟨id, .pubrel⟩ ∉ e.queue) :
    Agrees e' server true current := by
  cases starts with
  | unacknowledged zero =>
      have booked := agrees.toBooked
      have written (rc : CompletionCode) :
          packetOf e.trace (.sentPublish 0 false rc) = none := if_pos (.inr rfl)
      refine agrees.steps (booked.write rfl rfl (fun _ _ => Event.noConfusion) Event.noConfusion
        Event.noConfusion) fun msgid => ?_
      have unread (rc : CompletionCode) : server.unread (e.log (.sentPublish 0 false rc)).trace =
          server.unread e.trace := by
        rw [log_trace, unread_cons Event.noConfusion booked.read_le, written]
        exact List.append_nil _
      have same (rc : CompletionCode) : (e.log (.sentPublish 0 false rc)).handover server true
          current msgid = e.handover server true current msgid := by
        rw [Exchange.handover, unread, log_trace, freed_cons (fun _ _ => Event.noConfusion)]
        rfl
      rw [same]
  | @start _ rc positive unused qos =>
      set m := MQTTProtocol.createMessage (Session.publishPacket e.mqttVersion message false id)
        message.qos message.retained 0 with isMessage
      have next : m.qos = 2 → m.nextMessageType = some .pubrec := fun two => if_pos two
      have started : Agrees (e.start m) server true current :=
        agrees.start positive qos unused next unqueued
      have mem : m ∈ (e.start m).outbound := List.mem_append_right _ List.mem_cons_self
      refine started.steps (started.toBooked.write rfl rfl (fun _ _ => Event.noConfusion)
        Event.noConfusion Event.noConfusion) ?_
      exact handover_sendPublish started.toBooked mem next rfl rfl rfl rfl

end Exchange

end Paho
