import Paho.Async.PendingWrites
import Mathlib.Logic.Function.Iterate

/-!
# The ids of concurrent requests

`MQTTAsync_send`, `MQTTAsync_subscribeMany` and `MQTTAsync_unsubscribeMany` are called by several
threads. `MQTTAsync_assignMsgId` looks for an id in three lists, and `MQTTAsync_addCommand` puts the
command into the first of them later. In between only `msgID` keeps the id from being found again.
-/

namespace Paho

namespace Responses

namespace MQTTAsyncs

/-- What has an id: the queued commands, the responses and the messages in flight, with the numbers
of their requests. -/
def holders (s : MQTTAsyncs) : List (Nat × Nat) :=
  (s.commands ++ s.responses).map (fun command => (command.token, command.serial)) ++
    (ids s.c.outboundMsgs).map fun msgid => (msgid, s.owner msgid)

/-- Different requests have different ids, and no two messages in flight have the same. -/
def UniqueIds (s : MQTTAsyncs) : Prop :=
  (∀ x ∈ s.holders, ∀ y ∈ s.holders, x.1 = y.1 → x.1 ≠ 0 → x.2 = y.2) ∧
    (ids s.c.outboundMsgs).Nodup

instance (s : MQTTAsyncs) : Decidable s.UniqueIds :=
  inferInstanceAs (Decidable (_ ∧ _))

end MQTTAsyncs

/-- `MQTTAsync_assignMsgId`, with the ids of the queued commands of other clients. -/
def assignMsgId (foreign : List Nat) (s : MQTTAsyncs) : Option (Nat × MQTTAsyncs) :=
  match MQTTProtocol.searchMsgId (s.usedMsgIds ++ foreign) s.c.msgID (maxMsgId + 1)
      (MQTTProtocol.nextMsgId s.c.msgID) with
  | none => none
  | some msgid =>
      some (msgid, if msgid ≠ 0 then { s with c := { s.c with msgID := msgid } } else s)

/-- The client and the threads that call it: the requests that have an id and are not added yet. -/
structure Callers where
  client : MQTTAsyncs
  waiting : Nat → Option (Request × Nat)

/-- What the threads do. -/
inductive ThreadEvent where
  /-- A call gets an id, if it needs one. Other clients have commands with the ids `foreign`. -/
  | assign (thread : Nat) (request : Request) (foreign : List Nat)
  /-- The call adds its command. -/
  | add (thread : Nat)
  /-- The call returns an error. -/
  | giveUp (thread : Nat)
  /-- Anything but a request. -/
  | client (input : Input)
  deriving DecidableEq, Repr

namespace Callers

/-- One step of the client or of a thread. -/
def step (s : Callers) : ThreadEvent → Callers
  | .assign thread request foreign =>
      if (s.waiting thread).isSome || request.badQos then s
      else if request.needsMsgId then
        match assignMsgId foreign s.client with
        | none => s
        | some (msgid, client) =>
            if msgid = 0 then s
            else
              { client := client
                waiting := Function.update s.waiting thread (some (request, msgid)) }
      else { s with waiting := Function.update s.waiting thread (some (request, 0)) }
  | .add thread =>
      match s.waiting thread with
      | none => s
      | some (request, msgid) =>
          { client := s.client.addCommand request msgid
            waiting := Function.update s.waiting thread none }
  | .giveUp thread => { s with waiting := Function.update s.waiting thread none }
  | .client input =>
      match input.action with
      | .request _ => s
      | _ => { s with client := Responses.step s.client input }

/-- The restored client, before any call. -/
def start (c : Clients) (maxInflightMessages : Nat)
    (restored : List (Request × Nat)) : Callers where
  client := Responses.start c maxInflightMessages restored
  waiting := fun _ => none

end Callers

/-- The first id after `msgID` in the circle that is not among `used`; `msgID` itself is none. -/
def NextFree (used : List Nat) (msgID msgid : Nat) : Prop :=
  ∃ n, msgid = MQTTProtocol.nextMsgId^[n + 1] msgID ∧ msgid ∉ used ∧ msgid ≠ msgID ∧
    ∀ j < n, MQTTProtocol.nextMsgId^[j + 1] msgID ∈ used ∧
      MQTTProtocol.nextMsgId^[j + 1] msgID ≠ msgID

/-- When an id is assigned, the next free one is not one that another thread waits with. -/
def Protected (s : Callers) : ThreadEvent → Prop
  | .assign thread request foreign =>
      s.waiting thread = none → request.badQos = false → request.needsMsgId = true →
        ∀ other held msgid, s.waiting other = some (held, msgid) →
          ¬NextFree (s.client.usedMsgIds ++ foreign) s.client.c.msgID msgid
  | _ => True

/-! ## The client -/

/-- The ids of the client are kept apart, also in the next steps. -/
structure MQTTAsyncs.Apart (s : MQTTAsyncs) : Prop where
  wellFormed : s.c.exchange.OutboundWellFormed
  numbered : s.Numbered
  agree : ∀ x ∈ s.holders, ∀ y ∈ s.holders, x.1 = y.1 → x.1 ≠ 0 → x.2 = y.2
  unused : ∀ command ∈ s.commands, command.token ∉ ids s.c.outboundMsgs
  valid : ∀ command ∈ s.commands, command.request.badQos = false ∧
    (command.request.needsMsgId = true → 0 < command.token)

/-- The ids stay apart, and nothing has an id that it did not have. -/
structure Settles (s s' : MQTTAsyncs) : Prop where
  apart : s'.Apart
  holders : s'.holders ⊆ s.holders

/-- The lists lose what they lose. -/
structure Recedes (s s' : MQTTAsyncs) : Prop where
  wellFormed : s.c.exchange.OutboundWellFormed → s'.c.exchange.OutboundWellFormed
  commands : s'.commands ⊆ s.commands
  responses : s'.responses ⊆ s.responses
  inFlight : ids s'.c.outboundMsgs ⊆ ids s.c.outboundMsgs
  owner : s'.owner = s.owner

section Client

variable {s s' s'' : MQTTAsyncs}

theorem ids_exchange (c : Clients) : ids c.exchange.outbound = ids c.outboundMsgs :=
  ids_map_untouched

theorem mem_holders {holder : Nat × Nat} :
    holder ∈ s.holders ↔
      (∃ command, (command ∈ s.commands ∨ command ∈ s.responses) ∧
        (command.token, command.serial) = holder) ∨
      ∃ msgid ∈ ids s.c.outboundMsgs, (msgid, s.owner msgid) = holder := by
  simp only [MQTTAsyncs.holders, List.mem_append, List.mem_map]

/-- The ids that are not assigned are those of the holders. -/
theorem mem_usedMsgIds {msgid : Nat} :
    msgid ∈ s.usedMsgIds ↔ ∃ serial, (msgid, serial) ∈ s.holders := by
  simp only [mem_holders, MQTTAsyncs.usedMsgIds, List.mem_append, List.mem_map, Prod.mk.injEq]
  constructor
  · rintro ((⟨command, mem, rfl⟩ | inFlight) | ⟨command, mem, rfl⟩)
    · exact ⟨command.serial, .inl ⟨command, .inl mem, rfl, rfl⟩⟩
    · exact ⟨s.owner msgid, .inr ⟨msgid, inFlight, rfl, rfl⟩⟩
    · exact ⟨command.serial, .inl ⟨command, .inr mem, rfl, rfl⟩⟩
  · rintro ⟨serial, ⟨command, mem | mem, rfl, -⟩ | ⟨_, inFlight, rfl, -⟩⟩
    · exact .inl (.inl ⟨command, mem, rfl⟩)
    · exact .inr ⟨command, mem, rfl⟩
    · exact .inl (.inr inFlight)

namespace MQTTAsyncs.Apart

theorem uniqueIds (apart : s.Apart) : s.UniqueIds := by
  refine ⟨apart.agree, ?_⟩
  rw [← ids_exchange]
  exact apart.wellFormed.distinct

theorem settled (apart : s.Apart) : Settles s s :=
  ⟨apart, List.Subset.refl _⟩

/-- Fewer holders are kept apart as well. -/
theorem of_holders (apart : s.Apart) (holders : s'.holders ⊆ s.holders)
    (wellFormed : s'.c.exchange.OutboundWellFormed) (numbered : s'.Numbered)
    (commands : s'.commands ⊆ s.commands)
    (unused : ∀ command ∈ s'.commands, command.token ∉ ids s'.c.outboundMsgs) : Settles s s' where
  apart :=
    { wellFormed := wellFormed
      numbered := numbered
      agree := fun x memX y memY => apart.agree x (holders memX) y (holders memY)
      unused := unused
      valid := fun command mem => apart.valid command (commands mem) }
  holders := holders

end MQTTAsyncs.Apart

namespace Recedes

theorem refl (s : MQTTAsyncs) : Recedes s s :=
  ⟨id, List.Subset.refl _, List.Subset.refl _, List.Subset.refl _, rfl⟩

theorem trans (first : Recedes s s') (second : Recedes s' s'') : Recedes s s'' where
  wellFormed := fun wellFormed => second.wellFormed (first.wellFormed wellFormed)
  commands := List.Subset.trans second.commands first.commands
  responses := List.Subset.trans second.responses first.responses
  inFlight := List.Subset.trans second.inFlight first.inFlight
  owner := second.owner.trans first.owner

theorem holders (recedes : Recedes s s') : s'.holders ⊆ s.holders := by
  intro holder mem
  rw [mem_holders] at mem ⊢
  rw [recedes.owner] at mem
  rcases mem with ⟨command, among, rfl⟩ | ⟨msgid, inFlight, rfl⟩
  · exact .inl ⟨command, among.imp (recedes.commands ·) (recedes.responses ·), rfl⟩
  · exact .inr ⟨msgid, recedes.inFlight inFlight, rfl⟩

theorem settles (recedes : Recedes s s') (apart : s.Apart) (numbered : s'.Numbered) :
    Settles s s' := by
  apply apart.of_holders recedes.holders (recedes.wellFormed apart.wellFormed) numbered
    recedes.commands
  intro command mem inFlight
  exact apart.unused command (recedes.commands mem) (recedes.inFlight inFlight)

/-- The session goes on, and the lists of the client stay. -/
theorem of_session {c : Clients}
    (wellFormed : s.c.exchange.OutboundWellFormed → c.exchange.OutboundWellFormed)
    (inFlight : ids c.outboundMsgs ⊆ ids s.c.outboundMsgs) : Recedes s { s with c := c } :=
  ⟨wellFormed, List.Subset.refl _, List.Subset.refl _, inFlight, rfl⟩

theorem of_responses {responses : List QueuedCommand} (subset : responses ⊆ s.responses) :
    Recedes s { s with responses := responses } :=
  ⟨id, List.Subset.refl _, subset, List.Subset.refl _, rfl⟩

/-- Callbacks and the pending write have no ids. -/
theorem of_eq (c : s'.c = s.c) (commands : s'.commands = s.commands)
    (responses : s'.responses = s.responses) (owner : s'.owner = s.owner) : Recedes s s' := by
  constructor
  · rw [c]
    exact id
  · rw [commands]
    exact List.Subset.refl _
  · rw [responses]
    exact List.Subset.refl _
  · rw [c]
    exact List.Subset.refl _
  · exact owner

theorem complete (s : MQTTAsyncs) (msgId : Nat) (callback : QueuedCommand → Callback) :
    Recedes s (s.complete msgId callback) := by
  unfold MQTTAsyncs.complete
  split
  · exact (of_responses List.eraseP_subset).trans (of_eq rfl rfl rfl rfl)
  · exact refl s

theorem writeComplete (s : MQTTAsyncs) (succeeded : Bool) :
    Recedes s (s.writeComplete succeeded) := by
  have cleared : Recedes s { s with pendingWrite := none } := of_eq rfl rfl rfl rfl
  have erased (command : QueuedCommand) :
      Recedes s { s with pendingWrite := none, responses := s.responses.erase command } :=
    cleared.trans (of_responses List.erase_subset)
  unfold MQTTAsyncs.writeComplete
  split
  · exact refl s
  · simp only
    split
    · split
      · split
        · split
          · exact (erased _).trans (of_eq rfl rfl rfl rfl)
          · exact cleared
        · exact (erased _).trans (of_eq rfl rfl rfl rfl)
      · exact erased _
    · exact cleared

theorem resume {c : Clients}
    (internals : Relation.ReflTransGen Exchange.Internal s.c.exchange c.exchange) :
    Recedes s (s.resume c) := by
  have inFlight : ids c.outboundMsgs ⊆ ids s.c.outboundMsgs := by
    rw [← ids_exchange c, ← ids_exchange s.c]
    rcases Exchange.internals_outbound internals with kept | cleaned
    · rw [kept]
      exact List.Subset.refl _
    · rw [cleaned]
      exact List.nil_subset _
  have wellFormed := Exchange.internals_wellFormed internals
  have freed : Recedes s s.freeResponses :=
    (of_responses (List.nil_subset _)).trans (of_eq rfl rfl rfl rfl)
  unfold MQTTAsyncs.resume
  split
  · exact freed.trans (@of_session s.freeResponses c wellFormed inFlight)
  · exact of_session wellFormed inFlight

/-- A packet brings no id. -/
theorem receive_session (packet : Session.Packet) :
    Recedes s { s with c := Session.receive s.c packet } := by
  apply of_session (Exchange.handles_wellFormed (handles_receive packet))
  have outbound (isAck : (∃ id, packet = .puback id) ∨ (∃ id rc, packet = .pubrec id rc) ∨
      ∃ id, packet = .pubcomp id) :
      ids (Session.receive s.c packet).outboundMsgs ⊆ ids s.c.outboundMsgs := by
    rw [ids_receive isAck]
    split
    · exact (removeMessage_sublist.map Messages.msgid).subset
    · exact List.Subset.refl _
  have inbound (isInbound : (∃ dup message id, packet = .publish dup message id) ∨
      ∃ id, packet = .pubrel id) :
      ids (Session.receive s.c packet).outboundMsgs ⊆ ids s.c.outboundMsgs := by
    rw [outbound_receive_inbound isInbound]
    exact List.Subset.refl _
  cases packet with
  | publish dup message msgId => exact inbound (.inl ⟨dup, message, msgId, rfl⟩)
  | pubrel msgId => exact inbound (.inr ⟨msgId, rfl⟩)
  | puback msgId => exact outbound (.inl ⟨msgId, rfl⟩)
  | pubrec msgId rc => exact outbound (.inr (.inl ⟨msgId, rc, rfl⟩))
  | pubcomp msgId => exact outbound (.inr (.inr ⟨msgId, rfl⟩))

theorem handleAck (s : MQTTAsyncs) (packet : Session.Packet) (msgId rc : Nat) :
    Recedes s (s.handleAck packet msgId rc) := by
  have received := @receive_session s packet
  unfold MQTTAsyncs.handleAck
  simp only
  split
  · exact received
  · apply (received.trans _).trans (complete ..)
    exact of_eq rfl rfl rfl rfl

theorem receive (s : MQTTAsyncs) (packet : Packet) : Recedes s (s.receive packet) := by
  cases packet with
  | publish dup message msgId => exact receive_session _
  | pubrel msgId => exact receive_session _
  | puback msgId rc => exact handleAck s (.puback msgId) msgId rc
  | pubrec msgId rc => exact handleAck s (.pubrec msgId rc) msgId rc
  | pubcomp msgId rc => exact handleAck s (.pubcomp msgId) msgId rc
  | suback msgId qoss => exact complete ..
  | unsuback msgId => exact complete ..

end Recedes

/-! ## Commands that are processed -/

namespace MQTTAsyncs.Apart

variable {command : QueuedCommand} {rest : List QueuedCommand}

/-- A command at the front of the queue that has an id has it alone in the queue. -/
theorem alone (apart : s.Apart) (queue : s.commands = command :: rest)
    (positive : 0 < command.token) : ∀ other ∈ rest, other.token ≠ command.token := by
  intro other mem same
  have holds {c : QueuedCommand} (among : c ∈ s.commands) : (c.token, c.serial) ∈ s.holders :=
    mem_holders.mpr (.inl ⟨c, .inl among, rfl⟩)
  have sameSerial : other.serial = command.serial := by
    apply apart.agree _ (holds (queue ▸ List.mem_cons_of_mem _ mem)) _
      (holds (queue ▸ List.mem_cons_self)) same
    exact same ▸ Nat.ne_of_gt positive
  have distinct := (List.nodup_append.mp apart.numbered.nodup).1
  rw [queue] at distinct
  apply (List.nodup_cons.mp distinct).1
  exact List.mem_map.mpr ⟨other, mem, sameSerial⟩

/-- A command goes from the queue to `responses`, or away. -/
theorem moved (apart : s.Apart) (queue : s.commands = command :: rest)
    (accepted : s'.accepted = s.accepted) (commands : s'.commands = rest)
    (responses : s'.responses = s.responses ∨ s'.responses = s.responses ++ [command])
    (wellFormed : s'.c.exchange.OutboundWellFormed)
    (outbound : ids s'.c.outboundMsgs = ids s.c.outboundMsgs) (owner : s'.owner = s.owner) :
    Settles s s' := by
  have fewer : s'.commands ⊆ s.commands := by
    rw [commands, queue]
    exact List.subset_cons_self command rest
  have among : ∀ other ∈ s'.responses, other ∈ s.responses ∨ other = command := by
    intro other mem
    rcases responses with same | more
    · exact .inl (same ▸ mem)
    · simpa [more] using mem
  have numbered := (Shrinks.dequeue queue accepted commands responses).numbered apart.numbered
  apply apart.of_holders _ wellFormed numbered fewer
  · intro other mem
    rw [outbound]
    exact apart.unused other (fewer mem)
  · intro holder mem
    rw [mem_holders] at mem ⊢
    rw [outbound, owner] at mem
    rcases mem with ⟨other, queued | waits, rfl⟩ | inFlight
    · exact .inl ⟨other, .inl (fewer queued), rfl⟩
    · rcases among other waits with old | rfl
      · exact .inl ⟨other, .inr old, rfl⟩
      · exact .inl ⟨other, .inl (queue ▸ List.mem_cons_self), rfl⟩
    · exact .inr inFlight

/-- A publication of QoS 1 or 2 is put in flight. -/
theorem putInFlight (apart : s.Apart) (queue : s.commands = command :: rest)
    (positive : 0 < command.token) (accepted : s'.accepted = s.accepted)
    (commands : s'.commands = rest)
    (responses : s'.responses = s.responses ∨ s'.responses = s.responses ++ [command])
    (wellFormed : s'.c.exchange.OutboundWellFormed)
    (outbound : ids s'.c.outboundMsgs = ids s.c.outboundMsgs ++ [command.token])
    (owner : s'.owner = Function.update s.owner command.token command.serial) : Settles s s' := by
  have unused := apart.unused command (queue ▸ List.mem_cons_self)
  have alone := apart.alone queue positive
  have fewer : s'.commands ⊆ s.commands := by
    rw [commands, queue]
    exact List.subset_cons_self command rest
  have among : ∀ other ∈ s'.responses, other ∈ s.responses ∨ other = command := by
    intro other mem
    rcases responses with same | more
    · exact .inl (same ▸ mem)
    · simpa [more] using mem
  have front : (command.token, command.serial) ∈ s.holders :=
    mem_holders.mpr (.inl ⟨command, .inl (queue ▸ List.mem_cons_self), rfl⟩)
  have numbered := (Shrinks.dequeue queue accepted commands responses).numbered apart.numbered
  apply apart.of_holders _ wellFormed numbered fewer
  · intro other mem inFlight
    rw [outbound] at inFlight
    rcases List.mem_append.mp inFlight with old | new
    · exact apart.unused other (fewer mem) old
    · exact alone other (commands ▸ mem) (List.mem_singleton.mp new)
  · intro holder mem
    rw [mem_holders] at mem
    rcases mem with ⟨other, queued | waits, rfl⟩ | ⟨msgid, inFlight, rfl⟩
    · exact mem_holders.mpr (.inl ⟨other, .inl (fewer queued), rfl⟩)
    · rcases among other waits with old | rfl
      · exact mem_holders.mpr (.inl ⟨other, .inr old, rfl⟩)
      · exact front
    · rw [outbound] at inFlight
      rcases List.mem_append.mp inFlight with old | new
      · have other : msgid ≠ command.token := by
          rintro rfl
          exact unused old
        rw [owner, Function.update_of_ne other]
        exact mem_holders.mpr (.inr ⟨msgid, old, rfl⟩)
      · rw [List.mem_singleton.mp new, owner, Function.update_self]
        exact front

/-- The end of `MQTTAsync_processCommand` leaves the session alone. -/
theorem published_session (s : MQTTAsyncs) (command : QueuedCommand) (qos : Nat)
    (rc : CompletionCode) :
    (s.published command qos rc).c = s.c ∧ (s.published command qos rc).owner = s.owner := by
  by_cases qos0 : qos = 0
  · cases rc <;> simp [MQTTAsyncs.published, MQTTAsyncs.call, MQTTAsyncs.awaitResponse, qos0]
  · cases rc <;> simp [MQTTAsyncs.published, MQTTAsyncs.call, MQTTAsyncs.awaitResponse, qos0]

/-- `MQTTAsync_processCommand` for a PUBLISH. -/
theorem publish (apart : s.Apart) (queue : s.commands = command :: rest)
    {message : Session.Message} (isPublish : command.request = .publish message) :
    Settles s (MQTTAsyncs.publish { s with commands := rest } command message) := by
  have valid := apart.valid command (queue ▸ List.mem_cons_self)
  have unused := apart.unused command (queue ▸ List.mem_cons_self)
  rw [isPublish] at valid
  have atMost2 : message.qos ≤ 2 := by
    have := valid.1
    simp only [Request.badQos, decide_eq_false_iff_not] at this
    omega
  unfold MQTTAsyncs.publish
  simp only
  generalize isStarted :
    MQTTProtocol.startPublish s.c (Session.publishPacket s.c.mqttVersion message
    false command.token) message.qos message.retained = started
  rcases started with ⟨rc, c⟩
  simp only
  have lists (sent : MQTTAsyncs) := Shrinks.published sent command message.qos rc
  have session (sent : MQTTAsyncs) := published_session sent command message.qos rc
  by_cases qos0 : message.qos = 0
  · have kept : c.exchange.outbound = s.c.exchange.outbound := by
      have sent := congrArg (fun started => started.2.exchange.outbound) isStarted
      simp only [MQTTProtocol.startPublish, qos0, Nat.lt_irrefl, if_false] at sent
      rw [← sent, exchange_send_publish_qos0]
      rfl
    have outbound := congrArg ids kept
    rw [ids_exchange, ids_exchange] at outbound
    refine apart.moved queue (lists _).1 (lists _).2.1 (lists _).2.2 ?_ ?_ ?_
    · rw [(session _).1]
      exact apart.wellFormed.of_outbound kept
    · rw [(session _).1]
      exact outbound
    · rw [(session _).2]
      exact if_pos qos0
  · have positive : 0 < command.token := valid.2 (by simp [Request.needsMsgId, qos0])
    have started := @exchange_startPublish s.c message command.token (Nat.pos_of_ne_zero qos0)
    simp only [isStarted] at started
    have starts : Exchange.Starts s.c.exchange message command.token c.exchange := by
      rw [started]
      exact .start positive ((ids_exchange s.c).symm ▸ unused) (by omega)
    have outbound := congrArg ids (congrArg Exchange.outbound started)
    rw [ids_exchange, Exchange.sendPublish_outbound, Exchange.start_outbound, ids_append,
      ids_exchange] at outbound
    refine apart.putInFlight queue positive (lists _).1 (lists _).2.1 (lists _).2.2 ?_ ?_ ?_
    · rw [(session _).1]
      exact Exchange.starts_wellFormed starts apart.wellFormed
    · rw [(session _).1]
      exact outbound
    · rw [(session _).2]
      exact if_neg qos0

/-- `MQTTAsync_processCommand` for SUBSCRIBE and UNSUBSCRIBE. -/
theorem subscribe (apart : s.Apart) (queue : s.commands = command :: rest) :
    Settles s (MQTTAsyncs.subscribe { s with commands := rest } command) := by
  unfold MQTTAsyncs.subscribe
  split
  · exact apart.moved queue rfl rfl (.inl rfl) apart.wellFormed rfl rfl
  · exact apart.moved queue rfl rfl (.inr rfl) apart.wellFormed rfl rfl

theorem processCommand (apart : s.Apart) : Settles s s.processCommand := by
  unfold MQTTAsyncs.processCommand
  split
  · exact apart.settled
  next command rest queue =>
    split
    · exact apart.settled
    · simp only
      split
      next message isPublish => exact apart.publish queue isPublish
      · exact apart.subscribe queue
      · exact apart.subscribe queue

/-- Whatever the client does but take requests. -/
theorem step (apart : s.Apart) {input : Input}
    (noRequest : ∀ request, input.action ≠ .request request) :
    Settles s (Responses.step s input) := by
  have provided : (provide s input).Apart :=
    ⟨apart.wellFormed, apart.numbered, apart.agree, apart.unused, apart.valid⟩
  have numbered : (Responses.step s input).Numbered := step_numbered apart.numbered input
  have settles_provided {s' : MQTTAsyncs} (settles : Settles (provide s input) s') : Settles s s' :=
    ⟨settles.apart, settles.holders⟩
  unfold Responses.step at numbered ⊢
  cases action : input.action with
  | request request => exact absurd action (noRequest request)
  | processCommand => exact settles_provided provided.processCommand
  | deleteOldest =>
      rw [action] at numbered
      apply settles_provided
      apply Recedes.settles _ provided numbered
      exact ⟨id, List.eraseP_subset, List.Subset.refl _, List.Subset.refl _, rfl⟩
  | receive packet =>
      rw [action] at numbered
      apply settles_provided
      apply Recedes.settles _ provided numbered
      simp only [act]
      split
      · exact .receive _ packet
      · exact .refl _
  | retry doRetry =>
      rw [action] at numbered
      apply settles_provided
      apply Recedes.settles _ provided numbered
      exact .resume (internal_act trivial)
  | continueWrite succeeded =>
      rw [action] at numbered
      have resumed : Recedes (provide s input) ((provide s input).resume
          (Session.act (provide s input).c (.continueWrite succeeded))) :=
        .resume (internal_act trivial)
      apply settles_provided
      apply Recedes.settles _ provided numbered
      simp only [act]
      split
      · exact resumed.trans (.writeComplete _ succeeded)
      · exact resumed
  | connectionLost =>
      rw [action] at numbered
      apply settles_provided
      apply Recedes.settles _ provided numbered
      exact .resume (internal_act trivial)
  | connect sessionPresent =>
      rw [action] at numbered
      apply settles_provided
      apply Recedes.settles _ provided numbered
      exact .resume (internal_act trivial)
  | disconnect =>
      rw [action] at numbered
      apply settles_provided
      apply Recedes.settles _ provided numbered
      apply Recedes.resume
      unfold MQTTAsync.closeSession
      simp only
      split
      · rw [exchange_cleanSession]
        exact .single (.clean _)
      · exact .refl

end MQTTAsyncs.Apart

/-- A command is added whose id, if it has one, nothing else has. -/
theorem MQTTAsyncs.Apart.addCommand (apart : s.Apart) {request : Request} {msgid : Nat}
    (valid : request.badQos = false ∧ (request.needsMsgId = true → 0 < msgid))
    (unused : msgid ≠ 0 → msgid ∉ s.usedMsgIds) : (s.addCommand request msgid).Apart where
  wellFormed := apart.wellFormed
  numbered := by
    apply GivenOut.push apart.numbered
    intro n
    simp only [MQTTAsyncs.addCommand, serials, List.map_append, List.map_cons, List.map_nil,
      List.count_append, List.count_cons, List.count_nil]
    omega
  agree := by
    have holders : ∀ holder ∈ (s.addCommand request msgid).holders,
        holder ∈ s.holders ∨ holder = (msgid, s.accepted) := by
      intro holder mem
      simp only [mem_holders, MQTTAsyncs.addCommand, List.mem_append, List.mem_singleton] at mem ⊢
      rcases mem with ⟨command, (queued | rfl) | waits, rfl⟩ | inFlight
      · exact .inl (.inl ⟨command, .inl queued, rfl⟩)
      · exact .inr rfl
      · exact .inl (.inl ⟨command, .inr waits, rfl⟩)
      · exact .inl (.inr inFlight)
    have fresh (old : Nat × Nat) (mem : old ∈ s.holders) (isId : msgid ≠ 0) : old.1 ≠ msgid := by
      rintro rfl
      exact unused isId (mem_usedMsgIds.mpr ⟨old.2, mem⟩)
    intro x memX y memY same isId
    rcases holders x memX with oldX | rfl
    · rcases holders y memY with oldY | rfl
      · exact apart.agree x oldX y oldY same isId
      · exact absurd same (fresh x oldX fun zero => isId (same.trans zero))
    · rcases holders y memY with oldY | rfl
      · exact absurd same.symm (fresh y oldY isId)
      · rfl
  unused := by
    intro command mem inFlight
    rcases List.mem_append.mp mem with queued | new
    · exact apart.unused command queued inFlight
    · rw [List.mem_singleton.mp new] at inFlight
      have isId : msgid ≠ 0 := by
        rintro rfl
        rcases List.mem_map.mp inFlight with ⟨m, mem, isZero⟩
        have positive := apart.wellFormed.positive m.untouched (List.mem_map.mpr ⟨m, mem, rfl⟩)
        exact Nat.ne_of_gt positive isZero
      apply unused isId
      exact mem_usedMsgIds.mpr ⟨s.owner msgid, mem_holders.mpr (.inr ⟨msgid, inFlight, rfl⟩)⟩
  valid := by
    intro command mem
    rcases List.mem_append.mp mem with queued | new
    · exact apart.valid command queued
    · rw [List.mem_singleton.mp new]
      exact valid

/-- The commands and responses with an id have it alone. -/
theorem Consistent.serial_eq (consistent : Consistent s) {command other : QueuedCommand}
    (mem : command ∈ s.commands ++ s.responses) (mem' : other ∈ s.commands ++ s.responses)
    (same : command.token = other.token) (isId : command.token ≠ 0) :
    command.serial = other.serial := by
  have distinct := consistent.tokens
  rw [Responses.tokens, Responses.tokens, ← List.filter_append, ← List.map_append,
    List.filter_map] at distinct
  have holds {c : QueuedCommand} (among : c ∈ s.commands ++ s.responses) (positive : c.token ≠ 0) :
      c ∈ (s.commands ++ s.responses).filter ((fun n => decide (0 < n)) ∘ QueuedCommand.token) := by
    rw [List.mem_filter]
    exact ⟨among, decide_eq_true (Nat.pos_of_ne_zero positive)⟩
  have equal := List.inj_on_of_nodup_map distinct (holds mem isId) (holds mem' (same ▸ isId)) same
  rw [equal]

theorem Consistent.apart (consistent : Consistent s) : s.Apart where
  wellFormed := consistent.wellFormed
  numbered := by
    apply consistent.succeeded.of_count
    intro n
    exact (List.sublist_append_left ..).count_le n
  agree := by
    have apart (command : QueuedCommand) (among : command ∈ s.commands ∨ command ∈ s.responses)
        (inFlight : command.token ∈ ids s.c.outboundMsgs) :
        s.owner command.token = command.serial := by
      rcases among with queued | waits
      · exact absurd inFlight (consistent.unused command queued)
      · exact (consistent.matched command waits inFlight).2
    intro x memX y memY same isId
    rcases mem_holders.mp memX with ⟨command, among, rfl⟩ | ⟨msgid, inFlight, rfl⟩
    · rcases mem_holders.mp memY with ⟨other, among', rfl⟩ | ⟨msgid, inFlight, rfl⟩
      · exact consistent.serial_eq (List.mem_append.mpr among)
          (List.mem_append.mpr among') same isId
      · simp only at same
        subst same
        exact (apart command among inFlight).symm
    · rcases mem_holders.mp memY with ⟨other, among', rfl⟩ | ⟨msgid', inFlight', rfl⟩
      · simp only at same
        subst same
        exact apart other among' inFlight
      · exact congrArg s.owner same
  unused := consistent.unused
  valid := consistent.valid

end Client

/-! ## The threads -/

namespace Callers

/-- The ids that threads wait with are in use nowhere else. -/
structure Apart (s : Callers) : Prop where
  client : s.client.Apart
  valid : ∀ thread request msgid, s.waiting thread = some (request, msgid) →
    request.badQos = false ∧ (request.needsMsgId = true → 0 < msgid)
  unused : ∀ thread request msgid, s.waiting thread = some (request, msgid) → msgid ≠ 0 →
    msgid ∉ s.client.usedMsgIds
  distinct : ∀ thread other request request' msgid, s.waiting thread = some (request, msgid) →
    s.waiting other = some (request', msgid) → msgid ≠ 0 → thread = other

variable {s : Callers}

theorem searchMsgId_nextFree {used : List Nat} {start fuel n msgid : Nat}
    (found : MQTTProtocol.searchMsgId used start fuel (MQTTProtocol.nextMsgId^[n + 1] start) =
      some msgid)
    (isId : msgid ≠ 0)
    (before : ∀ j < n, MQTTProtocol.nextMsgId^[j + 1] start ∈ used ∧
      MQTTProtocol.nextMsgId^[j + 1] start ≠ start)
    (notBack : MQTTProtocol.nextMsgId^[n + 1] start ≠ start) : NextFree used start msgid := by
  induction fuel generalizing n with
  | zero => cases found
  | succ fuel ih =>
      rw [MQTTProtocol.searchMsgId] at found
      split at found
      next taken =>
        split at found
        · exact absurd (Option.some.inj found).symm isId
        next going =>
          rw [← Function.iterate_succ_apply' MQTTProtocol.nextMsgId] at found going
          apply ih found _ going
          intro j less
          rcases Nat.lt_succ_iff_lt_or_eq.mp less with earlier | rfl
          · exact before j earlier
          · exact ⟨taken, notBack⟩
      next free =>
        injection found with same
        subst same
        exact ⟨n, rfl, free, notBack, before⟩

theorem nextMsgId_ne (start : Nat) : MQTTProtocol.nextMsgId start ≠ start := by
  unfold MQTTProtocol.nextMsgId
  split
  next last =>
    rw [last]
    decide
  · omega

/-- An id is assigned, the next free one, or none. -/
theorem assignMsgId_spec {foreign : List Nat} {client after : MQTTAsyncs} {msgid : Nat}
    (assigned : assignMsgId foreign client = some (msgid, after)) :
    msgid = 0 ∨
      (msgid ≠ 0 ∧ NextFree (client.usedMsgIds ++ foreign) client.c.msgID msgid ∧
        after = { client with c := { client.c with msgID := msgid } }) := by
  unfold assignMsgId at assigned
  split at assigned
  · cases assigned
  next found isFound =>
    injection assigned with same
    injection same with same isAfter
    subst same
    by_cases isId : found = 0
    · exact .inl isId
    · rw [if_pos isId] at isAfter
      refine .inr ⟨isId, ?_, isAfter.symm⟩
      apply @searchMsgId_nextFree _ _ (maxMsgId + 1) 0 found isFound isId
      · intro j less
        cases less
      · exact nextMsgId_ne _

/-- A thread stops waiting. -/
theorem Apart.release (apart : s.Apart) (thread : Nat) :
    Apart { s with waiting := Function.update s.waiting thread none } := by
  have kept {other : Nat} {request : Request} {msgid : Nat}
      (waits : Function.update s.waiting thread none other = some (request, msgid)) :
      s.waiting other = some (request, msgid) ∧ other ≠ thread := by
    by_cases same : other = thread
    · rw [same, Function.update_self] at waits
      cases waits
    · rw [Function.update_of_ne same] at waits
      exact ⟨waits, same⟩
  constructor
  · exact apart.client
  · exact fun other request msgid waits => apart.valid other request msgid (kept waits).1
  · exact fun other request msgid waits => apart.unused other request msgid (kept waits).1
  · intro other other' request request' msgid waits waits'
    exact apart.distinct other other' request request' msgid (kept waits).1 (kept waits').1

/-- The client goes on. -/
theorem Apart.of_client (apart : s.Apart) {client : MQTTAsyncs} (clientApart : client.Apart)
    (used : ∀ msgid ∈ client.usedMsgIds, msgid ∈ s.client.usedMsgIds) :
    Apart { s with client := client } where
  client := clientApart
  valid := apart.valid
  unused := fun thread request msgid waits isId mem =>
    apart.unused thread request msgid waits isId (used msgid mem)
  distinct := apart.distinct

/-- A thread that waited with nothing waits with an id that is its own. -/
theorem Apart.wait (apart : s.Apart) {thread : Nat} {request : Request} {msgid : Nat}
    (valid : request.badQos = false ∧ (request.needsMsgId = true → 0 < msgid))
    (unused : msgid ≠ 0 → msgid ∉ s.client.usedMsgIds)
    (own : msgid ≠ 0 → ∀ other held, s.waiting other ≠ some (held, msgid)) :
    Apart { s with waiting := Function.update s.waiting thread (some (request, msgid)) } := by
  have cases' {other : Nat} {held : Request} {id : Nat}
      (waits : Function.update s.waiting thread (some (request, msgid)) other = some (held, id)) :
      (other = thread ∧ held = request ∧ id = msgid) ∨ s.waiting other = some (held, id) := by
    by_cases same : other = thread
    · rw [same, Function.update_self] at waits
      cases waits
      exact .inl ⟨same, rfl, rfl⟩
    · rw [Function.update_of_ne same] at waits
      exact .inr waits
  constructor
  · exact apart.client
  · intro other held id waits
    rcases cases' waits with ⟨-, rfl, rfl⟩ | waits
    · exact valid
    · exact apart.valid other held id waits
  · intro other held id waits isId
    rcases cases' waits with ⟨-, rfl, rfl⟩ | waits
    · exact unused isId
    · exact apart.unused other held id waits isId
  · intro other other' held held' id waits waits' isId
    rcases cases' waits with ⟨isThread, -, rfl⟩ | old
    · rcases cases' waits' with ⟨isThread', -⟩ | old'
      · exact isThread.trans isThread'.symm
      · exact absurd old' (own isId other' held')
    · rcases cases' waits' with ⟨-, -, rfl⟩ | old'
      · exact absurd old (own isId other held)
      · exact apart.distinct other other' held held' id old old' isId

theorem Apart.step (apart : s.Apart) {event : ThreadEvent} (isProtected : Protected s event) :
    (s.step event).Apart := by
  cases event with
  | assign thread request foreign =>
      simp only [Callers.step]
      split
      · exact apart
      next idle =>
        simp only [Bool.or_eq_true, not_or, Bool.not_eq_true, Option.isSome_eq_false_iff,
          Option.isNone_iff_eq_none] at idle
        split
        next needs =>
          split
          · exact apart
          next msgid after assigned =>
            split
            · exact apart
            next isId =>
              rcases assignMsgId_spec assigned with zero | ⟨-, nextFree, rfl⟩
              · exact absurd zero isId
              · have free : msgid ∉ s.client.usedMsgIds := by
                  rcases nextFree with ⟨n, -, free, -⟩
                  exact fun mem => free (List.mem_append_left _ mem)
                have counted : Apart { s with
                    client := { s.client with c := { s.client.c with msgID := msgid } } } := by
                  apply apart.of_client
                  · exact ⟨apart.client.wellFormed, apart.client.numbered, apart.client.agree,
                      apart.client.unused, apart.client.valid⟩
                  · exact fun _ mem => mem
                apply counted.wait ⟨idle.2, fun _ => Nat.pos_of_ne_zero isId⟩
                · exact fun _ => free
                · intro _ other held waits
                  exact isProtected idle.1 idle.2 needs other held msgid waits nextFree
        next notNeeded =>
          apply apart.wait ⟨idle.2, fun needs => absurd needs notNeeded⟩
          · exact fun isId => absurd rfl isId
          · exact fun isId => absurd rfl isId
  | add thread =>
      simp only [Callers.step]
      split
      · exact apart
      next request msgid waits =>
        have added := apart.client.addCommand (apart.valid thread request msgid waits)
          (apart.unused thread request msgid waits)
        constructor
        · exact added
        · exact (apart.release thread).valid
        · intro other held id waits' isId mem
          have released := (apart.release thread).unused other held id waits' isId
          have different : other ≠ thread := by
            rintro rfl
            simp at waits'
          replace waits' : s.waiting other = some (held, id) :=
            (Function.update_of_ne different _ _).symm.trans waits'
          simp only [MQTTAsyncs.usedMsgIds, MQTTAsyncs.addCommand, List.map_append, List.map_cons,
            List.map_nil, List.mem_append, List.mem_singleton] at mem released
          rcases mem with ((queued | rfl) | inFlight) | answered
          · exact released (.inl (.inl queued))
          · exact different (apart.distinct other thread held request id waits' waits isId)
          · exact released (.inl (.inr inFlight))
          · exact released (.inr answered)
        · exact (apart.release thread).distinct
  | giveUp thread => exact apart.release thread
  | client input =>
      simp only [Callers.step]
      split
      · exact apart
      next noRequest =>
        have settles := apart.client.step noRequest
        apply apart.of_client settles.apart
        intro msgid used
        rcases mem_usedMsgIds.mp used with ⟨serial, holds⟩
        exact mem_usedMsgIds.mpr ⟨serial, settles.holders holds⟩

theorem apart_start {c : Clients} {maxInflightMessages : Nat} {restored : List (Request × Nat)}
    (isRestored : Restored c restored) : (start c maxInflightMessages restored).Apart where
  client := (isRestored.consistent maxInflightMessages).apart
  valid := fun thread request msgid waits => by cases waits
  unused := fun thread request msgid waits => by cases waits
  distinct := fun thread other request request' msgid waits => by cases waits

end Callers

end Responses

end Paho
