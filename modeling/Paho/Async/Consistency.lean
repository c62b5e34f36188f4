import Paho.Async.Responses
import Paho.Protocol.OutboundSafety
import Mathlib.Data.List.Perm.Basic

/-!
# The lists of the asynchronous client stay in step

Commands, responses and the messages in flight are three lists that are searched by id. As long
as every packet of the server is one that the client waits for, an id is used once among them, a
response whose id is in flight is the publication in flight under it, and no publication is
reported before it is over.
-/

namespace Paho

open Relation

/-- Distinct numbers below the next one to be given out. -/
structure GivenOut (next : Nat) (numbers : List Nat) : Prop where
  nodup : numbers.Nodup
  bounded : ∀ n ∈ numbers, n < next

namespace GivenOut

variable {next : Nat} {numbers others : List Nat}

/-- Numbers that are moved or dropped stay distinct. -/
theorem of_count (given : GivenOut next numbers)
    (le : ∀ n, others.count n ≤ numbers.count n) : GivenOut next others where
  nodup := by
    apply List.nodup_iff_count_le_one.mpr
    intro n
    exact (le n).trans (List.nodup_iff_count_le_one.mp given.nodup n)
  bounded := by
    intro n mem
    apply given.bounded n
    have positive := List.count_pos_iff.mpr mem
    have := le n
    exact List.count_pos_iff.mp (by omega)

/-- The next number is given out. -/
theorem push (given : GivenOut next numbers)
    (le : ∀ n, others.count n ≤ (next :: numbers).count n) :
    GivenOut (next + 1) others := by
  have pushed : GivenOut (next + 1) (next :: numbers) := by
    constructor
    · apply List.nodup_cons.mpr
      refine ⟨fun mem => ?_, given.nodup⟩
      exact absurd (given.bounded next mem) (by omega)
    · intro n mem
      rcases List.mem_cons.mp mem with rfl | old
      · omega
      · have := given.bounded n old
        omega
  exact pushed.of_count le

end GivenOut

section Lists

/-- The first element that meets a condition is detached. -/
theorem perm_detached {α : Type} {condition : α → Bool} {list : List α} {first : α}
    (found : list.find? condition = some first) :
    list.Perm (first :: list.eraseP condition) := by
  rcases List.find?_eq_some_iff_append.mp found with ⟨holds, before, after, rfl, others⟩
  rw [List.eraseP_append_right _ (by simpa using others), List.eraseP_cons_of_pos holds]
  exact List.perm_middle

theorem ids_perm_removeMessage {messages : List Messages} {msgid : Nat}
    (mem : msgid ∈ ids messages) :
    (ids messages).Perm (msgid :: ids (removeMessage messages msgid)) := by
  cases found : findMessage messages msgid with
  | none => exact absurd mem (findMessage_eq_none.mp found)
  | some m =>
      have detached := (perm_detached found).map Messages.msgid
      rw [List.map_cons, (findMessage_mem found).2] at detached
      exact detached

end Lists

namespace Exchange

/-- Of its own accord the session puts no message in flight. -/
theorem internals_outbound {e e' : Exchange} (internals : ReflTransGen Internal e e') :
    e'.outbound = e.outbound ∨ e'.outbound = [] := by
  induction internals with
  | refl => exact .inl rfl
  | tail _ internal ih =>
      have step {before after : Exchange} (internal : Internal before after) :
          after.outbound = before.outbound ∨ after.outbound = [] := by
        cases internal with
        | clean => exact .inr rfl
        | retryPubrel => exact .inl (sendAck_outbound ..)
        | sendQueued => exact .inl (sendAck_outbound ..)
        | _ => exact .inl rfl
      rcases step internal with same | cleaned
      · rw [same]
        exact ih
      · exact .inr cleaned

end Exchange

section Receiving

variable {c : Clients}

theorem acknowledge_outboundMsgs (mqttVersion : Nat) (type : PacketType) (msgId : Nat) :
    (MQTTProtocol.acknowledge c mqttVersion type msgId).2.outboundMsgs = c.outboundMsgs := by
  unfold MQTTProtocol.acknowledge
  split
  · unfold MQTTPacket.send_ack MQTTPacket.write
    dsimp only
    split
    · unfold MQTTPersistence.putPacket
      split
      · split <;> rfl
      · rfl
    · rfl
  · rfl

@[simp]
theorem remove_outboundMsgs (type : Stem) (msgId : Nat) :
    (MQTTPersistence.remove c type msgId).outboundMsgs = c.outboundMsgs :=
  rfl

/-- The ids in flight after an acknowledgement: its own is gone when it ends an exchange. -/
theorem ids_receive {packet : Session.Packet}
    (outbound : (∃ id, packet = .puback id) ∨ (∃ id rc, packet = .pubrec id rc) ∨
      ∃ id, packet = .pubcomp id) :
    ids (Session.receive c packet).outboundMsgs =
      match MQTTAsyncs.ends c.mqttVersion c.outboundMsgs packet with
      | some msgId => ids (removeMessage c.outboundMsgs msgId)
      | none => ids c.outboundMsgs := by
  rcases outbound with ⟨id, rfl⟩ | ⟨id, rc, rfl⟩ | ⟨id, rfl⟩
  · simp only [Session.receive, MQTTProtocol.handlePubacks, MQTTAsyncs.ends, Clients.log]
    cases findMessage c.outboundMsgs id with
    | none => rfl
    | some m => by_cases one : m.qos = 1 <;> simp [one]
  · simp only [Session.receive, MQTTProtocol.handlePubrecs, MQTTAsyncs.ends, Clients.log]
    cases findMessage c.outboundMsgs id with
    | none => simp [acknowledge_outboundMsgs]
    | some m =>
        by_cases two : m.qos = 2
        · by_cases awaits : m.nextMessageType = some .pubrec
          · by_cases error : mqttVersion5 ≤ c.mqttVersion ∧ reasonCodeUnspecifiedError ≤ rc
            · simp [two, awaits, error]
            · simp only [two, awaits, error, ne_eq, not_true, if_false, and_false,
                acknowledge_outboundMsgs]
              exact ids_updateMessage fun _ same => same
          · simp [two, awaits, acknowledge_outboundMsgs]
        · simp [two, acknowledge_outboundMsgs]
  · simp only [Session.receive, MQTTProtocol.handlePubcomps, MQTTAsyncs.ends, Clients.log]
    cases findMessage c.outboundMsgs id with
    | none => rfl
    | some m =>
        by_cases two : m.qos = 2
        · by_cases awaits : m.nextMessageType = some .pubcomp <;> simp [two, awaits]
        · simp [two]

/-- The packets for inbound messages leave the messages in flight as they are. -/
theorem outbound_receive_inbound {packet : Session.Packet}
    (inbound : (∃ dup message id, packet = .publish dup message id) ∨ ∃ id, packet = .pubrel id) :
    ids (Session.receive c packet).outboundMsgs = ids c.outboundMsgs := by
  have same (c : Clients) : ids c.exchange.outbound = ids c.outboundMsgs := ids_map_untouched
  have handles := handles_receive (c := c) packet
  rw [← same, ← same]
  generalize (Session.receive c packet).exchange = after at handles ⊢
  apply congrArg ids
  rcases inbound with ⟨dup, message, id, rfl⟩ | ⟨id, rfl⟩
  · cases handles with
    | publish0 => rfl
    | publish1 _ acknowledges => exact acknowledges.outbound
    | publishDelivered _ _ _ acknowledges =>
        exact acknowledges.outbound.trans (Exchange.storeInbound_outbound ..)
    | publishKept _ _ acknowledges =>
        exact acknowledges.outbound.trans (Exchange.storeInbound_outbound ..)
    | publishOther => rfl
  · cases handles with
    | pubrelUnexpected _ acknowledges => exact acknowledges.outbound
    | pubrel _ _ acknowledges =>
        refine acknowledges.outbound.trans ?_
        split <;> rfl

end Receiving

namespace Responses

/-- What calls the callback of a command concerns that command. A publication of QoS 1 or 2 is
acknowledged when the handler of the packet has taken its message off `outboundMsgs`; SUBACK and
UNSUBACK answer a command of their kind with their id. -/
def Cause.Concerns (command : QueuedCommand) : Cause → Prop
  | .written => command.request.needsMsgId = false
  | .acknowledged removed => command.request.isPublish = true ∧ removed = some command.serial
  | .suback msgId => command.request = .subscribe ∧ command.token = msgId
  | .unsuback msgId => command.request = .unsubscribe ∧ command.token = msgId
  | .abandoned => True

/-- A callback reports what happened. -/
def Callback.Truthful : Callback → Prop
  | .deliveryComplete _ removed => removed.isSome = true
  | .onSuccess command cause => cause ≠ .abandoned ∧ cause.Concerns command
  | .onFailure command cause => cause ≠ .written ∧ cause.Concerns command

instance (command : QueuedCommand) (cause : Cause) : Decidable (cause.Concerns command) :=
  match cause with
  | .written => inferInstanceAs (Decidable (_ = _))
  | .acknowledged _ | .suback _ | .unsuback _ => inferInstanceAs (Decidable (_ ∧ _))
  | .abandoned => inferInstanceAs (Decidable True)

instance (callback : Callback) : Decidable callback.Truthful :=
  match callback with
  | .deliveryComplete _ _ => inferInstanceAs (Decidable (_ = _))
  | .onSuccess _ _ | .onFailure _ _ => inferInstanceAs (Decidable (_ ∧ _))

/-- The publication of which a callback reports that the delivery is complete. -/
def Callback.delivered : Callback → Option Nat
  | .deliveryComplete _ removed => removed
  | _ => none

/-- The publication whose `onSuccess` a callback is. -/
def Callback.succeeded : Callback → Option Nat
  | .onSuccess command _ => if command.request.isPublish then some command.serial else none
  | _ => none

/-- All callbacks are truthful, and each publication is reported at most once by each kind. -/
def Truthful (callbacks : List Callback) : Prop :=
  (∀ callback ∈ callbacks, callback.Truthful) ∧
    (callbacks.filterMap Callback.delivered).Nodup ∧
    (callbacks.filterMap Callback.succeeded).Nodup

instance (callbacks : List Callback) : Decidable (Truthful callbacks) :=
  inferInstanceAs (Decidable (_ ∧ _ ∧ _))

/-- The acknowledgement that a packet is for the session, when `MQTTAsync_cycle` calls callbacks
for it. -/
def Packet.completes (mqttVersion : Nat) : Packet → Option Session.Packet
  | .puback msgId _ => some (.puback msgId)
  | .pubcomp msgId _ => some (.pubcomp msgId)
  | .pubrec msgId rc =>
      if mqttVersion5 ≤ mqttVersion ∧ reasonCodeUnspecifiedError ≤ rc then some (.pubrec msgId rc)
      else none
  | _ => none

/-- The packet is one that the client waits for: an acknowledgement that reaches the callbacks
ends the exchange of a message, and SUBACK and UNSUBACK find no command of another kind under
their id. -/
def Expected (s : MQTTAsyncs) : Packet → Prop
  | .suback msgId _ =>
      ∀ command, s.responses.find? (·.token == msgId) = some command →
        command.request = .subscribe
  | .unsuback msgId =>
      ∀ command, s.responses.find? (·.token == msgId) = some command →
        command.request = .unsubscribe
  | packet =>
      ∀ ack, packet.completes s.c.mqttVersion = some ack →
        (Paho.MQTTAsyncs.ends s.c.mqttVersion s.c.outboundMsgs ack).isSome = true

/-- The condition on a step: the packet that arrives, if any, is expected. -/
def Meets (s : MQTTAsyncs) (input : Input) : Prop :=
  ∀ packet, input.action = .receive packet → s.c.connected = true → Expected s packet

/-- What the process restores: no id occurs twice, and the commands are such as
`MQTTAsync_send` accepts. -/
structure Restored (c : Clients) (commands : List (Request × Nat)) : Prop where
  wellFormed : c.exchange.OutboundWellFormed
  tokens : ((commands.map Prod.snd).filter (0 < ·)).Nodup
  unused : ∀ command ∈ commands, command.2 ∉ ids c.outboundMsgs
  qos : ∀ command ∈ commands, command.1.badQos = false
  positive : ∀ command ∈ commands, command.1.needsMsgId = true → 0 < command.2

/-- The numbers of the publications in flight. -/
def MQTTAsyncs.owners (s : MQTTAsyncs) : List Nat :=
  (ids s.c.outboundMsgs).map s.owner

/-- The numbers of some commands. -/
def serials (commands : List QueuedCommand) : List Nat :=
  commands.map QueuedCommand.serial

/-- The ids of some commands. -/
def tokens (commands : List QueuedCommand) : List Nat :=
  (commands.map QueuedCommand.token).filter (0 < ·)

/-- The lists of the client are in step: an id is used once among commands and responses, a
response whose id is in flight is the publication that is in flight under it, and no publication
is reported before it is over. -/
structure Consistent (s : MQTTAsyncs) : Prop where
  wellFormed : s.c.exchange.OutboundWellFormed
  tokens : (tokens s.commands ++ tokens s.responses).Nodup
  unused : ∀ command ∈ s.commands, command.token ∉ ids s.c.outboundMsgs
  valid : ∀ command ∈ s.commands, command.request.badQos = false ∧
    (command.request.needsMsgId = true → 0 < command.token)
  matched : ∀ command ∈ s.responses, command.token ∈ ids s.c.outboundMsgs →
    command.request.isPublish = true ∧ s.owner command.token = command.serial
  succeeded : GivenOut s.accepted (serials s.commands ++ serials s.responses ++
    s.callbacks.filterMap Callback.succeeded)
  delivered : GivenOut s.accepted (serials s.commands ++ s.owners ++
    s.callbacks.filterMap Callback.delivered)
  truthful : ∀ callback ∈ s.callbacks, callback.Truthful

namespace Consistent

variable {s : MQTTAsyncs}

theorem isTruthful (consistent : Consistent s) : Truthful s.callbacks := by
  refine ⟨consistent.truthful, ?_, ?_⟩
  · exact (List.nodup_append.mp consistent.delivered.nodup).2.1
  · exact (List.nodup_append.mp consistent.succeeded.nodup).2.1

/-- The session goes on without new messages in flight. -/
theorem of_session (consistent : Consistent s) {c : Clients}
    (wellFormed : c.exchange.OutboundWellFormed)
    (sublist : (ids c.outboundMsgs).Sublist (ids s.c.outboundMsgs)) :
    Consistent { s with c := c } where
  wellFormed := wellFormed
  tokens := consistent.tokens
  unused := fun command mem inFlight => consistent.unused command mem (sublist.subset inFlight)
  valid := consistent.valid
  matched := fun command mem inFlight =>
    consistent.matched command mem (sublist.subset inFlight)
  succeeded := consistent.succeeded
  delivered := by
    apply consistent.delivered.of_count
    intro n
    have fewer := (sublist.map s.owner).count_le n
    simp only [MQTTAsyncs.owners, List.count_append] at fewer ⊢
    omega
  truthful := consistent.truthful

/-- Commands that are given up count as no completion. -/
theorem freeResponses_reports (s : MQTTAsyncs) :
    s.freeResponses.callbacks.filterMap Callback.succeeded =
        s.callbacks.filterMap Callback.succeeded ∧
      s.freeResponses.callbacks.filterMap Callback.delivered =
        s.callbacks.filterMap Callback.delivered := by
  have succeeded : (s.responses.map (Callback.onFailure · .abandoned)).filterMap
      Callback.succeeded = [] := by
    simp [List.filterMap_eq_nil_iff, Callback.succeeded]
  have delivered : (s.responses.map (Callback.onFailure · .abandoned)).filterMap
      Callback.delivered = [] := by
    simp [List.filterMap_eq_nil_iff, Callback.delivered]
  constructor
  · rw [MQTTAsyncs.freeResponses, List.filterMap_append, List.filterMap_reverse, succeeded]
    rfl
  · rw [MQTTAsyncs.freeResponses, List.filterMap_append, List.filterMap_reverse, delivered]
    rfl

theorem freeResponses (consistent : Consistent s) : Consistent s.freeResponses where
  wellFormed := consistent.wellFormed
  tokens := by
    have := (List.nodup_append.mp consistent.tokens).1
    simpa [MQTTAsyncs.freeResponses, Responses.tokens] using this
  unused := consistent.unused
  valid := consistent.valid
  matched := by simp [MQTTAsyncs.freeResponses]
  succeeded := by
    apply consistent.succeeded.of_count
    intro n
    rw [(freeResponses_reports s).1]
    simp [MQTTAsyncs.freeResponses, serials, List.count_append]
  delivered := by
    apply consistent.delivered.of_count
    intro n
    rw [(freeResponses_reports s).2]
    exact Nat.le_refl _
  truthful := by
    intro callback mem
    simp only [MQTTAsyncs.freeResponses, List.mem_append, List.mem_reverse, List.mem_map] at mem
    rcases mem with ⟨command, _, rfl⟩ | old
    · exact ⟨by simp, trivial⟩
    · exact consistent.truthful callback old

theorem resume (consistent : Consistent s) {c : Clients}
    (internals : ReflTransGen Exchange.Internal s.c.exchange c.exchange) :
    Consistent (s.resume c) := by
  have wellFormed := Exchange.internals_wellFormed internals consistent.wellFormed
  have sublist : (ids c.outboundMsgs).Sublist (ids s.c.outboundMsgs) := by
    have outbound := Exchange.internals_outbound internals
    have same (c : Clients) : ids c.exchange.outbound = ids c.outboundMsgs :=
      ids_map_untouched
    rw [← same c, ← same s.c]
    rcases outbound with kept | cleaned
    · rw [kept]
    · rw [cleaned]
      exact List.nil_sublist _
  unfold MQTTAsyncs.resume
  split
  · exact consistent.freeResponses.of_session wellFormed sublist
  · exact consistent.of_session wellFormed sublist

/-- A callback that is no report of a publication. -/
theorem call (consistent : Consistent s) {callback : Callback} (truthful : callback.Truthful)
    (notSucceeded : callback.succeeded = none) (notDelivered : callback.delivered = none) :
    Consistent (s.call callback) where
  wellFormed := consistent.wellFormed
  tokens := consistent.tokens
  unused := consistent.unused
  valid := consistent.valid
  matched := consistent.matched
  succeeded := by
    have succeeded := consistent.succeeded
    simpa [MQTTAsyncs.call, notSucceeded] using succeeded
  delivered := by
    have delivered := consistent.delivered
    simpa [MQTTAsyncs.call, MQTTAsyncs.owners, notDelivered] using delivered
  truthful := by
    intro other mem
    rcases List.mem_cons.mp mem with rfl | old
    · exact truthful
    · exact consistent.truthful other old

/-- A command leaves the queue. -/
theorem dequeue (consistent : Consistent s) {commands : List QueuedCommand}
    (sublist : commands.Sublist s.commands) : Consistent { s with commands := commands } where
  wellFormed := consistent.wellFormed
  tokens := by
    have fewer : (Responses.tokens commands).Sublist (Responses.tokens s.commands) :=
      (sublist.map _).filter _
    exact (fewer.append_right _).nodup consistent.tokens
  unused := fun command mem => consistent.unused command (sublist.subset mem)
  valid := fun command mem => consistent.valid command (sublist.subset mem)
  matched := consistent.matched
  succeeded := by
    apply consistent.succeeded.of_count
    intro n
    have fewer := (sublist.map QueuedCommand.serial).count_le n
    simp only [serials, List.count_append] at fewer ⊢
    omega
  delivered := by
    apply consistent.delivered.of_count
    intro n
    have fewer := (sublist.map QueuedCommand.serial).count_le n
    simp only [serials, MQTTAsyncs.owners, List.count_append] at fewer ⊢
    omega
  truthful := consistent.truthful

/-- A command is added to the queue. -/
theorem addCommand (consistent : Consistent s) {request : Request} {token : Nat}
    (valid : request.badQos = false ∧ (request.needsMsgId = true → 0 < token))
    (unused : token = 0 ∨ token ∉ s.usedMsgIds) : Consistent (s.addCommand request token) where
  wellFormed := consistent.wellFormed
  tokens := by
    have tokens := consistent.tokens
    rcases unused with rfl | unused
    · simpa [MQTTAsyncs.addCommand, Responses.tokens] using tokens
    · simp only [MQTTAsyncs.usedMsgIds, List.mem_append, not_or] at unused
      apply List.nodup_iff_count_le_one.mpr
      intro n
      have atMostOne := List.nodup_iff_count_le_one.mp tokens n
      have absent : token ∉ Responses.tokens s.commands ++ Responses.tokens s.responses := by
        simp only [Responses.tokens, List.mem_append, List.mem_filter, not_or]
        exact ⟨fun mem => unused.1.1 mem.1, fun mem => unused.2 mem.1⟩
      by_cases same : n = token
      · subst same
        have zero := List.count_eq_zero.mpr absent
        have single : List.count n (Responses.tokens [⟨request, n, s.accepted⟩]) ≤ 1 := by
          apply List.nodup_iff_count_le_one.mp
          exact (List.nodup_singleton n).filter _
        simp only [MQTTAsyncs.addCommand, Responses.tokens, List.map_append, List.filter_append,
          List.count_append] at zero single ⊢
        omega
      · have other : List.count n (Responses.tokens [⟨request, token, s.accepted⟩]) = 0 := by
          apply List.count_eq_zero.mpr
          intro mem
          simp only [Responses.tokens, List.map_cons, List.map_nil, List.mem_filter,
            List.mem_singleton] at mem
          exact same mem.1
        simp only [MQTTAsyncs.addCommand, Responses.tokens, List.map_append, List.filter_append,
          List.count_append] at atMostOne other ⊢
        omega
  unused := by
    intro command mem
    rcases List.mem_append.mp mem with old | new
    · exact consistent.unused command old
    · have same := List.mem_singleton.mp new
      subst same
      rcases unused with rfl | unused
      · intro inFlight
        rcases mem_ids.mp inFlight with ⟨m, isMem, zero⟩
        have positive := consistent.wellFormed.positive m.untouched (List.mem_map_of_mem isMem)
        exact absurd zero (Nat.pos_iff_ne_zero.mp positive)
      · simp only [MQTTAsyncs.usedMsgIds, List.mem_append, not_or] at unused
        exact unused.1.2
  valid := by
    intro command mem
    rcases List.mem_append.mp mem with old | new
    · exact consistent.valid command old
    · exact List.mem_singleton.mp new ▸ valid
  matched := consistent.matched
  succeeded := by
    apply consistent.succeeded.push
    intro n
    simp only [MQTTAsyncs.addCommand, serials, List.map_append, List.map_cons, List.map_nil,
      List.count_append, List.count_cons, List.count_nil]
    omega
  delivered := by
    apply consistent.delivered.push
    intro n
    simp only [MQTTAsyncs.addCommand, serials, MQTTAsyncs.owners, List.map_append, List.map_cons,
      List.map_nil, List.count_append, List.count_cons, List.count_nil]
    omega
  truthful := consistent.truthful

/-- An assigned id is 0 or used by no command, message or response. -/
theorem assignMsgId_spec {msgid : Nat} {after : MQTTAsyncs}
    (assigned : s.assignMsgId = some (msgid, after)) :
    (msgid = 0 ∧ after = s) ∨
      (0 < msgid ∧ msgid ∉ s.usedMsgIds ∧ after = { s with c := { s.c with msgID := msgid } }) := by
  unfold MQTTAsyncs.assignMsgId at assigned
  cases found : MQTTProtocol.searchMsgId s.usedMsgIds s.c.msgID (maxMsgId + 1)
      (MQTTProtocol.nextMsgId s.c.msgID) with
  | none => simp [found] at assigned
  | some result =>
      simp only [found, Option.some.injEq, Prod.mk.injEq] at assigned
      rcases assigned with ⟨rfl, rfl⟩
      rcases searchMsgId_spec (nextMsgId_pos _) found with rfl | unused
      · exact .inl ⟨rfl, rfl⟩
      · exact .inr ⟨unused.1, unused.2, if_pos (Nat.pos_iff_ne_zero.mp unused.1)⟩

/-- A request of the application. -/
theorem request (consistent : Consistent s) (request : Request) :
    Consistent (s.request request) := by
  unfold MQTTAsyncs.request
  split
  · exact consistent
  next qos =>
    have validQos : request.badQos = false := Bool.eq_false_iff.mpr qos
    split
    · split
      · exact consistent
      next msgid after assigned =>
        rcases assignMsgId_spec assigned with ⟨rfl, rfl⟩ | ⟨positive, unused, rfl⟩
        · exact consistent
        · rw [if_neg (Nat.pos_iff_ne_zero.mp positive)]
          have moved : Consistent { s with c := { s.c with msgID := msgid } } :=
            consistent.of_session consistent.wellFormed (List.Sublist.refl _)
          exact moved.addCommand ⟨validQos, fun _ => positive⟩ (.inr unused)
    next noId =>
      exact consistent.addCommand ⟨validQos, fun needed => absurd needed noId⟩ (.inl rfl)

/-- A command that has left the queue is in no list of the client. -/
structure Taken (s : MQTTAsyncs) (command : QueuedCommand) : Prop where
  tokens : (Responses.tokens (command :: s.commands) ++ Responses.tokens s.responses).Nodup
  succeeded : GivenOut s.accepted (command.serial :: (serials s.commands ++
    serials s.responses ++ s.callbacks.filterMap Callback.succeeded))

theorem taken (consistent : Consistent s) {command : QueuedCommand} {rest : List QueuedCommand}
    (queue : s.commands = command :: rest) : Taken { s with commands := rest } command where
  tokens := queue ▸ consistent.tokens
  succeeded := by
    have succeeded := consistent.succeeded
    rw [queue] at succeeded
    exact succeeded

/-- The command waits for its response. -/
theorem awaitResponse (consistent : Consistent s) {command : QueuedCommand}
    (taken : Taken s command)
    (matched : command.token ∈ ids s.c.outboundMsgs →
      command.request.isPublish = true ∧ s.owner command.token = command.serial) :
    Consistent (s.awaitResponse command) where
  wellFormed := consistent.wellFormed
  tokens := by
    apply List.nodup_iff_count_le_one.mpr
    intro n
    have atMostOne := List.nodup_iff_count_le_one.mp taken.tokens n
    have split : Responses.tokens (command :: s.commands) =
        Responses.tokens [command] ++ Responses.tokens s.commands := by
      rw [← List.singleton_append]
      simp only [Responses.tokens, List.map_append, List.filter_append]
    rw [split] at atMostOne
    simp only [MQTTAsyncs.awaitResponse, Responses.tokens, List.map_append, List.filter_append,
      List.count_append] at atMostOne ⊢
    omega
  unused := consistent.unused
  valid := consistent.valid
  matched := by
    intro other mem
    rcases List.mem_append.mp mem with old | new
    · exact consistent.matched other old
    · exact List.mem_singleton.mp new ▸ matched
  succeeded := by
    apply taken.succeeded.of_count
    intro n
    simp only [MQTTAsyncs.awaitResponse, serials, List.map_append, List.map_cons, List.map_nil,
      List.count_append, List.count_cons, List.count_nil]
    omega
  delivered := consistent.delivered
  truthful := consistent.truthful

/-- A callback of a command that is in no list of the client any more. -/
theorem report (consistent : Consistent s) {command : QueuedCommand}
    (given : GivenOut s.accepted (command.serial :: (serials s.commands ++
      serials s.responses ++ s.callbacks.filterMap Callback.succeeded)))
    {callback : Callback} (truthful : callback.Truthful) (notDelivered : callback.delivered = none)
    (succeeds : ∀ n ∈ callback.succeeded, n = command.serial) :
    Consistent (s.call callback) where
  wellFormed := consistent.wellFormed
  tokens := consistent.tokens
  unused := consistent.unused
  valid := consistent.valid
  matched := consistent.matched
  succeeded := by
    apply given.of_count
    intro n
    cases report : callback.succeeded with
    | none =>
        simp only [MQTTAsyncs.call, report, List.filterMap_cons_none, List.count_append,
          List.count_cons]
        omega
    | some serial =>
        have same := succeeds serial report
        subst same
        simp only [MQTTAsyncs.call, List.filterMap_cons_some report, List.count_append,
          List.count_cons]
        omega
  delivered := by
    have delivered := consistent.delivered
    simpa [MQTTAsyncs.call, MQTTAsyncs.owners, notDelivered] using delivered
  truthful := by
    intro other mem
    rcases List.mem_cons.mp mem with rfl | old
    · exact truthful
    · exact consistent.truthful other old

/-- A publication of QoS 1 or 2 is put in flight. -/
theorem putInFlight (consistent : Consistent s) {command : QueuedCommand}
    {rest : List QueuedCommand} (queue : s.commands = command :: rest)
    (positive : 0 < command.token) {c : Clients} (wellFormed : c.exchange.OutboundWellFormed)
    (outbound : ids c.outboundMsgs = ids s.c.outboundMsgs ++ [command.token]) :
    Consistent { s with
      commands := rest
      c := c
      owner := Function.update s.owner command.token command.serial } := by
  have unused : command.token ∉ ids s.c.outboundMsgs :=
    consistent.unused command (queue ▸ List.mem_cons_self)
  have mine : command.token ∈ Responses.tokens (command :: rest) := by
    simp [Responses.tokens, positive]
  have alone := List.nodup_append.mp (queue ▸ consistent.tokens)
  have fresh : ∀ other ∈ s.responses, other.token ≠ command.token := by
    intro other mem same
    have theirs : other.token ∈ Responses.tokens s.responses := by
      simp only [Responses.tokens, List.mem_filter, List.mem_map, decide_eq_true_eq]
      exact ⟨⟨other, mem, rfl⟩, same ▸ positive⟩
    exact alone.2.2 _ mine _ theirs same.symm
  have distinct : ∀ other ∈ rest, other.token ≠ command.token := by
    intro other mem same
    have split : Responses.tokens (command :: rest) = command.token :: Responses.tokens rest := by
      simp [Responses.tokens, positive]
    have head := List.nodup_cons.mp (split ▸ alone.1)
    apply head.1
    simp only [Responses.tokens, List.mem_filter, List.mem_map, decide_eq_true_eq]
    exact ⟨⟨other, mem, same⟩, positive⟩
  have dequeued : Consistent { s with commands := rest } :=
    consistent.dequeue (queue ▸ List.sublist_cons_self command rest)
  constructor
  · exact wellFormed
  · exact dequeued.tokens
  · intro other mem inFlight
    change other.token ∈ ids c.outboundMsgs at inFlight
    rw [outbound] at inFlight
    rcases List.mem_append.mp inFlight with old | new
    · exact dequeued.unused other mem old
    · exact distinct other mem (List.mem_singleton.mp new)
  · exact dequeued.valid
  · intro other mem inFlight
    change other.token ∈ ids c.outboundMsgs at inFlight
    rw [outbound] at inFlight
    rcases List.mem_append.mp inFlight with old | new
    · have matched := dequeued.matched other mem old
      refine ⟨matched.1, ?_⟩
      exact (Function.update_of_ne (fresh other mem) _ _).trans matched.2
    · exact absurd (List.mem_singleton.mp new) (fresh other mem)
  · exact dequeued.succeeded
  · have delivered := consistent.delivered
    rw [queue] at delivered
    apply delivered.of_count
    intro n
    have kept : (ids s.c.outboundMsgs).map (Function.update s.owner command.token command.serial) =
        (ids s.c.outboundMsgs).map s.owner := by
      apply List.map_congr_left
      intro id mem
      apply Function.update_of_ne
      rintro rfl
      exact unused mem
    simp only [MQTTAsyncs.owners, outbound, List.map_append, kept, serials, List.map_cons,
      List.map_nil, Function.update_self, List.count_append, List.count_cons, List.count_nil]
    omega
  · exact dequeued.truthful

/-- `pending_write` decides only when the callback of a publication of QoS 0 is called. -/
theorem pending (consistent : Consistent s) (pendingWrite : Option Nat) :
    Consistent { s with pendingWrite := pendingWrite } :=
  ⟨consistent.wellFormed, consistent.tokens, consistent.unused, consistent.valid,
    consistent.matched, consistent.succeeded, consistent.delivered, consistent.truthful⟩

/-- What `MQTTAsync_processCommand` makes of a publication that is sent. -/
theorem published (consistent : Consistent s) {command : QueuedCommand} (taken : Taken s command)
    {message : Session.Message} (isPublish : command.request = .publish message)
    (matched : command.token ∈ ids s.c.outboundMsgs → s.owner command.token = command.serial)
    (rc : CompletionCode) : Consistent (s.published command message.qos rc) := by
  have publishes : command.request.isPublish = true := by rw [isPublish]; rfl
  have matched' : command.token ∈ ids s.c.outboundMsgs →
      command.request.isPublish = true ∧ s.owner command.token = command.serial :=
    fun inFlight => ⟨publishes, matched inFlight⟩
  by_cases qos0 : message.qos = 0
  · have noId : command.request.needsMsgId = false := by
      rw [isPublish]
      simp [Request.needsMsgId, qos0]
    have waiting := consistent.pending (some command.serial)
    cases rc with
    | complete =>
        simp only [MQTTAsyncs.published, qos0, if_true]
        have truthful : (Callback.onSuccess command .written).Truthful := ⟨by simp, noId⟩
        apply consistent.report taken.succeeded truthful rfl
        simp [Callback.succeeded]
    | interrupted =>
        simp only [MQTTAsyncs.published, qos0, if_true]
        exact waiting.awaitResponse ⟨taken.tokens, taken.succeeded⟩ matched'
    | socketError =>
        simp only [MQTTAsyncs.published, qos0, if_true]
        have truthful : (Callback.onFailure command .abandoned).Truthful := ⟨by simp, trivial⟩
        exact waiting.call truthful rfl rfl
  · cases rc with
    | complete =>
        simp only [MQTTAsyncs.published, qos0, if_false]
        exact consistent.awaitResponse taken matched'
    | interrupted =>
        simp only [MQTTAsyncs.published, qos0, if_false]
        exact consistent.awaitResponse taken matched'
    | socketError =>
        simp only [MQTTAsyncs.published, qos0, if_false]
        have truthful : (Callback.onFailure command .abandoned).Truthful := ⟨by simp, trivial⟩
        exact consistent.call truthful rfl rfl

/-- `MQTTAsync_processCommand` for a PUBLISH. -/
theorem publish (consistent : Consistent s) {command : QueuedCommand} {rest : List QueuedCommand}
    (queue : s.commands = command :: rest) {message : Session.Message}
    (isPublish : command.request = .publish message) :
    Consistent (MQTTAsyncs.publish { s with commands := rest } command message) := by
  have taken := consistent.taken queue
  have valid := consistent.valid command (queue ▸ List.mem_cons_self)
  have unused := consistent.unused command (queue ▸ List.mem_cons_self)
  rw [isPublish] at valid
  have atMost2 : message.qos ≤ 2 := by
    have := valid.1
    simp only [Request.badQos, decide_eq_false_iff_not] at this
    omega
  have same (c : Clients) : ids c.exchange.outbound = ids c.outboundMsgs := ids_map_untouched
  unfold MQTTAsyncs.publish
  dsimp only
  by_cases qos0 : message.qos = 0
  · rw [if_pos qos0]
    have startedIds : (MQTTProtocol.startPublish s.c
        (Session.publishPacket s.c.mqttVersion message false command.token) message.qos
        message.retained).2.exchange.outbound = s.c.exchange.outbound := by
      simp only [MQTTProtocol.startPublish, qos0, Nat.lt_irrefl, if_false]
      rw [exchange_send_publish_qos0]
      rfl
    have keptIds := congrArg ids startedIds
    rw [same, same] at keptIds
    have dequeued : Consistent { s with commands := rest } :=
      consistent.dequeue (queue ▸ List.sublist_cons_self command rest)
    have written := dequeued.of_session (consistent.wellFormed.of_outbound startedIds)
      (keptIds ▸ List.Sublist.refl _)
    exact written.published ⟨taken.tokens, taken.succeeded⟩ isPublish
      (fun inFlight => absurd (keptIds ▸ inFlight) unused) _
  · rw [if_neg qos0]
    have positive : 0 < command.token := valid.2 (by simp [Request.needsMsgId, qos0])
    have started := @exchange_startPublish s.c message command.token (Nat.pos_of_ne_zero qos0)
    dsimp only at started
    have starts : Exchange.Starts s.c.exchange message command.token
        (MQTTProtocol.startPublish s.c
          (Session.publishPacket s.c.mqttVersion message false command.token) message.qos
          message.retained).2.exchange := by
      rw [started]
      exact .start positive ((same s.c).symm ▸ unused) (by omega)
    have wellFormed := Exchange.starts_wellFormed starts consistent.wellFormed
    have outbound := congrArg ids (congrArg Exchange.outbound started)
    rw [same, Exchange.sendPublish_outbound, Exchange.start_outbound, ids_append, same] at outbound
    have inFlight := consistent.putInFlight queue positive wellFormed outbound
    refine inFlight.published ⟨taken.tokens, taken.succeeded⟩ isPublish (fun _ => ?_) _
    exact Function.update_self ..

/-- `MQTTAsync_processCommand` for SUBSCRIBE and UNSUBSCRIBE. -/
theorem subscribe (consistent : Consistent s) {command : QueuedCommand}
    {rest : List QueuedCommand} (queue : s.commands = command :: rest) :
    Consistent (MQTTAsyncs.subscribe { s with commands := rest } command) := by
  have taken := consistent.taken queue
  have unused := consistent.unused command (queue ▸ List.mem_cons_self)
  have dequeued : Consistent { s with commands := rest } :=
    consistent.dequeue (queue ▸ List.sublist_cons_self command rest)
  have written (net : NetworkHandles) : Consistent { s with
      commands := rest
      c := { s.c with net := net } } :=
    dequeued.of_session consistent.wellFormed (List.Sublist.refl _)
  unfold MQTTAsyncs.subscribe
  split
  next net _ =>
    have truthful : (Callback.onFailure command .abandoned).Truthful := ⟨by simp, trivial⟩
    exact (written net).call truthful rfl rfl
  next net _ _ =>
    exact (written net).awaitResponse ⟨taken.tokens, taken.succeeded⟩
      fun inFlight => absurd inFlight unused

theorem processCommand (consistent : Consistent s) : Consistent s.processCommand := by
  unfold MQTTAsyncs.processCommand
  split
  · exact consistent
  next command rest queue =>
    split
    · exact consistent
    · dsimp only
      split
      next message isPublish => exact consistent.publish queue isPublish
      · exact consistent.subscribe queue
      · exact consistent.subscribe queue

/-- A command leaves `responses`. -/
theorem detach (consistent : Consistent s) {command : QueuedCommand}
    {rest : List QueuedCommand} (perm : s.responses.Perm (command :: rest)) :
    Consistent { s with responses := rest } ∧
      GivenOut s.accepted (command.serial :: (serials s.commands ++ serials rest ++
        s.callbacks.filterMap Callback.succeeded)) := by
  have subset : ∀ other ∈ rest, other ∈ s.responses :=
    fun other mem => perm.mem_iff.mpr (List.mem_cons_of_mem _ mem)
  have serialsPerm : (serials s.responses).Perm (command.serial :: serials rest) :=
    perm.map QueuedCommand.serial
  have tokensPerm : (Responses.tokens s.responses).Perm (Responses.tokens (command :: rest)) :=
    (perm.map QueuedCommand.token).filter _
  constructor
  · constructor
    · exact consistent.wellFormed
    · apply List.nodup_iff_count_le_one.mpr
      intro n
      have atMostOne := List.nodup_iff_count_le_one.mp consistent.tokens n
      have sublist : (Responses.tokens rest).Sublist (Responses.tokens (command :: rest)) :=
        ((List.sublist_cons_self command rest).map _).filter _
      have fewer := sublist.count_le n
      rw [List.count_append, tokensPerm.count_eq] at atMostOne
      rw [List.count_append]
      exact (Nat.add_le_add_left fewer _).trans atMostOne
    · exact consistent.unused
    · exact consistent.valid
    · exact fun other mem => consistent.matched other (subset other mem)
    · apply consistent.succeeded.of_count
      intro n
      have same := serialsPerm.count_eq n
      simp only [List.count_append, List.count_cons] at same ⊢
      omega
    · exact consistent.delivered
    · exact consistent.truthful
  · apply consistent.succeeded.of_count
    intro n
    have same := serialsPerm.count_eq n
    simp only [List.count_append, List.count_cons] at same ⊢
    omega

theorem writeComplete (consistent : Consistent s) (succeeded : Bool) :
    Consistent (s.writeComplete succeeded) := by
  unfold MQTTAsyncs.writeComplete
  split
  · exact consistent
  next serial pending =>
    dsimp only
    split
    next command found =>
      have mem := List.mem_of_find?_eq_some found
      rcases (consistent.pending none).detach (List.perm_cons_erase mem) with ⟨detached, given⟩
      split
      next message isPublish =>
        split
        · split
          next qos0 =>
            have noId : command.request.needsMsgId = false := by
              rw [isPublish]
              simp [Request.needsMsgId, qos0]
            have truthful : (Callback.onSuccess command .written).Truthful := ⟨by simp, noId⟩
            apply detached.report given truthful rfl
            simp [Callback.succeeded]
          · exact consistent.pending none
        · have truthful : (Callback.onFailure command .abandoned).Truthful := ⟨by simp, trivial⟩
          exact detached.call truthful rfl rfl
      · exact detached
    · exact consistent.pending none

/-- The callback for a packet of the server is called for the first command with its id. -/
theorem complete (consistent : Consistent s) {msgId : Nat} {callback : QueuedCommand → Callback}
    (truthful : ∀ command, s.responses.find? (·.token == msgId) = some command →
      (callback command).Truthful)
    (notDelivered : ∀ command, (callback command).delivered = none)
    (succeeds : ∀ command, ∀ n ∈ (callback command).succeeded, n = command.serial) :
    Consistent (s.complete msgId callback) := by
  unfold MQTTAsyncs.complete
  split
  next command found =>
    rcases consistent.detach (perm_detached found) with ⟨detached, given⟩
    exact detached.report given (truthful command found) (notDelivered command) (succeeds command)
  · exact consistent

/-- An acknowledgement that reaches the callbacks and ends the exchange of a message. -/
theorem acknowledge (consistent : Consistent s) {packet : Session.Packet} {msgId : Nat}
    (outbound : (∃ id, packet = .puback id) ∨ (∃ id rc, packet = .pubrec id rc) ∨
      ∃ id, packet = .pubcomp id)
    (ended : Paho.MQTTAsyncs.ends s.c.mqttVersion s.c.outboundMsgs packet = some msgId)
    (error : Bool) :
    let c := Session.receive s.c packet
    let removed := s.removed c msgId
    Consistent (({ s with c := c }.call (.deliveryComplete msgId removed)).complete msgId
      fun command =>
        if error then .onFailure command (.acknowledged removed)
        else .onSuccess command (.acknowledged removed)) := by
  intro c removed
  have after : ids c.outboundMsgs = ids (removeMessage s.c.outboundMsgs msgId) := by
    have received := ids_receive (c := s.c) outbound
    rw [ended] at received
    exact received
  have inFlight : msgId ∈ ids s.c.outboundMsgs := by
    unfold Paho.MQTTAsyncs.ends at ended
    by_contra absent
    have none := findMessage_eq_none.mpr absent
    rcases outbound with ⟨id, rfl⟩ | ⟨id, rc, rfl⟩ | ⟨id, rfl⟩ <;>
    · dsimp only at ended
      split at ended
      · split at ended <;> simp_all
      · cases ended
  have perm := ids_perm_removeMessage inFlight
  have distinct : (ids s.c.outboundMsgs).Nodup := by
    have := consistent.wellFormed.distinct
    rwa [show ids s.c.exchange.outbound = ids s.c.outboundMsgs from ids_map_untouched] at this
  have gone : msgId ∉ ids c.outboundMsgs := by
    rw [after]
    exact (List.nodup_cons.mp (perm.nodup_iff.mp distinct)).1
  have isRemoved : removed = some (s.owner msgId) := if_pos ⟨inFlight, gone⟩
  have sublist : (ids c.outboundMsgs).Sublist (ids s.c.outboundMsgs) := by
    rw [after]
    exact removeMessage_sublist.map Messages.msgid
  have wellFormed := Exchange.handles_wellFormed (handles_receive (c := s.c) packet)
    consistent.wellFormed
  have handled : Consistent { s with c := c } := consistent.of_session wellFormed sublist
  have reported : Consistent ({ s with c := c }.call (.deliveryComplete msgId removed)) := by
    constructor
    · exact handled.wellFormed
    · exact handled.tokens
    · exact handled.unused
    · exact handled.valid
    · exact handled.matched
    · exact handled.succeeded
    · apply consistent.delivered.of_count
      intro n
      have owners : (MQTTAsyncs.owners s).count n =
          (s.owner msgId :: (ids c.outboundMsgs).map s.owner).count n := by
        rw [after]
        exact (perm.map s.owner).count_eq n
      have report : Callback.delivered (.deliveryComplete msgId removed) =
          some (s.owner msgId) := isRemoved
      simp only [List.count_append, owners]
      simp only [MQTTAsyncs.call, MQTTAsyncs.owners, List.filterMap_cons_some report,
        List.count_cons]
      omega
    · intro callback mem
      rcases List.mem_cons.mp mem with rfl | old
      · exact congrArg Option.isSome isRemoved
      · exact consistent.truthful callback old
  apply reported.complete
  · intro command found
    have mem := List.mem_of_find?_eq_some found
    have token : command.token = msgId := by simpa using List.find?_some found
    have matched := consistent.matched command mem (token ▸ inFlight)
    have concerns : (Cause.acknowledged removed).Concerns command := by
      refine ⟨matched.1, ?_⟩
      rw [isRemoved, ← matched.2, token]
    split
    · exact ⟨by simp, concerns⟩
    · exact ⟨by simp, concerns⟩
  · intro command
    split <;> rfl
  · intro command
    split <;> simp [Callback.succeeded]

/-- An acknowledgement ends the exchange of its own id only. -/
theorem ends_of_isSome {mqttVersion : Nat} {outbound : List Messages} :
    (∀ id, (Paho.MQTTAsyncs.ends mqttVersion outbound (.puback id)).isSome = true →
      Paho.MQTTAsyncs.ends mqttVersion outbound (.puback id) = some id) ∧
    (∀ id rc, (Paho.MQTTAsyncs.ends mqttVersion outbound (.pubrec id rc)).isSome = true →
      Paho.MQTTAsyncs.ends mqttVersion outbound (.pubrec id rc) = some id) ∧
    ∀ id, (Paho.MQTTAsyncs.ends mqttVersion outbound (.pubcomp id)).isSome = true →
      Paho.MQTTAsyncs.ends mqttVersion outbound (.pubcomp id) = some id := by
  refine ⟨?_, ?_, ?_⟩
  all_goals
    intros
    simp only [Paho.MQTTAsyncs.ends] at *
    split at * <;> simp_all

/-- `MQTTAsync_cycle` handles a PUBREC that reports no error. -/
theorem pubrec (consistent : Consistent s) {msgId rc : Nat}
    (noError : ¬(mqttVersion5 ≤ s.c.mqttVersion ∧ reasonCodeUnspecifiedError ≤ rc)) :
    Consistent { s with c := Session.receive s.c (.pubrec msgId rc) } := by
  have wellFormed := Exchange.handles_wellFormed (handles_receive (c := s.c) (.pubrec msgId rc))
    consistent.wellFormed
  apply consistent.of_session wellFormed
  have received := @ids_receive s.c (.pubrec msgId rc) (.inr (.inl ⟨_, _, rfl⟩))
  have continues : Paho.MQTTAsyncs.ends s.c.mqttVersion s.c.outboundMsgs (.pubrec msgId rc) =
      none := by
    unfold Paho.MQTTAsyncs.ends
    dsimp only
    split
    · exact if_neg fun ended => noError ended.2.2
    · rfl
  rw [continues] at received
  exact received ▸ List.Sublist.refl _

/-- The client handles an expected packet. -/
theorem receive (consistent : Consistent s) {packet : Packet} (expected : Expected s packet) :
    Consistent (s.receive packet) := by
  have inbound {packet : Session.Packet} (kept : ids (Session.receive s.c packet).outboundMsgs =
      ids s.c.outboundMsgs) : Consistent { s with c := Session.receive s.c packet } :=
    consistent.of_session
      (Exchange.handles_wellFormed (handles_receive packet) consistent.wellFormed)
      (kept ▸ List.Sublist.refl _)
  cases packet with
  | publish dup message msgId =>
      exact inbound (outbound_receive_inbound (.inl ⟨dup, message, msgId, rfl⟩))
  | pubrel msgId => exact inbound (outbound_receive_inbound (.inr ⟨msgId, rfl⟩))
  | puback msgId rc =>
      have ended := ends_of_isSome.1 msgId (expected _ rfl)
      exact consistent.acknowledge (.inl ⟨msgId, rfl⟩) ended _
  | pubcomp msgId rc =>
      have ended := ends_of_isSome.2.2 msgId (expected _ rfl)
      exact consistent.acknowledge (.inr (.inr ⟨msgId, rfl⟩)) ended _
  | pubrec msgId rc =>
      by_cases error : mqttVersion5 ≤ s.c.mqttVersion ∧ reasonCodeUnspecifiedError ≤ rc
      · have ended := ends_of_isSome.2.1 msgId rc (expected _ (if_pos error))
        have reported := consistent.acknowledge (.inr (.inl ⟨msgId, rc, rfl⟩)) ended true
        simpa [MQTTAsyncs.receive, MQTTAsyncs.handleAck, MQTTAsyncs.ackrc, error] using reported
      · have silent : decide (reasonCodeUnspecifiedError ≤ s.ackrc rc) = false := by
          apply decide_eq_false
          unfold MQTTAsyncs.ackrc
          split
          next version => exact fun isError => error ⟨version, isError⟩
          next => decide
        have handled : Consistent { s with c := Session.receive s.c (.pubrec msgId rc) } :=
          consistent.pubrec error
        simpa [MQTTAsyncs.receive, MQTTAsyncs.handleAck, MQTTAsyncs.isPubrec, silent] using
          handled
  | suback msgId qoss =>
      apply consistent.complete
      · intro command found
        have token : command.token = msgId := by simpa using List.find?_some found
        have concerns : (Cause.suback msgId).Concerns command := ⟨expected command found, token⟩
        split
        · exact ⟨by simp, concerns⟩
        · exact ⟨by simp, concerns⟩
      · intro command
        split <;> rfl
      · intro command
        split <;> simp [Callback.succeeded]
  | unsuback msgId =>
      apply consistent.complete
      · intro command found
        have token : command.token = msgId := by simpa using List.find?_some found
        exact ⟨by simp, expected command found, token⟩
      · exact fun command => rfl
      · intro command
        simp [Callback.succeeded]

/-- One step with an expected packet, or without a packet. -/
theorem step (consistent : Consistent s) {input : Input} (meets : Meets s input) :
    Consistent (step s input) := by
  have provided : Consistent (provide s input) :=
    consistent.of_session consistent.wellFormed (List.Sublist.refl _)
  unfold Responses.step
  cases action : input.action with
  | request request => exact provided.request request
  | deleteOldest => exact provided.dequeue List.eraseP_sublist
  | processCommand => exact provided.processCommand
  | receive packet =>
      unfold act
      dsimp only
      split
      next connected =>
        have expected := meets packet action connected
        cases packet <;> exact provided.receive expected
      · exact provided
  | retry doRetry => exact provided.resume (internal_act trivial)
  | continueWrite succeeded =>
      have resumed : Consistent ((provide s input).resume
          (Session.act (provide s input).c (.continueWrite succeeded))) :=
        provided.resume (internal_act trivial)
      unfold act
      dsimp only
      split
      · exact resumed.writeComplete succeeded
      · exact resumed
  | connectionLost => exact provided.resume (internal_act trivial)
  | connect sessionPresent => exact provided.resume (internal_act trivial)
  | disconnect =>
      apply provided.resume
      unfold MQTTAsync.closeSession
      dsimp only
      split
      · rw [exchange_cleanSession]
        exact .single (.clean _)
      · exact .refl

end Consistent

end Responses

end Paho
