import Paho.Async.Consistency
import Paho.Protocol.HeldIds

/-!
# Failures of publications are final

When the callback for a failure of a QoS 1 or 2 publication is called, the application may publish
the message again. The failure is final when the client holds nothing of the publication any more
and never sends it again. `MQTTAsync_freeResponses` reports failures when the session is cleaned;
`MQTTAsync_processCommand` reports one when the PUBLISH could not be written, and then the message
stays in flight.
-/

namespace Paho

open Relation

namespace Responses

/-- The number of a publication of QoS 1 or 2 that is given up. -/
def Callback.givenUp : Callback → Option Nat
  | .onFailure command .abandoned =>
      if command.request.isPublish && command.request.needsMsgId then some command.serial else none
  | _ => none

/-- The publications of QoS 1 and 2 that were given up. -/
def MQTTAsyncs.givenUp (s : MQTTAsyncs) : List Nat :=
  s.callbacks.filterMap Callback.givenUp

/-- Nothing of a publication is in flight or in the store. -/
structure Gone (s : MQTTAsyncs) (serial : Nat) : Prop where
  inFlight : ∀ m ∈ s.c.outboundMsgs, s.owner m.msgid ≠ serial
  stored : ∀ key publish, key.stem = .publishSent → s.c.record key = some (.publish publish) →
    s.owner publish.msgId ≠ serial

theorem gone_iff {s : MQTTAsyncs} {serial : Nat} :
    Gone s serial ↔ ∀ id, s.c.exchange.Holds id → s.owner id ≠ serial := by
  have sameIds : ids s.c.exchange.outbound = ids s.c.outboundMsgs := ids_map_untouched
  constructor
  · rintro gone id (inFlight | ⟨key, publish, stem, stored, rfl⟩)
    · rw [sameIds] at inFlight
      rcases mem_ids.mp inFlight with ⟨m, mem, rfl⟩
      exact gone.inFlight m mem
    · exact gone.stored key publish stem stored
  · intro absent
    refine ⟨fun m mem => ?_, fun key publish stem stored => ?_⟩
    · apply absent
      left
      rw [sameIds]
      exact mem_ids_of_mem mem
    · exact absent _ (.inr ⟨key, publish, stem, stored, rfl⟩)

namespace Lifetime

/-- A call into the client, or the end of its process. -/
inductive Call where
  | call (input : Input)
  /-- A new process restores the session from the keys of the store, and the commands whose
  records are in the store. -/
  | restart (now : Nat) (keys : List PersistenceKey) (stored : List Nat)
  deriving DecidableEq, Repr

/-- The client of a new process. What happened before is on record still. -/
def restart (s : MQTTAsyncs) (now : Nat) (keys : List PersistenceKey) (stored : List Nat) :
    MQTTAsyncs :=
  { s with
    c := Session.step s.c { action := .restart keys, now := now }
    commands := s.commands.filter fun command => decide (command.serial ∈ stored)
    responses := []
    pendingWrite := none }

def step (s : MQTTAsyncs) : Call → MQTTAsyncs
  | .call input => Responses.step s input
  | .restart now keys stored => restart s now keys stored

/-- What the client has done between two states, newest first. -/
def newEvents (s s' : MQTTAsyncs) : List Event :=
  s'.c.trace.take (s'.c.trace.length - s.c.trace.length)

/-- After a step nothing is left of a publication that was given up, and the step sends no PUBLISH
of one that was given up before. The id 0 is that of the publications of QoS 0. -/
structure FailuresFinal (s : MQTTAsyncs) (call : Call) : Prop where
  gone : ∀ serial ∈ (step s call).givenUp, Gone (step s call) serial
  unsent : ∀ serial ∈ s.givenUp, ∀ id dup rc,
    .sentPublish id dup rc ∈ newEvents s (step s call) → id ≠ 0 →
      (step s call).owner id ≠ serial

/-- Unless the first command is a publication of QoS 1 or 2 that can be sent and whose write
fails. -/
def PublishWritten (s : MQTTAsyncs) : Call → Prop
  | .call input =>
      input.action = .processCommand → ∀ command ∈ s.commands.head?,
        command.request.isPublish = true → command.request.needsMsgId = true →
          s.canProcess command.request = true → input.writes.head? ≠ some .socketError
  | .restart _ _ _ => True

end Lifetime

/-! ## What the operations send -/

/-- The client sends what it holds, or the publication of a command; the id 0 is that of QoS 0. -/
structure Sends (s s' : MQTTAsyncs) : Prop where
  within : s.c.exchange.Within
    (fun id => id = 0 ∨ ∃ command ∈ s.commands, s'.owner id = command.serial) s'.c.exchange
  owner : ∀ id, s'.owner id = s.owner id ∨ ∃ command ∈ s.commands, s'.owner id = command.serial

/-- The lists of the client, with what is left of the publications that were given up. -/
structure Final (s : MQTTAsyncs) : Prop where
  serials : GivenOut s.accepted (serials s.commands ++ serials s.responses)
  tokens : ∀ command ∈ s.commands, command.request.needsMsgId = false → command.token = 0
  pending : ∀ serial, s.pendingWrite = some serial → serial < s.accepted ∧
    ∀ command ∈ s.commands ++ s.responses, command.serial = serial →
      command.request.needsMsgId = false
  left : ∀ serial ∈ s.givenUp, serial < s.accepted ∧ serial ∉ Responses.serials s.commands
  gone : ∀ serial ∈ s.givenUp, ∀ id, s.c.exchange.Holds id → s.owner id ≠ serial

namespace Final

variable {s : MQTTAsyncs}

/-- The session goes on, and holds nothing new. -/
theorem session (final : Final s) {c : Clients}
    (holds : ∀ id, c.exchange.Holds id → s.c.exchange.Holds id) : Final { s with c := c } where
  serials := final.serials
  tokens := final.tokens
  pending := final.pending
  left := final.left
  gone := fun serial givenUp id held => final.gone serial givenUp id (holds id held)

theorem dequeue (final : Final s) {commands : List QueuedCommand}
    (sublist : commands.Sublist s.commands) : Final { s with commands := commands } where
  serials := by
    apply final.serials.of_count
    intro n
    have fewer := (sublist.map QueuedCommand.serial).count_le n
    simp only [Responses.serials, List.count_append] at fewer ⊢
    omega
  tokens := fun command mem => final.tokens command (sublist.subset mem)
  pending := by
    intro serial pends
    refine ⟨(final.pending serial pends).1, fun command mem => ?_⟩
    exact (final.pending serial pends).2 command ((sublist.append_right _).subset mem)
  left := by
    intro serial givenUp
    refine ⟨(final.left serial givenUp).1, fun mem => ?_⟩
    exact (final.left serial givenUp).2 ((sublist.map _).subset mem)
  gone := final.gone

theorem detach (final : Final s) {responses : List QueuedCommand}
    (sublist : responses.Sublist s.responses) : Final { s with responses := responses } where
  serials := by
    apply final.serials.of_count
    intro n
    have fewer := (sublist.map QueuedCommand.serial).count_le n
    simp only [Responses.serials, List.count_append] at fewer ⊢
    omega
  tokens := final.tokens
  pending := by
    intro serial pends
    refine ⟨(final.pending serial pends).1, fun command mem => ?_⟩
    exact (final.pending serial pends).2 command ((sublist.append_left _).subset mem)
  left := final.left
  gone := final.gone

/-- A callback that gives up no publication of QoS 1 or 2. -/
theorem call (final : Final s) {callback : Callback} (other : callback.givenUp = none) :
    Final (s.call callback) := by
  have same : (s.call callback).givenUp = s.givenUp := List.filterMap_cons_none other
  refine ⟨final.serials, final.tokens, final.pending, ?_, ?_⟩
  · rw [same]
    exact final.left
  · rw [same]
    exact final.gone

theorem stopPending (final : Final s) : Final { s with pendingWrite := none } where
  serials := final.serials
  tokens := final.tokens
  pending := by simp
  left := final.left
  gone := final.gone

/-- The commands that wait for a response are given up, and the session holds nothing. -/
theorem freeResponses (final : Final s) {c : Clients} (nothing : ∀ id, ¬c.exchange.Holds id) :
    Final { s.freeResponses with c := c } where
  serials := by
    apply final.serials.of_count
    intro n
    simp [MQTTAsyncs.freeResponses, Responses.serials, List.count_append]
  tokens := final.tokens
  pending := by
    intro serial pends
    refine ⟨(final.pending serial pends).1, fun command mem => ?_⟩
    apply (final.pending serial pends).2 command
    simp only [MQTTAsyncs.freeResponses, List.append_nil] at mem
    exact List.mem_append_left _ mem
  left := by
    intro serial givenUp
    rw [MQTTAsyncs.givenUp, MQTTAsyncs.freeResponses, List.filterMap_append, List.mem_append]
      at givenUp
    rcases givenUp with freed | earlier
    · simp only [List.mem_filterMap, List.mem_reverse, List.mem_map] at freed
      rcases freed with ⟨_, ⟨command, waits, rfl⟩, isGivenUp⟩
      have serialOf : command.serial = serial := by
        simp only [Callback.givenUp] at isGivenUp
        split at isGivenUp
        · exact Option.some.inj isGivenUp
        · cases isGivenUp
      have mem : serial ∈ Responses.serials s.responses :=
        serialOf ▸ List.mem_map_of_mem waits
      refine ⟨final.serials.bounded _ (List.mem_append_right _ mem), fun queued => ?_⟩
      exact (List.nodup_append.mp final.serials.nodup).2.2 _ queued _ mem rfl
    · exact final.left serial earlier
  gone := fun _ _ id held => absurd held (nothing id)

theorem resume (final : Final s) {c : Clients}
    (internals : ReflTransGen Exchange.Internal s.c.exchange c.exchange) : Final (s.resume c) := by
  unfold MQTTAsyncs.resume
  split
  next cleaned =>
    rcases Exchange.internals_cleaned internals with same | nothing
    · have fewer : s.c.trace.count .sessionCleaned < c.trace.count .sessionCleaned := by
        simpa [MQTTAsyncs.cleaned] using cleaned
      exact absurd same (Nat.ne_of_gt fewer)
    · exact final.freeResponses nothing
  · exact final.session (Exchange.internals_within internals).keeps

theorem complete (final : Final s) {msgId : Nat} {callback : QueuedCommand → Callback}
    (other : ∀ command, (callback command).givenUp = none) :
    Final (s.complete msgId callback) := by
  unfold MQTTAsyncs.complete
  split
  next command _ => exact (final.detach List.eraseP_sublist).call (other command)
  · exact final

/-- Only a publication of QoS 0 is given up when a pending write ends. -/
theorem writeComplete (final : Final s) (succeeded : Bool) :
    Final (s.writeComplete succeeded) := by
  unfold MQTTAsyncs.writeComplete
  rcases pends : s.pendingWrite with _ | serial
  · exact final
  simp only
  have stopped := final.stopPending
  rcases found : s.responses.find? fun command => command.serial == serial with _ | command
  · simp only [found]
    exact stopped
  have waits : command ∈ s.responses := List.mem_of_find?_eq_some found
  have isSerial : command.serial = serial := by simpa using List.find?_some found
  have unacknowledged : command.request.needsMsgId = false :=
    (final.pending serial pends).2 command (List.mem_append_right _ waits) isSerial
  have fewer := @detach { s with pendingWrite := none } stopped (s.responses.erase command)
    List.erase_sublist
  cases request : command.request with
  | publish message =>
      simp only [found, request]
      split
      · split
        · exact fewer.call rfl
        · exact stopped
      · apply fewer.call
        simp [Callback.givenUp, unacknowledged]
  | subscribe =>
      simp only [found, request]
      exact fewer
  | unsubscribe =>
      simp only [found, request]
      exact fewer

theorem addCommand (final : Final s) {request : Request} {token : Nat}
    (unacknowledged : request.needsMsgId = false → token = 0) :
    Final (s.addCommand request token) where
  serials := by
    apply final.serials.push
    intro n
    simp only [MQTTAsyncs.addCommand, Responses.serials, List.map_append, List.map_cons,
      List.map_nil, List.count_append, List.count_cons, List.count_nil]
    omega
  tokens := by
    intro command mem
    rcases List.mem_append.mp mem with old | new
    · exact final.tokens command old
    · exact List.mem_singleton.mp new ▸ unacknowledged
  pending := by
    intro serial pends
    rcases final.pending serial pends with ⟨bounded, others⟩
    refine ⟨Nat.lt_succ_of_lt bounded, fun command mem isSerial => ?_⟩
    simp only [MQTTAsyncs.addCommand, List.mem_append, List.mem_singleton] at mem
    rcases mem with (queued | rfl) | waits
    · exact others command (List.mem_append_left _ queued) isSerial
    · exact absurd isSerial (Nat.ne_of_gt bounded)
    · exact others command (List.mem_append_right _ waits) isSerial
  left := by
    intro serial givenUp
    rcases final.left serial givenUp with ⟨bounded, absent⟩
    refine ⟨Nat.lt_succ_of_lt bounded, fun mem => ?_⟩
    simp only [MQTTAsyncs.addCommand, Responses.serials, List.map_append, List.mem_append,
      List.map_cons, List.map_nil, List.mem_singleton] at mem
    rcases mem with queued | isNew
    · exact absent queued
    · exact absurd isNew (Nat.ne_of_lt bounded)
  gone := final.gone

theorem request (final : Final s) (request : Request) : Final (s.request request) := by
  unfold MQTTAsyncs.request
  split
  · exact final
  · split
    next needed =>
      split
      · exact final
      next msgid after assigned =>
        rcases Consistent.assignMsgId_spec assigned with ⟨rfl, rfl⟩ | ⟨positive, _, rfl⟩
        · exact final
        · rw [if_neg (Nat.pos_iff_ne_zero.mp positive)]
          have moved : Final { s with c := { s.c with msgID := msgid } } :=
            final.session fun _ => id
          apply moved.addCommand
          intro notNeeded
          rw [needed] at notNeeded
          cases notNeeded
    · exact final.addCommand fun _ => rfl

/-- A command that has left the queue is in no list of the client. -/
structure Off (s : MQTTAsyncs) (command : QueuedCommand) : Prop where
  absent : command.serial ∉ Responses.serials s.commands ++ Responses.serials s.responses
  bounded : command.serial < s.accepted
  kept : command.serial ∉ s.givenUp

theorem off (final : Final s) {command : QueuedCommand} {rest : List QueuedCommand}
    (queue : s.commands = command :: rest) : Off { s with commands := rest } command := by
  have serials := final.serials
  rw [queue] at serials
  refine ⟨(List.nodup_cons.mp serials.nodup).1, serials.bounded _ List.mem_cons_self, ?_⟩
  intro givenUp
  apply (final.left _ givenUp).2
  rw [queue]
  exact List.mem_cons_self

/-- The command waits for its response. -/
theorem awaitResponse (final : Final s) {command : QueuedCommand} (off : Off s command)
    (pends : s.pendingWrite = some command.serial → command.request.needsMsgId = false) :
    Final (s.awaitResponse command) where
  serials := by
    have pushed : GivenOut s.accepted
        (command.serial :: (Responses.serials s.commands ++ Responses.serials s.responses)) := by
      refine ⟨List.nodup_cons.mpr ⟨off.absent, final.serials.nodup⟩, ?_⟩
      intro n mem
      rcases List.mem_cons.mp mem with rfl | old
      · exact off.bounded
      · exact final.serials.bounded n old
    apply pushed.of_count
    intro n
    simp only [MQTTAsyncs.awaitResponse, Responses.serials, List.map_append, List.map_cons,
      List.map_nil, List.count_append, List.count_cons, List.count_nil]
    omega
  tokens := final.tokens
  pending := by
    intro serial pending
    refine ⟨(final.pending serial pending).1, fun other mem isSerial => ?_⟩
    simp only [MQTTAsyncs.awaitResponse, List.mem_append, List.mem_singleton] at mem
    rcases mem with queued | waits | rfl
    · exact (final.pending serial pending).2 other (List.mem_append_left _ queued) isSerial
    · exact (final.pending serial pending).2 other (List.mem_append_right _ waits) isSerial
    · exact pends (isSerial ▸ pending)
  left := final.left
  gone := final.gone

/-- A publication of QoS 0 is the one whose write is pending. -/
theorem startPending (final : Final s) {command : QueuedCommand} (off : Off s command) :
    Final { s with pendingWrite := some command.serial } where
  serials := final.serials
  tokens := final.tokens
  pending := by
    intro serial pends
    cases pends
    refine ⟨off.bounded, fun other mem isSerial => absurd ?_ off.absent⟩
    rcases List.mem_append.mp mem with queued | waits
    · exact List.mem_append_left _ (isSerial ▸ List.mem_map_of_mem queued)
    · exact List.mem_append_right _ (isSerial ▸ List.mem_map_of_mem waits)
  left := final.left
  gone := final.gone

/-- A publication is put in flight under the id of its command. -/
theorem putInFlight (final : Final s) {command : QueuedCommand} (off : Off s command)
    {c : Clients} (within : s.c.exchange.Within (· = command.token) c.exchange) :
    Final { s with c := c, owner := Function.update s.owner command.token command.serial } where
  serials := final.serials
  tokens := final.tokens
  pending := final.pending
  left := final.left
  gone := by
    intro serial givenUp id held
    by_cases isToken : id = command.token
    · subst isToken
      simp only [Function.update_self]
      rintro rfl
      exact off.kept givenUp
    · simp only [Function.update_of_ne isToken]
      rcases within.holds id held with before | same
      · exact final.gone serial givenUp id before
      · exact absurd same isToken

end Final

/-! ## Processing a command -/

theorem startPublish_rc (c : Clients) (publish : Publish) (qos : Nat) (retained : Bool) :
    (MQTTProtocol.startPublish c publish qos retained).1 = (Socket.putdatas c.net).1 := by
  have put : ∀ (c : Clients) (record : Record) (msgId mqttVersion : Nat),
      (MQTTPersistence.putPacket c record .publish msgId 0 mqttVersion).net = c.net :=
    fun _ _ _ _ => rfl
  unfold MQTTProtocol.startPublish
  split
  · unfold MQTTPacket.send_publish
    split
    · rfl
    · simp only [MQTTPacket.write, put]
  · unfold MQTTPacket.send_publish
    split
    · rfl
    · simp only [MQTTPacket.write, put]

theorem putdatas_fails_iff {net : NetworkHandles} (idle : net.pendingWrites = false) :
    (Socket.putdatas net).1 = .socketError ↔ net.writes.head? = some .socketError := by
  rcases net with ⟨pending, writes⟩
  simp only at idle
  subst idle
  cases writes <;> simp [Socket.putdatas]

section Processing

variable {s : MQTTAsyncs} {command : QueuedCommand} {rest : List QueuedCommand}
  {message : Session.Message}

/-- The PUBLISH of a command has its id. -/
theorem startPublish_within (c : Clients) (command : QueuedCommand) (message : Session.Message) :
    c.exchange.Within (· = command.token)
      (MQTTProtocol.startPublish c
        (Session.publishPacket c.mqttVersion message false command.token) message.qos
        message.retained).2.exchange := by
  by_cases qos0 : message.qos = 0
  · simp only [MQTTProtocol.startPublish, qos0, Nat.lt_irrefl, if_false]
    rw [exchange_send_publish_qos0]
    apply Exchange.Within.of_event rfl
    · intro id inFlight
      exact .inl (.inl inFlight)
    · intro key publish _ stored
      exact .inl stored
    · intro id dup rc same
      cases same
      exact .inr rfl
  · have started := @exchange_startPublish c message command.token (Nat.pos_of_ne_zero qos0)
    simp only at started
    rw [started]
    have inFlight : c.exchange.Within (· = command.token) (c.exchange.start
        (MQTTProtocol.createMessage (Session.publishPacket c.mqttVersion message false
          command.token) message.qos message.retained 0)) := by
      apply Exchange.Within.of_event rfl
      · intro id inFlight
        rw [Exchange.start_outbound, ids_append] at inFlight
        rcases List.mem_append.mp inFlight with old | new
        · exact .inl (.inl old)
        · exact .inr (List.mem_singleton.mp new)
      · intro key publish _ stored
        exact .inl stored
      · intro id dup rc same
        cases same
    apply inFlight.trans
    apply Exchange.Within.sendPublish
    exact .inr rfl

/-- A publication of QoS 0 is not kept. -/
theorem startPublish_holds (c : Clients) (command : QueuedCommand) {message : Session.Message}
    (qos0 : message.qos = 0) (id : Nat) :
    (MQTTProtocol.startPublish c
      (Session.publishPacket c.mqttVersion message false command.token) message.qos
      message.retained).2.exchange.Holds id → c.exchange.Holds id := by
  intro held
  simp only [MQTTProtocol.startPublish, qos0, Nat.lt_irrefl, if_false] at held
  rw [exchange_send_publish_qos0] at held
  exact held

theorem publish_final (final : Final s) (queue : s.commands = command :: rest)
    (isPublish : command.request = .publish message)
    (written : message.qos ≠ 0 → (Socket.putdatas s.c.net).1 ≠ .socketError) :
    Final (MQTTAsyncs.publish { s with commands := rest } command message) := by
  have dequeued : Final { s with commands := rest } :=
    final.dequeue (queue ▸ List.sublist_cons_self command rest)
  have off := final.off queue
  have within := startPublish_within s.c command message
  have result := startPublish_rc s.c
    (Session.publishPacket s.c.mqttVersion message false command.token) message.qos message.retained
  have holds : message.qos = 0 → _ := fun qos0 => startPublish_holds s.c command qos0
  simp only [MQTTAsyncs.publish]
  generalize MQTTProtocol.startPublish s.c
    (Session.publishPacket s.c.mqttVersion message false command.token) message.qos
    message.retained = started at within result holds
  rcases started with ⟨rc, c⟩
  simp only at within result holds
  by_cases qos0 : message.qos = 0
  · have unacknowledged : command.request.needsMsgId = false := by
      simp [isPublish, Request.needsMsgId, qos0]
    have sent : Final { s with commands := rest, c := c } := dequeued.session (holds qos0)
    have waits := sent.startPending ⟨off.absent, off.bounded, off.kept⟩
    cases rc with
    | complete =>
        simp only [qos0, if_true, MQTTAsyncs.published]
        exact sent.call rfl
    | interrupted =>
        simp only [qos0, if_true, MQTTAsyncs.published]
        exact waits.awaitResponse ⟨off.absent, off.bounded, off.kept⟩ fun _ => unacknowledged
    | socketError =>
        simp only [qos0, if_true, MQTTAsyncs.published]
        apply waits.call
        simp [Callback.givenUp, unacknowledged]
  · have inFlight := dequeued.putInFlight off within
    have others : s.pendingWrite = some command.serial → command.request.needsMsgId = false := by
      intro pends
      apply (final.pending _ pends).2 command _ rfl
      rw [queue]
      exact List.mem_cons_self
    have awaits := inFlight.awaitResponse ⟨off.absent, off.bounded, off.kept⟩ others
    cases rc with
    | complete =>
        simp only [qos0, if_false, MQTTAsyncs.published]
        exact awaits
    | interrupted =>
        simp only [qos0, if_false, MQTTAsyncs.published]
        exact awaits
    | socketError => exact absurd result.symm (written qos0)

theorem subscribe_final (final : Final s) (queue : s.commands = command :: rest)
    (notPublish : command.request.isPublish = false) :
    Final (MQTTAsyncs.subscribe { s with commands := rest } command) := by
  have dequeued : Final { s with commands := rest } :=
    final.dequeue (queue ▸ List.sublist_cons_self command rest)
  have off := final.off queue
  have written : ∀ net : NetworkHandles,
      Final { s with commands := rest, c := { s.c with net := net } } :=
    fun net => dequeued.session fun _ => id
  have others : s.pendingWrite = some command.serial → command.request.needsMsgId = false := by
    intro pends
    apply (final.pending _ pends).2 command _ rfl
    rw [queue]
    exact List.mem_cons_self
  unfold MQTTAsyncs.subscribe
  split
  next net _ =>
    apply (written net).call
    simp [Callback.givenUp, notPublish]
  next net _ _ => exact (written net).awaitResponse ⟨off.absent, off.bounded, off.kept⟩ others

theorem idle_of_canProcess {request : Request} (can : s.canProcess request = true) :
    s.c.net.pendingWrites = false := by
  simp only [MQTTAsyncs.canProcess, Bool.and_eq_true, Socket.noPendingWrites,
    Bool.not_eq_true'] at can
  exact can.1.1.2

theorem processCommand_final (final : Final s)
    (written : ∀ command ∈ s.commands.head?, command.request.isPublish = true →
      command.request.needsMsgId = true → s.canProcess command.request = true →
        s.c.net.writes.head? ≠ some .socketError) : Final s.processCommand := by
  unfold MQTTAsyncs.processCommand
  split
  · exact final
  next command rest queue =>
    split
    · exact final
    next processes =>
      have can : s.canProcess command.request = true := by simpa using processes
      have isHead : command ∈ s.commands.head? := by simp [queue]
      simp only
      split
      next message isPublish =>
        apply publish_final final queue isPublish
        intro qos fails
        apply written command isHead _ _ can
        · exact (putdatas_fails_iff (idle_of_canProcess can)).mp fails
        · simp [isPublish, Request.isPublish]
        · simp [isPublish, Request.needsMsgId, qos]
      next isSubscribe =>
        exact subscribe_final final queue (by simp [isSubscribe, Request.isPublish])
      next isUnsubscribe =>
        exact subscribe_final final queue (by simp [isUnsubscribe, Request.isPublish])

end Processing

section Steps

variable {s : MQTTAsyncs}

theorem receive_final (final : Final s) (packet : Packet) : Final (s.receive packet) := by
  have received : ∀ packet : Session.Packet, Final { s with c := Session.receive s.c packet } :=
    fun packet => final.session (Exchange.handles_within (handles_receive packet)).keeps
  have acknowledged : ∀ (packet : Session.Packet) (msgId rc : Nat),
      Final (s.handleAck packet msgId rc) := by
    intro packet msgId rc
    simp only [MQTTAsyncs.handleAck]
    split
    · exact received packet
    · apply ((received packet).call rfl).complete
      intro command
      split <;> rfl
  cases packet with
  | publish dup message msgId => exact received (.publish dup message msgId)
  | pubrel msgId => exact received (.pubrel msgId)
  | puback msgId rc => exact acknowledged (.puback msgId) msgId rc
  | pubrec msgId rc => exact acknowledged (.pubrec msgId rc) msgId rc
  | pubcomp msgId rc => exact acknowledged (.pubcomp msgId) msgId rc
  | suback msgId qoss =>
      apply final.complete
      intro command
      split <;> rfl
  | unsuback msgId => exact final.complete fun _ => rfl

theorem internal_closed (c : Clients) :
    ReflTransGen Exchange.Internal c.exchange (MQTTAsync.closeSession c).exchange := by
  unfold MQTTAsync.closeSession
  simp only
  split
  · rw [exchange_cleanSession]
    exact .single (.clean _)
  · exact .refl

/-- Unless a PUBLISH could not be written, a step leaves nothing of what is given up. -/
theorem step_final (final : Final s) {input : Input}
    (written : Lifetime.PublishWritten s (.call input)) : Final (step s input) := by
  have provided : Final (provide s input) := final.session fun _ => id
  unfold Responses.step
  cases action : input.action with
  | request request => exact provided.request request
  | deleteOldest => exact provided.dequeue List.eraseP_sublist
  | processCommand => exact processCommand_final provided (written action)
  | receive packet =>
      simp only [act]
      split
      · exact receive_final provided packet
      · exact provided
  | retry doRetry => exact provided.resume (internal_act trivial)
  | continueWrite succeeded =>
      have resumed : Final ((provide s input).resume
          (Session.act (provide s input).c (.continueWrite succeeded))) :=
        provided.resume (internal_act trivial)
      simp only [act]
      split
      · exact resumed.writeComplete succeeded
      · exact resumed
  | connectionLost => exact provided.resume (internal_act trivial)
  | connect sessionPresent => exact provided.resume (internal_act trivial)
  | disconnect => exact provided.resume (internal_closed _)

theorem restart_within (s : MQTTAsyncs) (now : Nat) (keys : List PersistenceKey)
    {fresh : Nat → Prop} : s.c.exchange.Within fresh
      (Session.step s.c { action := .restart keys, now := now }).exchange :=
  Session.restart_within (Session.provide s.c { action := .restart keys, now := now }) keys

theorem restart_final (final : Final s) (now : Nat) (keys : List PersistenceKey)
    (stored : List Nat) : Final (Lifetime.restart s now keys stored) := by
  have fewer : Final { s with
      commands := s.commands.filter fun command => decide (command.serial ∈ stored) } :=
    final.dequeue List.filter_sublist
  have silent := (fewer.detach (List.nil_sublist s.responses)).stopPending
  exact silent.session (restart_within s now keys).keeps

/-- Apart from the publication of a command, a step sends what the client holds. -/
theorem sends_of_within {s' : MQTTAsyncs} (owner : s'.owner = s.owner)
    (within : ∀ {fresh : Nat → Prop}, s.c.exchange.Within fresh s'.c.exchange) : Sends s s' where
  within := within
  owner := fun id => .inl (congrFun owner id)

theorem resume_sends {c : Clients}
    (internals : ReflTransGen Exchange.Internal s.c.exchange c.exchange) :
    Sends s (s.resume c) := by
  have within : ∀ {fresh : Nat → Prop}, s.c.exchange.Within fresh c.exchange :=
    Exchange.internals_within internals
  unfold MQTTAsyncs.resume
  split
  · exact sends_of_within rfl within
  · exact sends_of_within rfl within

theorem complete_sends {before : MQTTAsyncs} {msgId : Nat} {callback : QueuedCommand → Callback}
    (owner : s.owner = before.owner)
    (within : ∀ {fresh : Nat → Prop}, before.c.exchange.Within fresh s.c.exchange) :
    Sends before (s.complete msgId callback) := by
  unfold MQTTAsyncs.complete
  split <;> exact sends_of_within owner within

theorem writeComplete_frame (succeeded : Bool) :
    (s.writeComplete succeeded).c = s.c ∧ (s.writeComplete succeeded).owner = s.owner := by
  unfold MQTTAsyncs.writeComplete
  split
  · exact ⟨rfl, rfl⟩
  · simp only
    split
    · split
      · split
        · split <;> exact ⟨rfl, rfl⟩
        · exact ⟨rfl, rfl⟩
      · exact ⟨rfl, rfl⟩
    · exact ⟨rfl, rfl⟩

theorem published_frame (command : QueuedCommand) (qos : Nat) (rc : CompletionCode) :
    (s.published command qos rc).c = s.c ∧ (s.published command qos rc).owner = s.owner := by
  cases rc with
  | complete =>
      simp only [MQTTAsyncs.published]
      split <;> exact ⟨rfl, rfl⟩
  | interrupted =>
      simp only [MQTTAsyncs.published]
      split <;> exact ⟨rfl, rfl⟩
  | socketError =>
      simp only [MQTTAsyncs.published]
      split <;> exact ⟨rfl, rfl⟩

theorem request_frame (request : Request) :
    (s.request request).c.exchange = s.c.exchange ∧ (s.request request).owner = s.owner := by
  unfold MQTTAsyncs.request
  split
  · exact ⟨rfl, rfl⟩
  · split
    · split
      · exact ⟨rfl, rfl⟩
      next msgid after assigned =>
        rcases Consistent.assignMsgId_spec assigned with ⟨rfl, rfl⟩ | ⟨positive, _, rfl⟩
        · exact ⟨rfl, rfl⟩
        · rw [if_neg (Nat.pos_iff_ne_zero.mp positive)]
          exact ⟨rfl, rfl⟩
    · exact ⟨rfl, rfl⟩

theorem receive_sends (packet : Packet) : Sends s (s.receive packet) := by
  have acknowledged : ∀ (packet : Session.Packet) (msgId rc : Nat),
      Sends s (s.handleAck packet msgId rc) := by
    intro packet msgId rc
    simp only [MQTTAsyncs.handleAck]
    split
    · exact sends_of_within rfl (Exchange.handles_within (handles_receive packet))
    · exact complete_sends rfl (Exchange.handles_within (handles_receive packet))
  cases packet with
  | publish dup message msgId =>
      exact sends_of_within rfl (Exchange.handles_within (handles_receive _))
  | pubrel msgId => exact sends_of_within rfl (Exchange.handles_within (handles_receive _))
  | puback msgId rc => exact acknowledged (.puback msgId) msgId rc
  | pubrec msgId rc => exact acknowledged (.pubrec msgId rc) msgId rc
  | pubcomp msgId rc => exact acknowledged (.pubcomp msgId) msgId rc
  | suback msgId qoss => exact complete_sends rfl (.refl _)
  | unsuback msgId => exact complete_sends rfl (.refl _)

theorem publish_sends (final : Final s) {command : QueuedCommand} {rest : List QueuedCommand}
    {message : Session.Message} (queue : s.commands = command :: rest)
    (isPublish : command.request = .publish message) :
    Sends s (MQTTAsyncs.publish { s with commands := rest } command message) := by
  have isQueued : command ∈ s.commands := queue ▸ List.mem_cons_self
  have within := startPublish_within s.c command message
  simp only [MQTTAsyncs.publish]
  generalize MQTTProtocol.startPublish s.c
    (Session.publishPacket s.c.mqttVersion message false command.token) message.qos
    message.retained = started at within
  rcases started with ⟨rc, c⟩
  by_cases qos0 : message.qos = 0
  · have token : command.token = 0 :=
      final.tokens command isQueued (by simp [isPublish, Request.needsMsgId, qos0])
    have frame := @published_frame { s with commands := rest, c := c } command message.qos rc
    simp only [qos0, if_true] at frame ⊢
    refine ⟨?_, fun id => .inl (congrFun frame.2 id)⟩
    rw [frame.1]
    apply within.mono
    intro id isToken
    exact .inl (isToken.trans token)
  · have frame := @published_frame { s with
      commands := rest
      c := c
      owner := Function.update s.owner command.token command.serial } command message.qos rc
    simp only [qos0, if_false]
    refine ⟨?_, fun id => ?_⟩
    · rw [frame.1, frame.2]
      apply within.mono
      rintro id rfl
      exact .inr ⟨command, isQueued, Function.update_self ..⟩
    · rw [frame.2]
      by_cases isToken : id = command.token
      · right
        rw [isToken]
        exact ⟨command, isQueued, Function.update_self ..⟩
      · exact .inl (Function.update_of_ne isToken ..)

theorem processCommand_sends (final : Final s) : Sends s s.processCommand := by
  unfold MQTTAsyncs.processCommand
  split
  · exact sends_of_within rfl (.refl _)
  next command rest queue =>
    have subscribed : Sends s (MQTTAsyncs.subscribe { s with commands := rest } command) := by
      unfold MQTTAsyncs.subscribe
      split
      · exact sends_of_within rfl (.refl _)
      · exact sends_of_within rfl (.refl _)
    split
    · exact sends_of_within rfl (.refl _)
    · simp only
      split
      next message isPublish => exact publish_sends final queue isPublish
      · exact subscribed
      · exact subscribed

theorem step_sends (final : Final s) (call : Lifetime.Call) : Sends s (Lifetime.step s call) := by
  cases call with
  | restart now keys stored => exact sends_of_within rfl (restart_within s now keys)
  | call input =>
      have provided : Final (provide s input) := final.session fun _ => id
      -- what the environment supplies is no part of what is held or sent
      suffices sends : Sends (provide s input) (act (provide s input) input.action) from
        ⟨sends.within, sends.owner⟩
      cases input.action with
      | request request =>
          have frame := @request_frame (provide s input) request
          apply sends_of_within frame.2
          intro fresh
          simp only [frame.1]
          exact .refl _
      | deleteOldest => exact sends_of_within rfl (.refl _)
      | processCommand => exact processCommand_sends provided
      | receive packet =>
          simp only [act]
          split
          · exact receive_sends packet
          · exact sends_of_within rfl (.refl _)
      | retry doRetry => exact resume_sends (internal_act trivial)
      | continueWrite succeeded =>
          have resumed : Sends (provide s input) ((provide s input).resume
              (Session.act (provide s input).c (.continueWrite succeeded))) :=
            resume_sends (internal_act trivial)
          simp only [act]
          split
          · have frame := @writeComplete_frame ((provide s input).resume
              (Session.act (provide s input).c (.continueWrite succeeded))) succeeded
            exact ⟨frame.1 ▸ frame.2 ▸ resumed.within, frame.2 ▸ resumed.owner⟩
          · exact resumed
      | connectionLost => exact resume_sends (internal_act trivial)
      | connect sessionPresent => exact resume_sends (internal_act trivial)
      | disconnect => exact resume_sends (internal_closed _)

/-- A PUBLISH that could not be written stays in flight. -/
theorem publish_refused {command : QueuedCommand} {message : Session.Message}
    (isPublish : command.request = .publish message) (qos : message.qos ≠ 0)
    (fails : (Socket.putdatas s.c.net).1 = .socketError) :
    let s' := MQTTAsyncs.publish s command message
    command.serial ∈ s'.givenUp ∧ ¬Gone s' command.serial := by
  have result := (startPublish_rc s.c
    (Session.publishPacket s.c.mqttVersion message false command.token) message.qos
    message.retained).trans fails
  have started := @exchange_startPublish s.c message command.token (Nat.pos_of_ne_zero qos)
  simp only [MQTTAsyncs.publish] at started ⊢
  generalize MQTTProtocol.startPublish s.c
    (Session.publishPacket s.c.mqttVersion message false command.token) message.qos
    message.retained = after at result started
  rcases after with ⟨rc, c⟩
  simp only at result started
  subst result
  simp only [MQTTAsyncs.published, qos, if_false]
  constructor
  · apply List.mem_filterMap.mpr
    refine ⟨_, List.mem_cons_self, ?_⟩
    simp [Callback.givenUp, isPublish, Request.isPublish, Request.needsMsgId, qos]
  · intro gone
    apply gone_iff.mp gone command.token
    · left
      change command.token ∈ ids c.exchange.outbound
      rw [started, Exchange.sendPublish_outbound, Exchange.start_outbound, ids_append]
      exact List.mem_append_right _ List.mem_cons_self
    · exact Function.update_self ..

theorem processCommand_refused {command : QueuedCommand} (isHead : command ∈ s.commands.head?)
    (isPublish : command.request.isPublish = true)
    (acknowledged : command.request.needsMsgId = true)
    (can : s.canProcess command.request = true)
    (fails : s.c.net.writes.head? = some .socketError) :
    command.serial ∈ s.processCommand.givenUp ∧ ¬Gone s.processCommand command.serial := by
  rcases queue : s.commands with _ | ⟨first, rest⟩
  · simp [queue] at isHead
  have isFirst : first = command := by simpa [queue] using isHead
  subst isFirst
  have error := (putdatas_fails_iff (idle_of_canProcess can)).mpr fails
  cases request : first.request with
  | publish message =>
      have qos : message.qos ≠ 0 := by simpa [request, Request.needsMsgId] using acknowledged
      have refused := @publish_refused { s with commands := rest } first message request qos error
      rw [request] at can
      simpa only [MQTTAsyncs.processCommand, queue, request, can, Bool.not_true, if_false,
        Bool.false_eq_true] using refused
  | subscribe => simp [request, Request.isPublish] at isPublish
  | unsubscribe => simp [request, Request.isPublish] at isPublish

namespace Lifetime

theorem newEvents_eq {s' : MQTTAsyncs} {events : List Event}
    (trace : s'.c.trace = events ++ s.c.trace) : newEvents s s' = events := by
  simp [newEvents, trace]

theorem step_final (final : Final s) {call : Call} (written : PublishWritten s call) :
    Final (step s call) := by
  cases call with
  | call input => exact Responses.step_final final written
  | restart now keys stored => exact restart_final final now keys stored

/-- No step sends a publication that was given up. -/
theorem step_unsent (final : Final s) (call : Call) : ∀ serial ∈ s.givenUp, ∀ id dup rc,
    .sentPublish id dup rc ∈ newEvents s (step s call) → id ≠ 0 →
      (step s call).owner id ≠ serial := by
  intro serial givenUp id dup rc mem notZero
  have sends := step_sends final call
  have queued : ∀ command ∈ s.commands, command.serial ≠ serial := by
    rintro command isQueued rfl
    exact (final.left _ givenUp).2 (List.mem_map_of_mem isQueued)
  have known : s.c.exchange.Holds id ∨ ∃ command ∈ s.commands,
      (step s call).owner id = command.serial := by
    rcases sends.within.sent with ⟨events, trace, sent⟩
    rw [newEvents_eq trace] at mem
    rcases sent id dup rc mem with held | zero | ofCommand
    · exact .inl held
    · exact absurd zero notZero
    · exact .inr ofCommand
  rcases known with held | ⟨command, isQueued, owner⟩
  · rcases sends.owner id with same | ⟨command, isQueued, owner⟩
    · rw [same]
      exact final.gone serial givenUp id held
    · rw [owner]
      exact queued command isQueued
  · rw [owner]
    exact queued command isQueued

/-- The failures that a step leaves behind are final unless a PUBLISH could not be written. -/
theorem failuresFinal_step_iff (final : Final s) (call : Call) :
    FailuresFinal s call ↔ PublishWritten s call := by
  constructor
  · intro failuresFinal
    cases call with
    | restart now keys stored => trivial
    | call input =>
        intro action command isHead isPublish acknowledged can fails
        have refused := @processCommand_refused (provide s input) command isHead isPublish
          acknowledged can fails
        have stepped : step s (.call input) = (provide s input).processCommand := by
          simp only [step, Responses.step, action, act]
        rw [← stepped] at refused
        exact refused.2 (failuresFinal.gone _ refused.1)
  · intro written
    refine ⟨fun serial givenUp => ?_, step_unsent final call⟩
    exact gone_iff.mpr ((step_final final written).gone serial givenUp)

theorem start_final (c : Clients) (maxInflightMessages : Nat) :
    Final (start c maxInflightMessages []) where
  serials := ⟨List.nodup_nil, by simp [start, restoredCommands, serials]⟩
  tokens := by simp [start, restoredCommands]
  pending := by simp [start]
  left := by simp [start, MQTTAsyncs.givenUp]
  gone := by simp [start, MQTTAsyncs.givenUp]

/-- In every run over any number of processes, what is reported as failed is gone for good exactly
when no PUBLISH of QoS 1 or 2 fails to be written. -/
theorem failures_final_run_iff (c : Clients) (maxInflightMessages : Nat) (calls : List Call) :
    Machine.Guarded step FailuresFinal (start c maxInflightMessages []) calls ↔
      Machine.Guarded step PublishWritten (start c maxInflightMessages []) calls := by
  apply @Machine.guarded_congr _ _ step _ _ Final
  · intro s call final failuresFinal
    exact step_final final ((failuresFinal_step_iff final call).mp failuresFinal)
  · exact fun s call final => failuresFinal_step_iff final call
  · exact start_final c maxInflightMessages

/-- The first write of a publication of QoS 1 fails; its message is in flight. -/
theorem not_failures_final_run :
    ¬Machine.Guarded step FailuresFinal
      (start (Session.create mqttVersion311 false (some ∅)) 10 [])
      [.call { action := .connect false },
        .call { action := .request (.publish ⟨[116], [1], 1, false, []⟩) },
        .call { action := .processCommand, writes := [.socketError] }] := by
  rintro ⟨_, _, last, -⟩
  have inFlight := (last.gone 1 (by decide)).inFlight
  revert inFlight
  decide

end Lifetime

end Steps

end Responses

end Paho
