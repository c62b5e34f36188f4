import Paho.Async.Completion
import Paho.Async.FinalFailures
import Paho.Protocol.Cleaning

/-!
# The command of a pending write

`pending_write` points to the command of a publication of QoS 0 whose write was interrupted.
`MQTTAsync_processCommand` sets it before it is known whether the command goes to `responses`, and
what takes a command off `responses` does not look at it.
-/

namespace Paho

namespace Responses

/-- `pending_write` is `NULL` or points to the command of a response. -/
def MQTTAsyncs.Attached (s : MQTTAsyncs) : Prop :=
  ∀ serial ∈ s.pendingWrite, serial ∈ serials s.responses

instance (s : MQTTAsyncs) : Decidable s.Attached :=
  inferInstanceAs (Decidable (∀ _ ∈ s.pendingWrite, _))

/-- The id whose command a packet takes off `responses`. -/
def Packet.answered (mqttVersion : Nat) : Packet → Option Nat
  | .puback msgId _ | .pubcomp msgId _ | .suback msgId _ | .unsuback msgId => some msgId
  | .pubrec msgId rc =>
      if mqttVersion5 ≤ mqttVersion ∧ reasonCodeUnspecifiedError ≤ rc then some msgId else none
  | .publish _ _ _ | .pubrel _ => none

/-- The session is cleaned in this step. -/
def CleansSession (c : Clients) (input : Input) : Prop :=
  match input.action with
  | .retry doRetry => c.RetryCloses input.now doRetry ∧ c.DiscardsOnClose
  | .connectionLost => c.connected = true ∧ c.DiscardsOnClose
  | .connect sessionPresent =>
      c.connected = false ∧
        (¬Session.KeepsSession c sessionPresent ∨ (c.ConnectCloses ∧ c.DiscardsOnClose))
  | .disconnect => ¬c.KeepsOnClose
  | _ => False

/-- The step does not take away the command of a pending write: no publication of QoS 0 is met
with a write that fails, no packet answers the command of the pending write, and no session is
cleaned while a write is pending. -/
def KeepsPending (s : MQTTAsyncs) (input : Input) : Prop :=
  match input.action with
  | .processCommand =>
      ∀ command ∈ s.commands.head?, command.request.isPublish = true →
        command.request.needsMsgId = false → s.canProcess command.request = true →
          input.writes.head? ≠ some .socketError
  | .receive packet =>
      s.c.connected = true → ∀ msgId ∈ packet.answered s.c.mqttVersion,
        ∀ command ∈ s.responses.find? (·.token == msgId), s.pendingWrite ≠ some command.serial
  | _ => s.pendingWrite ≠ none → ¬CleansSession (provide s input).c input

/-! ## The numbers of the commands -/

/-- No number stands for two commands. -/
def MQTTAsyncs.Numbered (s : MQTTAsyncs) : Prop :=
  GivenOut s.accepted (serials s.commands ++ serials s.responses)

/-- No command comes in, and none is doubled. -/
structure Shrinks (s s' : MQTTAsyncs) : Prop where
  accepted : s'.accepted = s.accepted
  commands : (s'.commands ++ s'.responses).Subperm (s.commands ++ s.responses)

namespace Shrinks

variable {s s' s'' : MQTTAsyncs}

theorem of_eq (accepted : s'.accepted = s.accepted) (commands : s'.commands = s.commands)
    (responses : s'.responses = s.responses) : Shrinks s s' where
  accepted := accepted
  commands := by
    rw [commands, responses]

theorem trans (first : Shrinks s s') (second : Shrinks s' s'') : Shrinks s s'' where
  accepted := second.accepted.trans first.accepted
  commands := second.commands.trans first.commands

theorem numbered (shrinks : Shrinks s s') (numbered : s.Numbered) : s'.Numbered := by
  unfold MQTTAsyncs.Numbered at numbered ⊢
  rw [shrinks.accepted]
  apply numbered.of_count
  intro n
  rcases shrinks.commands with ⟨moved, perm, sublist⟩
  have same := (perm.map QueuedCommand.serial).count_eq n
  have fewer := (sublist.map QueuedCommand.serial).count_le n
  simp only [serials, ← List.map_append]
  omega

theorem complete (s : MQTTAsyncs) (msgId : Nat) (callback : QueuedCommand → Callback) :
    Shrinks s (s.complete msgId callback) := by
  unfold MQTTAsyncs.complete
  split
  · exact ⟨rfl, (List.eraseP_sublist.append_left s.commands).subperm⟩
  · exact .of_eq rfl rfl rfl

theorem resume (s : MQTTAsyncs) (c : Clients) : Shrinks s (s.resume c) := by
  unfold MQTTAsyncs.resume
  split
  · exact ⟨rfl, ((List.nil_sublist s.responses).append_left s.commands).subperm⟩
  · exact .of_eq rfl rfl rfl

theorem writeComplete (s : MQTTAsyncs) (succeeded : Bool) :
    Shrinks s (s.writeComplete succeeded) := by
  have erased (command : QueuedCommand) :
      (s.commands ++ s.responses.erase command).Subperm (s.commands ++ s.responses) :=
    (List.erase_sublist.append_left s.commands).subperm
  unfold MQTTAsyncs.writeComplete
  split
  · exact .of_eq rfl rfl rfl
  · simp only
    split
    · split
      · split
        · split
          · exact ⟨rfl, erased _⟩
          · exact .of_eq rfl rfl rfl
        · exact ⟨rfl, erased _⟩
      · exact ⟨rfl, erased _⟩
    · exact .of_eq rfl rfl rfl

theorem handleAck (s : MQTTAsyncs) (packet : Session.Packet) (msgId rc : Nat) :
    Shrinks s (s.handleAck packet msgId rc) := by
  unfold MQTTAsyncs.handleAck
  simp only
  split
  · exact .of_eq rfl rfl rfl
  · apply Shrinks.trans _ (complete ..)
    exact .of_eq rfl rfl rfl

theorem receive (s : MQTTAsyncs) (packet : Packet) : Shrinks s (s.receive packet) := by
  cases packet with
  | publish dup message msgId => exact .of_eq rfl rfl rfl
  | pubrel msgId => exact .of_eq rfl rfl rfl
  | puback msgId rc => exact handleAck s (.puback msgId) msgId rc
  | pubrec msgId rc => exact handleAck s (.pubrec msgId rc) msgId rc
  | pubcomp msgId rc => exact handleAck s (.pubcomp msgId) msgId rc
  | suback msgId qoss => exact complete ..
  | unsuback msgId => exact complete ..

/-- A command leaves the queue, for `responses` if anywhere. -/
theorem dequeue {command : QueuedCommand} {rest : List QueuedCommand}
    (queue : s.commands = command :: rest) (accepted : s'.accepted = s.accepted)
    (commands : s'.commands = rest)
    (responses : s'.responses = s.responses ∨ s'.responses = s.responses ++ [command]) :
    Shrinks s s' where
  accepted := accepted
  commands := by
    rw [commands, queue]
    rcases responses with same | added
    · rw [same]
      exact (List.sublist_cons_self command _).subperm
    · rw [added, ← List.append_assoc]
      exact (List.perm_append_singleton command _).subperm

theorem published (s : MQTTAsyncs) (command : QueuedCommand) (qos : Nat) (rc : CompletionCode) :
    (s.published command qos rc).accepted = s.accepted ∧
      (s.published command qos rc).commands = s.commands ∧
      ((s.published command qos rc).responses = s.responses ∨
        (s.published command qos rc).responses = s.responses ++ [command]) := by
  by_cases qos0 : qos = 0
  · cases rc with
    | complete =>
        simp only [MQTTAsyncs.published, qos0, if_true]
        exact ⟨rfl, rfl, .inl rfl⟩
    | interrupted =>
        simp only [MQTTAsyncs.published, qos0, if_true]
        exact ⟨rfl, rfl, .inr rfl⟩
    | socketError =>
        simp only [MQTTAsyncs.published, qos0, if_true]
        exact ⟨rfl, rfl, .inl rfl⟩
  · cases rc with
    | complete =>
        simp only [MQTTAsyncs.published, qos0, if_false]
        exact ⟨rfl, rfl, .inr rfl⟩
    | interrupted =>
        simp only [MQTTAsyncs.published, qos0, if_false]
        exact ⟨rfl, rfl, .inr rfl⟩
    | socketError =>
        simp only [MQTTAsyncs.published, qos0, if_false]
        exact ⟨rfl, rfl, .inl rfl⟩

theorem processCommand (s : MQTTAsyncs) : Shrinks s s.processCommand := by
  unfold MQTTAsyncs.processCommand
  split
  · exact .of_eq rfl rfl rfl
  next command rest queue =>
    have subscribed :
        Shrinks s (MQTTAsyncs.subscribe { s with commands := rest } command) := by
      unfold MQTTAsyncs.subscribe
      split
      · exact dequeue queue rfl rfl (.inl rfl)
      · exact dequeue queue rfl rfl (.inr rfl)
    split
    · exact .of_eq rfl rfl rfl
    · simp only
      split
      next message _ =>
        unfold MQTTAsyncs.publish
        simp only
        rcases published { s with
            commands := rest
            c := (MQTTProtocol.startPublish s.c (Session.publishPacket s.c.mqttVersion message false
              command.token) message.qos message.retained).2
            owner := if message.qos = 0 then s.owner
              else Function.update s.owner command.token command.serial } command message.qos
          (MQTTProtocol.startPublish s.c (Session.publishPacket s.c.mqttVersion message false
            command.token) message.qos message.retained).1 with ⟨accepted, commands, responses⟩
        exact dequeue queue accepted commands responses
      · exact subscribed
      · exact subscribed

end Shrinks

section Steps

variable {s : MQTTAsyncs}

/-- A request is refused, or its command gets the next number. -/
theorem request_cases (s : MQTTAsyncs) (request : Request) :
    (s.request request).responses = s.responses ∧
      (s.request request).pendingWrite = s.pendingWrite ∧
      (((s.request request).accepted = s.accepted ∧
          (s.request request).commands = s.commands) ∨
        ((s.request request).accepted = s.accepted + 1 ∧
          ∃ token, (s.request request).commands =
          s.commands ++ [⟨request, token, s.accepted⟩])) := by
  unfold MQTTAsyncs.request
  split
  · exact ⟨rfl, rfl, .inl ⟨rfl, rfl⟩⟩
  · split
    · split
      · exact ⟨rfl, rfl, .inl ⟨rfl, rfl⟩⟩
      next msgid after assigned =>
        rcases Consistent.assignMsgId_spec assigned with ⟨rfl, rfl⟩ | ⟨positive, _, rfl⟩
        · exact ⟨rfl, rfl, .inl ⟨rfl, rfl⟩⟩
        · rw [if_neg (Nat.pos_iff_ne_zero.mp positive)]
          exact ⟨rfl, rfl, .inr ⟨rfl, msgid, rfl⟩⟩
    · exact ⟨rfl, rfl, .inr ⟨rfl, 0, rfl⟩⟩

theorem request_numbered (numbered : s.Numbered) (request : Request) :
    (s.request request).Numbered := by
  rcases request_cases s request with ⟨responses, -, same | ⟨accepted, token, commands⟩⟩
  · exact (Shrinks.of_eq same.1 same.2 responses).numbered numbered
  · unfold MQTTAsyncs.Numbered
    rw [accepted]
    apply GivenOut.push numbered
    intro n
    simp only [commands, responses, serials, List.map_append, List.map_cons, List.map_nil,
      List.count_append, List.count_cons, List.count_nil]
    omega

theorem step_numbered (numbered : s.Numbered) (input : Input) : (step s input).Numbered := by
  have provided : (provide s input).Numbered := numbered
  unfold Responses.step
  cases input.action with
  | request request => exact request_numbered provided request
  | deleteOldest =>
      have shrinks : Shrinks (provide s input) (provide s input).deleteOldest :=
        ⟨rfl, (List.eraseP_sublist.append_right _).subperm⟩
      exact shrinks.numbered provided
  | processCommand => exact (Shrinks.processCommand _).numbered provided
  | receive packet =>
      simp only [act]
      split
      · exact (Shrinks.receive _ packet).numbered provided
      · exact provided
  | retry doRetry => exact (Shrinks.resume _ _).numbered provided
  | continueWrite succeeded =>
      have resumed := (Shrinks.resume (provide s input)
        (Session.act (provide s input).c (.continueWrite succeeded))).numbered provided
      simp only [act]
      split
      · exact (Shrinks.writeComplete _ succeeded).numbered resumed
      · exact resumed
  | connectionLost => exact (Shrinks.resume _ _).numbered provided
  | connect sessionPresent => exact (Shrinks.resume _ _).numbered provided
  | disconnect => exact (Shrinks.resume _ _).numbered provided

/-! ## What a step does to the pending write -/

theorem Attached.of_eq {s' : MQTTAsyncs} (responses : s'.responses = s.responses)
    (pendingWrite : s'.pendingWrite = s.pendingWrite) : s'.Attached ↔ s.Attached := by
  unfold MQTTAsyncs.Attached
  rw [responses, pendingWrite]

theorem cleaned_iff (before after : Clients) :
    MQTTAsyncs.cleaned before after = true ↔ before.cleanings < after.cleanings := by
  simp [MQTTAsyncs.cleaned, Clients.cleanings]

/-- Cleaning the session detaches the command of a pending write. -/
theorem attached_resume (attached : s.Attached) (c : Clients) :
    (s.resume c).Attached ↔ (s.pendingWrite ≠ none → ¬s.c.cleanings < c.cleanings) := by
  rw [← cleaned_iff]
  unfold MQTTAsyncs.resume
  split
  next cleaned =>
    simp only [cleaned, not_true_eq_false, imp_false, not_not]
    cases pending : s.pendingWrite with
    | none => simp [MQTTAsyncs.Attached, MQTTAsyncs.freeResponses, pending]
    | some serial => simp [MQTTAsyncs.Attached, MQTTAsyncs.freeResponses, pending, serials]
  next kept =>
    simp only [kept, Bool.false_eq_true, not_false_eq_true, implies_true, iff_true]
    exact attached

/-- A response that is completed is detached from the pending write if it is its command. -/
theorem attached_complete (numbered : s.Numbered) (attached : s.Attached) (msgId : Nat)
    (callback : QueuedCommand → Callback) :
    (s.complete msgId callback).Attached ↔
      ∀ command ∈ s.responses.find? (·.token == msgId), s.pendingWrite ≠ some command.serial := by
  unfold MQTTAsyncs.complete
  split
  next command found =>
    have distinct : (serials s.responses).Nodup := (List.nodup_append.mp numbered.nodup).2.1
    have detached := (perm_detached found).map QueuedCommand.serial
    rw [List.map_cons] at detached
    have apart := List.nodup_cons.mp (detached.nodup_iff.mp distinct)
    simp only [found, Option.mem_def, Option.some.injEq, forall_eq']
    constructor
    · intro still pending
      exact apart.1 (still command.serial pending)
    · intro other serial pending
      have waits : serial ∈ s.responses.map QueuedCommand.serial := attached serial pending
      rcases List.mem_cons.mp (detached.mem_iff.mp waits) with same | rest
      · exact absurd (same ▸ pending) other
      · exact rest
  next absent =>
    simp only [absent, Option.mem_def, reduceCtorEq, false_implies, implies_true, iff_true]
    exact attached

theorem attached_receive (numbered : s.Numbered) (attached : s.Attached) (packet : Packet) :
    (s.receive packet).Attached ↔ ∀ msgId ∈ packet.answered s.c.mqttVersion,
      ∀ command ∈ s.responses.find? (·.token == msgId), s.pendingWrite ≠ some command.serial := by
  have acknowledged (packet : Session.Packet) (msgId : Nat) (callback) :
      ((({ s with c := Session.receive s.c packet }).call (.deliveryComplete msgId
        (s.removed (Session.receive s.c packet) msgId))).complete msgId callback).Attached ↔
        ∀ command ∈ s.responses.find? (·.token == msgId),
          s.pendingWrite ≠ some command.serial := by
    refine attached_complete ?_ ?_ msgId callback
    · exact numbered
    · exact attached
  cases packet with
  | publish dup message msgId =>
      simp only [Packet.answered, Option.mem_def, reduceCtorEq, false_implies, implies_true,
        iff_true]
      exact attached
  | pubrel msgId =>
      simp only [Packet.answered, Option.mem_def, reduceCtorEq, false_implies, implies_true,
        iff_true]
      exact attached
  | puback msgId rc =>
      simp only [Packet.answered, Option.mem_def, Option.some.injEq, forall_eq']
      exact acknowledged (.puback msgId) msgId _
  | pubcomp msgId rc =>
      simp only [Packet.answered, Option.mem_def, Option.some.injEq, forall_eq']
      exact acknowledged (.pubcomp msgId) msgId _
  | pubrec msgId rc =>
      simp only [MQTTAsyncs.receive, MQTTAsyncs.handleAck, Packet.answered, MQTTAsyncs.ackrc]
      by_cases version : mqttVersion5 ≤ s.c.mqttVersion
      · by_cases error : reasonCodeUnspecifiedError ≤ rc
        · simp only [version, error, MQTTAsyncs.isPubrec, decide_true, Bool.not_true,
            Bool.and_false,
            Bool.false_eq_true, if_true, if_false, and_self, Option.mem_def, Option.some.injEq,
            forall_eq']
          exact acknowledged (.pubrec msgId rc) msgId _
        · simp only [version, error, MQTTAsyncs.isPubrec, decide_false, Bool.not_false, if_true,
            if_false, and_false, Bool.and_self, Option.mem_def, reduceCtorEq, false_implies,
            implies_true, iff_true]
          exact attached
      · have positive : ¬reasonCodeUnspecifiedError ≤ 0 := by decide
        simp only [version, positive, MQTTAsyncs.isPubrec, decide_false, Bool.not_false, if_true,
          if_false, false_and, Bool.and_self, Option.mem_def, reduceCtorEq, false_implies,
          implies_true, iff_true]
        exact attached
  | suback msgId qoss =>
      simp only [Packet.answered, Option.mem_def, Option.some.injEq, forall_eq']
      exact attached_complete numbered attached msgId _
  | unsuback msgId =>
      simp only [Packet.answered, Option.mem_def, Option.some.injEq, forall_eq']
      exact attached_complete numbered attached msgId _

/-- A completed write leaves no write pending. -/
theorem attached_writeComplete (s : MQTTAsyncs) (succeeded : Bool) :
    (s.writeComplete succeeded).Attached := by
  have stopped : (s.writeComplete succeeded).pendingWrite = none := by
    unfold MQTTAsyncs.writeComplete
    split
    next idle => exact idle
    · simp only
      split
      · split
        · split
          · split <;> rfl
          · rfl
        · rfl
      · rfl
  simp [MQTTAsyncs.Attached, stopped]

/-- What `MQTTAsync_processCommand` does with a PUBLISH, for the pending write. -/
theorem attached_publish (attached : s.Attached) {command : QueuedCommand}
    {message : Session.Message} (absent : command.serial ∉ serials s.responses) :
    (s.publish command message).Attached ↔
      (message.qos = 0 → (Socket.putdatas s.c.net).1 ≠ .socketError) := by
  have result := startPublish_rc s.c
    (Session.publishPacket s.c.mqttVersion message false command.token) message.qos message.retained
  have waits (s' : MQTTAsyncs) (responses : s'.responses = s.responses ++ [command])
      (pending : s'.pendingWrite = s.pendingWrite ∨ s'.pendingWrite = some command.serial) :
      s'.Attached := by
    intro serial isPending
    rw [responses, serials, List.map_append, List.mem_append]
    rcases pending with same | isCommand
    · rw [same] at isPending
      exact .inl (attached serial isPending)
    · rw [isCommand] at isPending
      cases isPending
      exact .inr List.mem_cons_self
  unfold MQTTAsyncs.publish
  simp only
  rw [result]
  by_cases qos0 : message.qos = 0
  · simp only [qos0, forall_const]
    cases (Socket.putdatas s.c.net).1 with
    | complete =>
        simp only [MQTTAsyncs.published, if_true, ne_eq, reduceCtorEq, not_false_eq_true, iff_true]
        exact attached
    | interrupted =>
        simp only [MQTTAsyncs.published, if_true, ne_eq, reduceCtorEq, not_false_eq_true, iff_true]
        exact waits _ rfl (.inr rfl)
    | socketError =>
        simp only [MQTTAsyncs.published, if_true, ne_eq, not_true_eq_false, iff_false]
        exact fun still => absent (still command.serial rfl)
  · simp only [qos0, false_implies, iff_true]
    cases (Socket.putdatas s.c.net).1 with
    | complete =>
        simp only [MQTTAsyncs.published, qos0, if_false]
        exact waits _ rfl (.inl rfl)
    | interrupted =>
        simp only [MQTTAsyncs.published, qos0, if_false]
        exact waits _ rfl (.inl rfl)
    | socketError =>
        simp only [MQTTAsyncs.published, qos0, if_false]
        exact attached

theorem attached_subscribe (attached : s.Attached) (command : QueuedCommand) :
    (s.subscribe command).Attached := by
  unfold MQTTAsyncs.subscribe
  split
  · exact attached
  · intro serial isPending
    exact List.mem_map.mpr ((List.mem_map.mp (attached serial isPending)).imp
      fun _ waits => ⟨List.mem_append_left _ waits.1, waits.2⟩)

theorem attached_processCommand (numbered : s.Numbered) (attached : s.Attached) :
    s.processCommand.Attached ↔
      ∀ command ∈ s.commands.head?, command.request.isPublish = true →
        command.request.needsMsgId = false → s.canProcess command.request = true →
          s.c.net.writes.head? ≠ some .socketError := by
  unfold MQTTAsyncs.processCommand
  split
  next queue =>
    simp only [queue, List.head?_nil, Option.mem_def, reduceCtorEq, false_implies, implies_true,
      iff_true]
    exact attached
  next command rest queue =>
    simp only [queue, List.head?_cons, Option.mem_def, Option.some.injEq, forall_eq']
    cases can : s.canProcess command.request with
    | false =>
        simp only [Bool.not_false, if_true, Bool.false_eq_true, false_implies, implies_true,
          iff_true]
        exact attached
    | true =>
        simp only [Bool.not_true, Bool.false_eq_true, if_false, forall_const]
        have absent : command.serial ∉ serials s.responses := by
          intro waits
          have distinct := List.nodup_append.mp numbered.nodup
          apply distinct.2.2 _ _ _ waits rfl
          rw [queue]
          exact List.mem_cons_self
        have idle := idle_of_canProcess can
        cases request : command.request with
        | publish message =>
            have published := @attached_publish { s with commands := rest } attached command message
              absent
            simp only [ne_eq, putdatas_fails_iff idle] at published
            simpa [Request.isPublish, Request.needsMsgId] using published
        | subscribe =>
            simp only [Request.isPublish, Bool.false_eq_true, false_implies, iff_true]
            exact @attached_subscribe { s with commands := rest } attached command
        | unsubscribe =>
            simp only [Request.isPublish, Bool.false_eq_true, false_implies, iff_true]
            exact @attached_subscribe { s with commands := rest } attached command

/-- A step keeps the command of the pending write among the responses exactly when it meets the
condition. -/
theorem attached_step_iff (numbered : s.Numbered) (attached : s.Attached) (input : Input) :
    (step s input).Attached ↔ KeepsPending s input := by
  have provided : (provide s input).Attached := attached
  unfold Responses.step KeepsPending CleansSession
  cases input.action with
  | request request =>
      rcases request_cases (provide s input) request with ⟨responses, pendingWrite, -⟩
      simp only [not_false_eq_true, implies_true, iff_true]
      exact (Attached.of_eq responses pendingWrite).mpr provided
  | deleteOldest =>
      simp only [not_false_eq_true, implies_true, iff_true]
      exact provided
  | processCommand => exact @attached_processCommand (provide s input) numbered provided
  | receive packet =>
      simp only [act]
      split
      next connected =>
        simp only [show s.c.connected = true from connected, forall_const]
        exact @attached_receive (provide s input) numbered provided packet
      next closed =>
        have off : s.c.connected = false := Bool.eq_false_iff.mpr closed
        simp only [off, Bool.false_eq_true, false_implies, iff_true]
        exact provided
  | retry doRetry =>
      refine (attached_resume provided _).trans ?_
      rw [show Session.act (provide s input).c (.retry doRetry) =
        MQTTProtocol.retry input.now doRetry false (provide s input).c from rfl, retry_cleanings]
      rfl
  | continueWrite succeeded =>
      simp only [not_false_eq_true, implies_true, iff_true, act]
      split
      · apply attached_writeComplete
      next idle =>
        refine (attached_resume provided _).mpr fun _ => ?_
        simp [Session.act, idle]
  | connectionLost =>
      refine (attached_resume provided _).trans ?_
      simp only [Session.act]
      split
      next connected =>
        rw [cleanings_closeSession]
        simp only [connected, true_and]
        rfl
      next closed => simp [closed]
  | connect sessionPresent =>
      refine (attached_resume provided _).trans ?_
      simp only [Session.act]
      split
      next connected => simp [connected]
      next closed =>
        rw [completeConnection_cleanings]
        simp only [closed, true_and]
        rfl
  | disconnect =>
      refine (attached_resume provided _).trans ?_
      rw [cleanings_asyncCloseSession]
      rfl

end Steps

/-- In every run the pending write points to the command of a response, or to nothing, in all
states exactly when every step meets the condition. -/
theorem attached_run_iff (c : Clients) (maxInflightMessages : Nat) (restored : List (Request × Nat))
    (inputs : List Input) :
    (∀ front back : List Input, inputs = front ++ back →
        (Machine.run step (start c maxInflightMessages restored) front).Attached) ↔
      Machine.Guarded step KeepsPending (start c maxInflightMessages restored) inputs := by
  apply @Machine.always_iff_guarded _ _ step KeepsPending MQTTAsyncs.Numbered MQTTAsyncs.Attached
  · exact fun s input numbered => step_numbered numbered input
  · exact fun s input numbered attached => attached_step_iff numbered attached input
  · unfold MQTTAsyncs.Numbered
    rw [show serials (start c maxInflightMessages restored).commands = _ from
      serials_restoredCommands _,
        show (start c maxInflightMessages restored).responses = [] from rfl]
    refine ⟨by simpa [serials] using List.nodup_range' .., fun n mem => ?_⟩
    simp only [serials, List.map_nil, List.append_nil, List.mem_range'_1] at mem
    simp only [start]
    omega
  · simp [MQTTAsyncs.Attached, start]

/-- The write of a publication of QoS 0 is interrupted, and the server has no session at the next
connection. -/
theorem not_attached_run :
    ¬∀ front back : List Input,
      [{ action := .connect true }, { action := .request (.publish ⟨[116], [1], 0, false, []⟩) },
        { action := .processCommand, writes := [.interrupted] }, { action := .connectionLost },
        { action := .connect false }] = front ++ back →
      (Machine.run step (start (Session.create mqttVersion311 false none) 10 [])
        front).Attached := by
  intro always
  have last := always _ [] (List.append_nil _).symm
  revert last
  decide

end Responses

end Paho
