import Paho.Async.Consistency

/-!
# Publications are completed once and truthfully

The handlers of acknowledgements look at the state of the message, the callbacks only at the id
of the packet. A run reports completions truthfully exactly when every acknowledgement that
reaches the callbacks ends the exchange of a message, and every SUBACK and UNSUBACK answers a
command of its kind.
-/

namespace Paho

namespace Responses

section Restoring

variable {commands : List (Request × Nat)}

theorem serials_restoredCommands (first : Nat) :
    serials (restoredCommands first commands) = List.range' first commands.length := by
  induction commands generalizing first with
  | nil => rfl
  | cons command rest ih =>
      rw [List.length_cons, List.range'_succ, ← ih]
      rfl

theorem tokens_restoredCommands (first : Nat) :
    tokens (restoredCommands first commands) = (commands.map Prod.snd).filter (0 < ·) := by
  unfold tokens
  apply congrArg (List.filter _)
  induction commands generalizing first with
  | nil => rfl
  | cons command rest ih =>
      simp only [restoredCommands, List.map_cons, ih]

theorem mem_restoredCommands {first : Nat} {command : QueuedCommand}
    (mem : command ∈ restoredCommands first commands) :
    (command.request, command.token) ∈ commands := by
  induction commands generalizing first with
  | nil => cases mem
  | cons head rest ih =>
      rcases List.mem_cons.mp mem with rfl | mem
      · exact List.mem_cons_self
      · exact List.mem_cons_of_mem _ (ih mem)

theorem le_foldr_max {n : Nat} {numbers : List Nat} (mem : n ∈ numbers) :
    n ≤ numbers.foldr max 0 := by
  induction numbers with
  | nil => cases mem
  | cons first rest ih =>
      rw [List.foldr_cons]
      rcases List.mem_cons.mp mem with rfl | mem
      · exact Nat.le_max_left ..
      · exact (ih mem).trans (Nat.le_max_right ..)

/-- What the process restores is consistent. -/
theorem Restored.consistent {c : Clients} (restored : Restored c commands)
    (maxInflightMessages : Nat) : Consistent (start c maxInflightMessages commands) where
  wellFormed := restored.wellFormed
  tokens := by
    have distinct := restored.tokens
    rw [← tokens_restoredCommands ((ids c.outboundMsgs).foldr max 0 + 1)] at distinct
    exact (List.append_nil _).symm ▸ distinct
  unused := fun command mem => restored.unused _ (mem_restoredCommands mem)
  valid := fun command mem =>
    ⟨restored.qos _ (mem_restoredCommands mem), restored.positive _ (mem_restoredCommands mem)⟩
  matched := by
    intro command mem
    cases mem
  succeeded := by
    have all : serials (start c maxInflightMessages commands).commands ++
        serials (start c maxInflightMessages commands).responses ++
        (start c maxInflightMessages commands).callbacks.filterMap Callback.succeeded =
        List.range' ((ids c.outboundMsgs).foldr max 0 + 1) commands.length := by
      rw [← serials_restoredCommands]
      simp [start, serials]
    rw [all]
    constructor
    · exact List.nodup_range' ..
    · intro n mem
      have := List.mem_range'_1.mp mem
      simp only [start]
      omega
  delivered := by
    have distinct := restored.wellFormed.distinct
    rw [show ids c.exchange.outbound = ids c.outboundMsgs from ids_map_untouched] at distinct
    have owners : (start c maxInflightMessages commands).owners = ids c.outboundMsgs :=
      List.map_id _
    have serial : serials (start c maxInflightMessages commands).commands =
        List.range' ((ids c.outboundMsgs).foldr max 0 + 1) commands.length :=
      serials_restoredCommands _
    constructor
    · rw [owners, serial]
      simp only [start, List.filterMap_nil, List.append_nil]
      apply List.nodup_append.mpr
      refine ⟨List.nodup_range' .., distinct, ?_⟩
      intro n isSerial id inFlight
      have := List.mem_range'_1.mp isSerial
      have := le_foldr_max inFlight
      omega
    · intro n mem
      rw [owners, serial] at mem
      simp only [start, List.filterMap_nil, List.append_nil, List.mem_append] at mem ⊢
      rcases mem with isSerial | inFlight
      · have := List.mem_range'_1.mp isSerial
        omega
      · have := le_foldr_max inFlight
        omega
  truthful := by
    intro callback mem
    cases mem

end Restoring

section Unexpected

variable {s : MQTTAsyncs}

theorem complete_callbacks (msgId : Nat) (callback : QueuedCommand → Callback) :
    s.callbacks <:+ (s.complete msgId callback).callbacks := by
  unfold MQTTAsyncs.complete
  split
  · exact List.suffix_cons _ _
  · exact List.suffix_refl _

theorem resume_callbacks (c : Clients) : s.callbacks <:+ (s.resume c).callbacks := by
  unfold MQTTAsyncs.resume
  split
  · exact List.suffix_append _ _
  · exact List.suffix_refl _

theorem request_callbacks (request : Request) :
    s.callbacks <:+ (s.request request).callbacks := by
  unfold MQTTAsyncs.request
  split
  · exact List.suffix_refl _
  · split
    · split
      · exact List.suffix_refl _
      next msgid after assigned =>
        have same : after.callbacks = s.callbacks := by
          rcases Consistent.assignMsgId_spec assigned with ⟨_, rfl⟩ | ⟨_, _, rfl⟩ <;> rfl
        rw [← same]
        split <;> exact List.suffix_refl _
    · exact List.suffix_refl _

theorem published_callbacks (command : QueuedCommand) (qos : Nat) (rc : CompletionCode) :
    s.callbacks <:+ (s.published command qos rc).callbacks := by
  cases rc with
  | complete =>
      unfold MQTTAsyncs.published
      dsimp only
      split
      · exact List.suffix_cons _ _
      · exact List.suffix_refl _
  | interrupted =>
      unfold MQTTAsyncs.published
      dsimp only
      split <;> exact List.suffix_refl _
  | socketError =>
      unfold MQTTAsyncs.published
      dsimp only
      split <;> exact List.suffix_cons _ _

theorem processCommand_callbacks : s.callbacks <:+ s.processCommand.callbacks := by
  unfold MQTTAsyncs.processCommand
  split
  · exact List.suffix_refl _
  next command rest _ =>
    have subscribed :
        s.callbacks <:+ (MQTTAsyncs.subscribe { s with commands := rest } command).callbacks := by
      unfold MQTTAsyncs.subscribe
      split
      · exact List.suffix_cons _ _
      · exact List.suffix_refl _
    split
    · exact List.suffix_refl _
    · dsimp only
      split
      next message _ =>
        have published (s : MQTTAsyncs) :
            s.callbacks <:+ (s.publish command message).callbacks := by
          unfold MQTTAsyncs.publish
          dsimp only
          apply List.IsSuffix.trans _ (published_callbacks ..)
          exact List.suffix_refl _
        exact published { s with commands := rest }
      · exact subscribed
      · exact subscribed

theorem handleAck_callbacks (packet : Session.Packet) (msgId rc : Nat) :
    s.callbacks <:+ (s.handleAck packet msgId rc).callbacks := by
  unfold MQTTAsyncs.handleAck
  dsimp only
  split
  · exact List.suffix_refl _
  · apply List.IsSuffix.trans _ (complete_callbacks ..)
    exact List.suffix_cons _ _

theorem receive_callbacks (packet : Packet) : s.callbacks <:+ (s.receive packet).callbacks := by
  cases packet with
  | publish dup message msgId => exact List.suffix_refl _
  | pubrel msgId => exact List.suffix_refl _
  | puback msgId rc => exact handleAck_callbacks ..
  | pubrec msgId rc => exact handleAck_callbacks ..
  | pubcomp msgId rc => exact handleAck_callbacks ..
  | suback msgId qoss => exact complete_callbacks ..
  | unsuback msgId => exact complete_callbacks ..

theorem writeComplete_callbacks (succeeded : Bool) :
    s.callbacks <:+ (s.writeComplete succeeded).callbacks := by
  unfold MQTTAsyncs.writeComplete
  split
  · exact List.suffix_refl _
  · dsimp only
    split
    · split
      · split
        · split
          · exact List.suffix_cons _ _
          · exact List.suffix_refl _
        · exact List.suffix_cons _ _
      · exact List.suffix_refl _
    · exact List.suffix_refl _

/-- Callbacks cannot be taken back. -/
theorem step_callbacks (input : Input) : s.callbacks <:+ (step s input).callbacks := by
  have provided : (provide s input).callbacks = s.callbacks := rfl
  unfold step
  rw [← provided]
  generalize provide s input = s
  cases input.action with
  | request request => exact request_callbacks request
  | deleteOldest => exact List.suffix_refl _
  | processCommand => exact processCommand_callbacks
  | receive packet =>
      unfold act
      dsimp only
      split
      · exact receive_callbacks packet
      · exact List.suffix_refl _
  | retry doRetry => exact resume_callbacks _
  | continueWrite succeeded =>
      unfold act
      dsimp only
      split
      · exact (resume_callbacks _).trans (writeComplete_callbacks _)
      · exact resume_callbacks _
  | connectionLost => exact resume_callbacks _
  | connect sessionPresent => exact resume_callbacks _
  | disconnect => exact resume_callbacks _

theorem run_callbacks (inputs : List Input) :
    s.callbacks <:+ (Machine.run step s inputs).callbacks := by
  induction inputs generalizing s with
  | nil => exact List.suffix_refl _
  | cons input inputs ih => exact (step_callbacks input).trans ih

/-- An acknowledgement that reaches the callbacks and ends no exchange is reported as a completed
delivery. -/
theorem handleAck_untruthful {packet : Session.Packet} {msgId rc : Nat}
    (outbound : (∃ id, packet = .puback id) ∨ (∃ id rc, packet = .pubrec id rc) ∨
      ∃ id, packet = .pubcomp id)
    (continues : Paho.MQTTAsyncs.ends s.c.mqttVersion s.c.outboundMsgs packet = none)
    (reaches : ∀ id code, packet = .pubrec id code → reasonCodeUnspecifiedError ≤ s.ackrc rc) :
    ∃ callback ∈ (s.handleAck packet msgId rc).callbacks, ¬callback.Truthful := by
  have kept : ids (Session.receive s.c packet).outboundMsgs = ids s.c.outboundMsgs := by
    have received := ids_receive (c := s.c) outbound
    rwa [continues] at received
  have notRemoved : s.removed (Session.receive s.c packet) msgId = none := by
    unfold MQTTAsyncs.removed
    apply if_neg
    rw [kept]
    exact fun gone => gone.2 gone.1
  refine ⟨.deliveryComplete msgId none, ?_, by simp [Callback.Truthful]⟩
  unfold MQTTAsyncs.handleAck
  dsimp only
  rw [notRemoved]
  split
  next silent =>
    rcases outbound with ⟨id, rfl⟩ | ⟨id, code, rfl⟩ | ⟨id, rfl⟩
    · simp [MQTTAsyncs.isPubrec] at silent
    · simp [reaches id code rfl] at silent
    · simp [MQTTAsyncs.isPubrec] at silent
  · exact (complete_callbacks ..).subset List.mem_cons_self

/-- An answer to a command of another kind. -/
theorem complete_untruthful {msgId : Nat} {callback : QueuedCommand → Callback}
    {command : QueuedCommand} (found : s.responses.find? (·.token == msgId) = some command)
    (untruthful : ¬(callback command).Truthful) :
    ∃ called ∈ (s.complete msgId callback).callbacks, ¬called.Truthful := by
  refine ⟨callback command, ?_, untruthful⟩
  unfold MQTTAsyncs.complete
  rw [found]
  exact List.mem_cons_self

theorem receive_untruthful {packet : Packet} (unexpected : ¬Expected s packet) :
    ∃ callback ∈ (s.receive packet).callbacks, ¬callback.Truthful := by
  cases packet with
  | publish dup message msgId => exact absurd (fun _ isAck => by cases isAck) unexpected
  | pubrel msgId => exact absurd (fun _ isAck => by cases isAck) unexpected
  | puback msgId rc =>
      apply handleAck_untruthful (.inl ⟨msgId, rfl⟩)
      · simpa [Expected, Packet.completes] using unexpected
      · simp
  | pubcomp msgId rc =>
      apply handleAck_untruthful (.inr (.inr ⟨msgId, rfl⟩))
      · simpa [Expected, Packet.completes] using unexpected
      · simp
  | pubrec msgId rc =>
      by_cases error : mqttVersion5 ≤ s.c.mqttVersion ∧ reasonCodeUnspecifiedError ≤ rc
      · apply handleAck_untruthful (.inr (.inl ⟨msgId, rc, rfl⟩))
        · simpa [Expected, Packet.completes, error] using unexpected
        · simp [MQTTAsyncs.ackrc, error]
      · refine absurd (fun ack isAck => ?_) unexpected
        simp [Packet.completes, error] at isAck
  | suback msgId qoss =>
      simp only [Expected, not_forall] at unexpected
      rcases unexpected with ⟨command, found, other⟩
      apply complete_untruthful found
      split
      · exact fun truthful => other truthful.2.1
      · exact fun truthful => other truthful.2.1
  | unsuback msgId =>
      simp only [Expected, not_forall] at unexpected
      rcases unexpected with ⟨command, found, other⟩
      apply complete_untruthful found
      exact fun truthful => other truthful.2.1

/-- A packet that is not expected is reported wrongly. -/
theorem step_untruthful {input : Input} (fails : ¬Meets s input) :
    ∃ callback ∈ (step s input).callbacks, ¬callback.Truthful := by
  simp only [Meets, not_forall] at fails
  rcases fails with ⟨packet, action, connected, unexpected⟩
  have provided : ¬Expected (provide s input) packet := by
    intro expected
    apply unexpected
    cases packet <;> exact expected
  unfold step
  rw [action]
  unfold act
  dsimp only
  rw [if_pos (show (provide s input).c.connected = true from connected)]
  exact receive_untruthful provided

end Unexpected

open Machine

/-- In every run of the asynchronous client the callbacks report the truth, each publication at
most once, exactly when every packet that arrives is one that the client waits for. -/
theorem completion_truthful {c : Clients} {commands : List (Request × Nat)}
    (restored : Restored c commands) (maxInflightMessages : Nat) (inputs : List Input) :
    Truthful (run step (start c maxInflightMessages commands) inputs).callbacks ↔
      Guarded step Meets (start c maxInflightMessages commands) inputs := by
  have consistent := restored.consistent maxInflightMessages
  generalize start c maxInflightMessages commands = s at consistent ⊢
  constructor
  · intro truthful
    induction inputs generalizing s with
    | nil => trivial
    | cons input inputs ih =>
        have meets : Meets s input := by
          by_contra fails
          rcases step_untruthful fails with ⟨callback, called, untruthful⟩
          have final := (run_callbacks (s := step s input) inputs).subset called
          exact untruthful (truthful.1 callback final)
        exact ⟨meets, ih _ (consistent.step meets) truthful⟩
  · intro guarded
    have final := @invariant_of_guarded _ _ step Meets Consistent
      (fun _ _ held meets => held.step meets) _ _ consistent guarded
    exact final.isTruthful

/-- A publication of QoS 2 and a subscription are completed, and a PUBREC is repeated. -/
theorem completion_truthful_qos2 :
    let inputs : List Input :=
      [{ action := .connect true }, { action := .request (.publish ⟨[], [], 2, false, []⟩) },
        { action := .request .subscribe }, { action := .processCommand },
        { action := .processCommand }, { action := .receive (.suback 2 [1]) },
        { action := .receive (.pubrec 1 0) }, { action := .receive (.pubrec 1 0) },
        { action := .receive (.pubcomp 1 0) }]
    Truthful (run step (start (Session.create 4 false none) 10 []) inputs).callbacks ↔
      Guarded step Meets (start (Session.create 4 false none) 10 []) inputs := by
  intro inputs
  have restored : Restored (Session.create 4 false none) [] := by
    refine ⟨.of_empty rfl, List.nodup_nil, ?_, ?_, ?_⟩ <;> simp
  exact completion_truthful restored 10 inputs

/-- A PUBACK that is repeated reports the delivery twice, and a SUBACK with the id of a
publication that is in flight reports its success. -/
theorem completion_untruthful :
    let published : List Input :=
      [{ action := .connect true }, { action := .request (.publish ⟨[], [], 1, false, []⟩) },
        { action := .processCommand }]
    let acknowledged : Input := { action := .receive (.puback 1 0) }
    let subscribed : Input := { action := .receive (.suback 1 [1]) }
    let initial := start (Session.create 4 false none) 10 []
    ¬Truthful (run step initial (published ++ [acknowledged, acknowledged])).callbacks ∧
      ¬Truthful (run step initial (published ++ [subscribed])).callbacks := by
  decide

end Responses

end Paho
