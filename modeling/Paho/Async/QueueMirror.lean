import Paho.Async.MessageRecords

/-!
# The message queue and the store

What a step does to the message queue and its records, and that the records mirror the queue.
`MQTTProperties_write` returns the number of bytes it has written, and
`MQTTPersistence_persistQueueEntry` takes that for an error: under MQTT 5 without `beforeWrite` no
record is put. In the other cases the queue is in the store, and is restored as it was, while the
sequence numbers of the messages in it grow.
-/

namespace Paho

open Numbered

namespace Backlog

variable {b b' : Backlog} {input : Input} {keys : List PersistenceKey}

section Steps

/-- What a step can do to the message queue and to its records. -/
inductive MessageStep (b : Backlog) : Input → Backlog → Prop where
  | unchanged (input : Input) (b' : Backlog) (messageQueue : b'.messageQueue = b.messageQueue)
      (records : b'.records .queue = b.records .queue) : MessageStep b input b'
  | queued (publish : ReceivedPublish) (accepts : Bool)
      (waits : b.givenAtOnce accepts = false) :
      MessageStep b (.arrive publish accepts)
        (b.persistQueueEntry (publish.entry b.settings.version))
  | delivered (input : Input) (qe : WaitingMessage) (rest : List WaitingMessage)
      (isFirst : b.messageQueue = qe :: rest) :
      MessageStep b input (unpersistQueueEntry { b with messageQueue := rest } qe)
  | emptied (input : Input) (b' : Backlog) (messageQueue : b'.messageQueue = [])
      (records : b'.records .queue = fun _ => none) : MessageStep b input b'
  | restored (input : Input) (keys : List PersistenceKey) (perm : keys.Perm b.store.keys)
      (b' : Backlog)
      (messageQueue : b'.messageQueue = (b.restoreMessageQueue keys).messageQueue)
      (records : b'.records .queue = b.records .queue) : MessageStep b input b'

theorem MessageStep.command (settings : b'.settings = b.settings)
    (messageQueue : b'.messageQueue = b.messageQueue)
    (store : b'.store = b.store ∨
      (∃ n record, b'.store = b.store.insert (b.key .command n) record) ∨
        ∃ n, b'.store = b.store.erase (b.key .command n)) : MessageStep b input b' := by
  apply MessageStep.unchanged input b' messageQueue
  rcases store with store | ⟨n, record, store⟩ | ⟨n, store⟩
  · exact records_congr settings store
  · exact records_insert_other (by decide) settings store
  · exact records_erase_other (by decide) settings store

theorem messageStep_addFirst {type : CommandType} : MessageStep b input (b.addFirst type) := by
  rcases @addFirst_cases b type with same | same
  · rw [same]
    exact MessageStep.command rfl rfl (.inl rfl)
  · rw [same]
    exact MessageStep.command rfl rfl (.inl rfl)

theorem messageStep_addCommand {request : Request} :
    MessageStep b input (b.addCommand request) := by
  rcases @addCommand_cases b request with same | ⟨_, same⟩ | ⟨_, record, _, _, _, same⟩
  · rw [same]
    exact MessageStep.command rfl rfl (.inl rfl)
  · rw [same]
    exact MessageStep.command rfl rfl (.inl rfl)
  · rw [same]
    exact MessageStep.command rfl rfl (.inr (.inl ⟨nextSeqno b.command_seqno, record, rfl⟩))

theorem messageStep_deleteOldest : MessageStep b input b.deleteOldest := by
  rcases @deleteOldest_cases b with same | ⟨first_publish, _, same⟩
  · rw [same]
    exact MessageStep.command rfl rfl (.inl rfl)
  · rw [same]
    exact MessageStep.command rfl rfl (.inr (.inr ⟨first_publish.seqno, rfl⟩))

theorem messageStep_processCommand : MessageStep b input b.processCommand := by
  rcases @processCommand_cases b with same | ⟨command, rest, _, same⟩
  · rw [same]
    exact MessageStep.command rfl rfl (.inl rfl)
  · rw [same]
    exact MessageStep.command rfl rfl (.inr (.inr ⟨command.seqno, rfl⟩))

theorem messageStep_processPublication {publish : ReceivedPublish} {accepts : Bool} :
    MessageStep b (.arrive publish accepts) (b.processPublication publish accepts) := by
  unfold processPublication
  split
  · exact MessageStep.unchanged _ b rfl rfl
  next waits => exact MessageStep.queued publish accepts (Bool.eq_false_of_not_eq_true waits)

theorem messageStep_deliverMessage {accepts : Bool} :
    MessageStep b input (b.deliverMessage accepts) := by
  unfold deliverMessage
  split
  · exact MessageStep.unchanged _ b rfl rfl
  next qe rest isFirst =>
    split
    · exact MessageStep.delivered input qe rest isFirst
    · exact MessageStep.unchanged _ b rfl rfl

theorem messageStep_restart : MessageStep b input (b.restart keys) := by
  rcases @restart_perm b keys with ⟨keys', perm, same⟩
  rw [same]
  exact MessageStep.restored input keys' perm _ (messageQueue_restart perm)
    (records_congr settings_restart store_restart)

theorem messageStep_restartEmpty (messages : b'.messageQueue = [])
    (store : b'.store = (b.store.keys.filter isBacklogKey).foldl (fun store key => store.erase key)
      b.store) : MessageStep b input b' := by
  apply MessageStep.emptied input b' messages
  funext n
  exact lookup_restartEmpty store rfl

/-- What each step does to the message queue. -/
theorem messageStep_step : MessageStep b input (b.step input) := by
  unfold step
  split
  · exact messageStep_addCommand
  · exact messageStep_addFirst
  · split
    · exact messageStep_addFirst
    · exact MessageStep.command rfl rfl (.inl rfl)
  · exact messageStep_deleteOldest
  · exact messageStep_processCommand
  · exact MessageStep.emptied _ _ rfl (funext fun n => AList.lookup_empty _)
  · exact messageStep_restartEmpty rfl rfl
  · exact messageStep_processPublication
  · exact messageStep_deliverMessage
  · exact MessageStep.command rfl rfl (.inl rfl)
  · exact messageStep_restart
  · exact MessageStep.command rfl rfl (.inl rfl)

theorem settings_step : (b.step input).settings = b.settings := by
  unfold step
  split
  · rcases @addCommand_cases b ‹_› with same | ⟨_, same⟩ | ⟨_, _, _, _, _, same⟩ <;> rw [same]
  · rcases @addFirst_cases b .connect with same | same <;> rw [same]
  · split
    · rcases @addFirst_cases b .disconnect with same | same <;> rw [same]
    · rfl
  · rcases @deleteOldest_cases b with same | ⟨_, _, same⟩ <;> (rw [same]; try rfl)
  · rcases @processCommand_cases b with same | ⟨_, _, _, same⟩ <;> (rw [same]; try rfl)
  · rfl
  · rfl
  · unfold processPublication
    split <;> rfl
  · unfold deliverMessage
    split
    · rfl
    · split <;> rfl
  · rfl
  · exact settings_restart
  · rfl

theorem ownKeys_step (own : b.OwnKeys) : (b.step input).OwnKeys := by
  unfold step
  split
  · rcases @addCommand_cases b ‹_› with same | ⟨_, same⟩ | ⟨_, record, _, _, _, same⟩
    · rwa [same]
    · rw [same]
      exact own.congr rfl rfl
    · rw [same]
      exact @OwnKeys.insert b _ .command (nextSeqno b.command_seqno) record own rfl rfl
  · rcases @addFirst_cases b .connect with same | same <;> rw [same]
    · exact own
    · exact own.congr rfl rfl
  · split
    · rcases @addFirst_cases b .disconnect with same | same <;> rw [same]
      · exact own
      · exact own.congr rfl rfl
    · exact own.congr rfl rfl
  · rcases @deleteOldest_cases b with same | ⟨_, _, same⟩ <;> rw [same]
    · exact own
    · exact own.erase rfl rfl
  · rcases @processCommand_cases b with same | ⟨_, _, _, same⟩ <;> rw [same]
    · exact own
    · exact own.erase rfl rfl
  · intro k mem
    exact absurd mem (AList.notMem_empty k)
  · intro k mem backlog
    have stored := AList.lookup_isSome.mpr mem
    rw [@lookup_restartEmpty b _ k rfl backlog] at stored
    cases stored
  · unfold processPublication
    split
    · exact own
    · unfold persistQueueEntry
      dsimp only
      split
      · exact @OwnKeys.insert b _ .queue (nextSeqno b.qentry_seqno) _ own rfl rfl
      · exact own.congr rfl rfl
  · unfold deliverMessage
    split
    · exact own
    · split
      · exact own.erase rfl rfl
      · exact own
  · exact own.congr rfl rfl
  · exact own.congr settings_restart store_restart
  · exact own

end Steps

section Mirror

/-- The guard on arrivals: the record is put, the topic has no zero byte, and the next number is
larger than those in the queue. -/
def Meets (b : Backlog) : Input → Prop
  | .arrive publish accepts =>
      b.givenAtOnce accepts = false →
        (b.settings.version < mqttVersion5 ∨ b.settings.beforeWrite = true) ∧
          (∀ byte ∈ publish.topic, byte ≠ 0) ∧ b.NextIsLarger
  | _ => True

/-- Each entry of the queue has its record, each record is that of one entry, and a restart builds
the same queue. -/
structure Mirrored (b : Backlog) : Prop where
  recorded : ∀ qe ∈ b.messageQueue,
    b.store.lookup (b.key .queue qe.seqno) = some (QueueRecord.write b.settings.version qe.entry)
  distinct : (b.messageQueue.map WaitingMessage.seqno).Nodup
  owned : ∀ k ∈ b.store, k.stem = .queue → ∃ qe ∈ b.messageQueue, k = b.key .queue qe.seqno
  rebuilt : ∀ keys : List PersistenceKey, keys.Perm b.store.keys →
    (b.restart keys).messageQueue = b.messageQueue

/-- The queue and its records between operations. -/
structure QueueStored (b : Backlog) : Prop where
  own : b.OwnKeys
  kept : b.MessagesKept
  complete : Complete WaitingMessage.seqno b.messageRecord b.messageQueue (b.records .queue)
  plain : ∀ qe ∈ b.messageQueue, ∀ byte ∈ qe.entry.topicName, byte ≠ 0

theorem QueueStored.restored (stored : b.QueueStored) (perm : keys.Perm b.store.keys) :
    (b.restoreMessageQueue keys).messageQueue = b.messageQueue := by
  rw [restoreMessageQueue_eq stored.kept stored.own perm]
  have all : b.messageQueue.filter b.hasRecord = b.messageQueue := stored.complete.filter
  rw [all]
  apply (List.map_congr_left _).trans b.messageQueue.map_id
  intro qe mem
  simp only [restoredEntry, QueueRecord.stored_eq (stored.plain qe mem), id]

theorem QueueStored.mirrored (stored : b.QueueStored) : b.Mirrored := by
  refine ⟨stored.complete, ?_, ?_, ?_⟩
  · apply List.pairwise_map.mpr
    exact stored.kept.increasing.imp Nat.ne_of_lt
  · intro k mem isQueue
    have isKey := eq_key stored.own (.inr rfl) mem isQueue
    rcases Option.isSome_iff_exists.mp (AList.lookup_isSome.mpr mem) with ⟨record, found⟩
    rw [isKey] at found
    rcases stored.kept.sound k.number record found with ⟨qe, memQueue, isNumber, _⟩
    exact ⟨qe, memQueue, by rw [isNumber, ← isKey]⟩
  · intro keys perm
    rw [messageQueue_restart perm]
    exact stored.restored perm

theorem QueueStored.frame (stored : b.QueueStored) (own : b'.OwnKeys)
    (settings : b'.settings = b.settings) (messageQueue : b'.messageQueue = b.messageQueue)
    (records : b'.records .queue = b.records .queue) : b'.QueueStored := by
  refine ⟨own, stored.kept.frame settings messageQueue records, ?_, ?_⟩
  · rw [messageQueue, records, messageRecord_congr settings]
    exact stored.complete
  · rw [messageQueue]
    exact stored.plain

/-- The number of bytes written is the error. -/
theorem putResult_pos {entry : QueueRecord.Entry} (five : mqttVersion5 ≤ b.settings.version)
    (noCallback : b.settings.beforeWrite = false) : 0 < b.putResult entry := by
  have written := MQTTPacket.length_encode_pos (MQTTProperties.length entry.msg.properties)
  unfold putResult
  rw [noCallback, if_neg Bool.false_ne_true, if_pos five, MQTTProperties.write,
    List.length_append]
  omega

theorem QueueStored.queued (stored : b.QueueStored) {publish : ReceivedPublish}
    (own : (b.persistQueueEntry (publish.entry b.settings.version)).OwnKeys)
    (put : b.settings.version < mqttVersion5 ∨ b.settings.beforeWrite = true)
    (plain : ∀ byte ∈ publish.topic, byte ≠ 0) (larger : b.NextIsLarger) :
    (b.persistQueueEntry (publish.entry b.settings.version)).QueueStored := by
  have noError : b.putResult (publish.entry b.settings.version) = 0 := by
    unfold putResult
    rcases put with early | callback
    · rw [if_neg (Nat.not_le_of_lt early), ite_self]
    · rw [if_pos callback]
  refine ⟨own, stored.kept.persistQueueEntry (publish.readable _) larger, ?_, ?_⟩
  · rw [@records_insert b (b.persistQueueEntry (publish.entry b.settings.version)) .queue _ _ rfl
      (if_pos noError)]
    exact @Complete.put _ _ WaitingMessage.seqno b.messageRecord b.messageQueue
      ⟨publish.entry b.settings.version, nextSeqno b.qentry_seqno⟩ _ stored.complete larger
  · intro qe mem
    rcases List.mem_append.mp mem with mem | mem
    · exact stored.plain qe mem
    · rw [List.mem_singleton.mp mem]
      exact plain

theorem QueueStored.delivered (stored : b.QueueStored) {qe : WaitingMessage}
    {rest : List WaitingMessage} (isFirst : b.messageQueue = qe :: rest)
    (own : (unpersistQueueEntry { b with messageQueue := rest } qe).OwnKeys) :
    (unpersistQueueEntry { b with messageQueue := rest } qe).QueueStored := by
  have increasing := stored.kept.increasing
  have complete := stored.complete
  have plain := stored.plain
  rw [isFirst] at increasing complete plain
  refine ⟨own, stored.kept.unpersist isFirst, ?_,
    fun other mem => plain other (List.mem_cons_of_mem _ mem)⟩
  rw [@records_erase b (unpersistQueueEntry { b with messageQueue := rest } qe) .queue qe.seqno
    rfl rfl]
  exact @Complete.remove _ _ WaitingMessage.seqno b.messageRecord [] rest qe _ complete increasing

theorem QueueStored.emptied (own : b.OwnKeys) (messageQueue : b.messageQueue = [])
    (records : b.records .queue = fun _ => none) : b.QueueStored := by
  refine ⟨own, MessagesKept.emptied messageQueue records, ?_, ?_⟩
  all_goals
    rw [messageQueue]
    exact List.forall_mem_nil _

theorem QueueStored.step (stored : b.QueueStored) (meets : b.Meets input) :
    (b.step input).QueueStored := by
  have own := @ownKeys_step b input stored.own
  have settings := @settings_step b input
  have change := @messageStep_step b input
  generalize b.step input = b' at own settings change
  cases change with
  | unchanged _ _ messageQueue records => exact stored.frame own settings messageQueue records
  | queued publish accepts waits =>
      rcases meets waits with ⟨put, plain, larger⟩
      exact stored.queued own put plain larger
  | delivered _ qe rest isFirst => exact stored.delivered isFirst own
  | emptied _ _ messageQueue records => exact QueueStored.emptied own messageQueue records
  | restored _ keys perm _ messageQueue records =>
      exact stored.frame own settings (messageQueue.trans (stored.restored perm)) records

/-- While every arrival meets the guard, the records mirror the queue. -/
theorem mirrored_run (settings : BacklogSettings) (inputs : List Input)
    (guarded : Machine.Guarded step Meets (create settings) inputs) :
    (Machine.run step (create settings) inputs).Mirrored := by
  have start : (create settings).QueueStored := by
    apply QueueStored.emptied
    · intro k mem
      exact absurd mem (AList.notMem_empty k)
    · rfl
    · funext n
      exact AList.lookup_empty _
  exact (@Machine.invariant_of_guarded _ _ step Meets QueueStored
    (fun _ _ stored meets => stored.step meets) _ _ start guarded).mirrored

/-- A PUBLISH without properties. -/
def plainPublish (topic : Bytes) : ReceivedPublish where
  topic := topic
  payload := ⟨[1, 2], by decide⟩
  dup := false
  qos := 1
  retain := false
  msgId := 7
  properties := []
  wellTyped := by simp
  representable := ⟨by simp, by decide⟩

theorem mirrored_two_arrivals :
    (Machine.run step (create ⟨.mqttClient, 4, false, true⟩)
      [.arrive (plainPublish [116]) true, .arrive (plainPublish [117]) true, .restart [],
        .deliver true]).Mirrored :=
  mirrored_run _ _ ⟨fun _ => ⟨.inl (by decide), by simp [plainPublish], by decide⟩,
    fun _ => ⟨.inl (by decide), by simp [plainPublish], by decide⟩, trivial, trivial, trivial⟩

/-- Under MQTT 5 without `beforeWrite`, a message waits in the queue and has no record. -/
theorem not_mirrored :
    ¬∀ (settings : BacklogSettings) (inputs : List Input),
      (Machine.run step (create settings) inputs).Mirrored := by
  intro mirrored
  have recorded := (mirrored ⟨.mqttClient, 5, false, true⟩
    [.arrive (plainPublish [116]) true]).recorded
    ⟨(plainPublish [116]).entry 5, 1⟩ (List.mem_singleton.mpr rfl)
  have error : 0 < (create ⟨.mqttClient, 5, false, true⟩).putResult
    ((plainPublish [116]).entry 5) :=
    putResult_pos (by decide) rfl
  have noRecord : (Machine.run step (create ⟨.mqttClient, 5, false, true⟩)
      [.arrive (plainPublish [116]) true]).store = ∅ := if_neg (Nat.ne_of_gt error)
  rw [noRecord, AList.lookup_empty] at recorded
  cases recorded

end Mirror

end Backlog

end Paho
