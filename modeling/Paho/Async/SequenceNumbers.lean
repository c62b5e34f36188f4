import Paho.Async.CommandNumbers
import Paho.Async.QueueMirror

/-!
# Sequence numbers

The counters start again at 0 after `PERSISTENCE_SEQNO_LIMIT`, and a command without a record has
the number 0. Until a counter has started again while earlier entries live, keys are distinct, no
record is lost to another entry, and what is restored is in order.
-/

namespace Paho

open Numbered

namespace Backlog

variable {b b' : Backlog} {input : Input} {keys : List PersistenceKey}

section Steps

/-- The command that a step removes from the list. -/
def removes (b : Backlog) : Input → Option WaitingCommand
  | .process => b.commands.head?
  | .deleteOldest => b.commands.find? fun command => command.type = .publish
  | _ => none

/-- What a step can do to the commands with records and to their records. -/
inductive CommandStep (b : Backlog) : Input → Backlog → Prop where
  | unchanged (input : Input) (b' : Backlog) (stored : b'.stored = b.stored)
      (records : b'.records .command = b.records .command) : CommandStep b input b'
  | added (request : Request) (w : WaitingCommand) (record : Bytes)
      (unstored : request.unstored b.settings.persistQoS0 = false)
      (seqno : w.seqno = nextSeqno b.command_seqno) (isRecord : w.record = some record)
      (readable : restoredCommand b.settings.version w.seqno record = some (restoredEarlier w))
      (b' : Backlog) (settings : b'.settings = b.settings)
      (stored : b'.stored = b.stored ++ [w])
      (store : b'.store = b.store.insert (b.key .command w.seqno) record) :
      CommandStep b (.add request) b'
  | removed (input : Input) (w : WaitingCommand) (front back : List WaitingCommand)
      (isRemoved : b.removes input = some w) (commands : b.commands = front ++ w :: back) :
      CommandStep b input (unpersistCommand { b with commands := front ++ back } w)
  | emptied (input : Input) (b' : Backlog) (stored : b'.stored = [])
      (records : b'.records .command = fun _ => none) : CommandStep b input b'
  | restored (input : Input) (keys : List PersistenceKey) (perm : keys.Perm b.store.keys)
      (b' : Backlog) (commands : b'.commands = (b.restoreCommands keys).commands)
      (records : b'.records .command = b.records .command) : CommandStep b input b'

theorem commandStep_addFirst {type : CommandType} : CommandStep b input (b.addFirst type) := by
  rcases @addFirst_cases b type with same | same
  · rw [same]
    exact CommandStep.unchanged _ _ rfl rfl
  · rw [same]
    exact CommandStep.unchanged _ _ rfl rfl

theorem stored_append_unstored {type : CommandType} :
    (b.commands ++ [WaitingCommand.mk type 0 false none]).filter (fun w => w.record.isSome) =
      b.stored := by
  rw [List.filter_append]
  exact List.append_nil _

theorem commandStep_addCommand {request : Request} :
    CommandStep b (.add request) (b.addCommand request) := by
  rcases @addCommand_cases b request with same | ⟨type, same⟩ |
    ⟨command, record, unstored, isCommand, isRecord, same⟩
  · rw [same]
    exact CommandStep.unchanged _ _ rfl rfl
  · rw [same]
    exact CommandStep.unchanged _ _ stored_append_unstored rfl
  · rw [same]
    rcases CommandRecord.restoreCommand_persistCommand (Request.queued isCommand) isRecord with
      ⟨qcommand, first, sameType⟩
    refine CommandStep.added request
      ⟨command.details.commandType, nextSeqno b.command_seqno,
        decide (command.details.commandType = .publish), some record⟩
      record unstored rfl rfl ?_ _ rfl ?_ rfl
    · simp only [restoredCommand, first, Option.map_some, sameType, restoredEarlier]
    · simp only [stored, List.filter_append, List.filter_cons, Option.isSome_some, if_true,
        List.filter_nil]

theorem commandStep_deleteOldest : CommandStep b .deleteOldest b.deleteOldest := by
  rcases @deleteOldest_cases b with same | ⟨first_publish, isFirst, same⟩
  · rw [same]
    exact CommandStep.unchanged _ _ rfl rfl
  · rw [same]
    rcases List.exists_erase_eq (List.mem_of_find?_eq_some isFirst) with
      ⟨front, back, _, commands, erased⟩
    rw [erased]
    exact CommandStep.removed _ first_publish front back isFirst commands

theorem commandStep_processCommand : CommandStep b .process b.processCommand := by
  rcases @processCommand_cases b with same | ⟨command, rest, commands, same⟩
  · rw [same]
    exact CommandStep.unchanged _ _ rfl rfl
  · rw [same]
    refine CommandStep.removed _ command [] rest ?_ commands
    rw [removes, commands]
    rfl

theorem commandStep_processPublication {publish : ReceivedPublish} {accepts : Bool} :
    CommandStep b input (b.processPublication publish accepts) := by
  unfold processPublication
  split
  · exact CommandStep.unchanged _ _ rfl rfl
  · unfold persistQueueEntry
    dsimp only
    split
    · refine CommandStep.unchanged _ _ rfl ?_
      exact @records_insert_other b _ .queue .command _ _ (by decide) rfl rfl
    · exact CommandStep.unchanged _ _ rfl rfl

theorem commandStep_deliverMessage {accepts : Bool} :
    CommandStep b input (b.deliverMessage accepts) := by
  unfold deliverMessage
  split
  · exact CommandStep.unchanged _ _ rfl rfl
  next qe rest _ =>
    split
    · refine CommandStep.unchanged _ _ rfl ?_
      exact @records_erase_other b _ .queue .command qe.seqno (by decide) rfl rfl
    · exact CommandStep.unchanged _ _ rfl rfl

theorem commandStep_restart : CommandStep b input (b.restart keys) := by
  rcases @restart_perm b keys with ⟨keys', perm, same⟩
  have records : (b.restart keys').records .command = b.records .command :=
    records_congr settings_restart store_restart
  rw [same]
  cases library : b.settings.library with
  | mqttAsync =>
      refine CommandStep.restored input keys' perm _ ?_ records
      simp only [restart, if_pos perm, library]
      rfl
  | mqttClient =>
      refine CommandStep.unchanged input _ ?_ records
      simp only [restart, if_pos perm, library]
      rfl

/-- What each step does to the commands. The synchronous library has none. -/
theorem commandStep_step (synchronous : b.settings.library = .mqttClient → b.commands = []) :
    CommandStep b input (b.step input) := by
  unfold step
  split
  · exact commandStep_addCommand
  · exact commandStep_addFirst
  · split
    · exact commandStep_addFirst
    · exact CommandStep.unchanged _ _ stored_append_unstored rfl
  · exact commandStep_deleteOldest
  · exact commandStep_processCommand
  next library =>
    refine CommandStep.emptied _ _ ?_ (funext fun n => AList.lookup_empty _)
    rw [stored, cleanSession, synchronous library]
    rfl
  · refine CommandStep.emptied _ _ rfl ?_
    funext n
    exact @lookup_restartEmpty b _ _ rfl rfl
  · exact commandStep_processPublication
  · exact commandStep_deliverMessage
  · exact CommandStep.unchanged _ _ rfl rfl
  · exact commandStep_restart
  · exact CommandStep.unchanged _ _ rfl rfl

theorem commands_step_mqttClient (library : b.settings.library = .mqttClient)
    (none : b.commands = []) : (b.step input).commands = [] := by
  unfold step
  rw [library]
  cases input with
  | arrive publish accepts =>
      simp only [processPublication]
      split <;> exact none
  | deliver accepts =>
      simp only [deliverMessage]
      split
      · exact none
      · split <;> exact none
  | restart keys =>
      simp only [restart, library]
      exact none
  | _ => exact none

end Steps

section Apart

/-- The guard on numbers: a new number is larger than those of the entries that live, and a command
without a record is removed only while no record has its number. -/
def MeetsNumbers (b : Backlog) (input : Input) : Prop :=
  match input with
  | .add request =>
      request.unstored b.settings.persistQoS0 = false →
        ∀ other ∈ b.stored, other.seqno < nextSeqno b.command_seqno
  | .arrive _ accepts => b.givenAtOnce accepts = false → b.NextIsLarger
  | _ => ∀ w, b.removes input = some w → w.record = none →
      ∀ other ∈ b.stored, other.seqno ≠ w.seqno

/-- Keys are distinct, each command has its record, and what is restored is in the order of the
lists, at whose ends entries are queued. -/
structure KeysApart (b : Backlog) : Prop where
  commands : (b.stored.map fun w => b.key .command w.seqno).Nodup
  messages : (b.messageQueue.map fun qe => b.key .queue qe.seqno).Nodup
  recorded : ∀ w ∈ b.stored, b.store.lookup (b.key .command w.seqno) = w.record
  commandsRestored : b.settings.library = .mqttAsync →
    ∀ keys : List PersistenceKey, keys.Perm b.store.keys →
      (b.restart keys).commands = b.stored.map restoredEarlier
  messagesRestored : ∀ keys : List PersistenceKey, keys.Perm b.store.keys →
    (b.restart keys).messageQueue = (b.messageQueue.filter b.hasRecord).map restoredEntry

/-- From one state to the next, the record of an entry that lives in both is neither overwritten
nor removed. -/
def SparesOthers (b b' : Backlog) : Prop :=
  (∀ w ∈ b.stored, w ∈ b'.stored → b'.records .command w.seqno = b.records .command w.seqno) ∧
    ∀ qe ∈ b.messageQueue, qe ∈ b'.messageQueue →
      b'.records .queue qe.seqno = b.records .queue qe.seqno

/-- The commands, the queue and their records between operations. -/
structure NumbersKept (b : Backlog) : Prop where
  own : b.OwnKeys
  commands : b.CommandsKept
  messages : b.MessagesKept
  synchronous : b.settings.library = .mqttClient → b.commands = []

theorem NumbersKept.keysApart (kept : b.NumbersKept) : b.KeysApart := by
  refine ⟨?_, ?_, ?_, ?_, ?_⟩
  · apply List.pairwise_map.mpr
    apply kept.commands.increasing.imp
    intro w w' less same
    exact Nat.ne_of_lt less (congrArg PersistenceKey.number same)
  · apply List.pairwise_map.mpr
    apply kept.messages.increasing.imp
    intro qe qe' less same
    exact Nat.ne_of_lt less (congrArg PersistenceKey.number same)
  · intro w mem
    rcases Option.isSome_iff_exists.mp (List.mem_filter.mp mem).2 with ⟨record, isRecord⟩
    apply (kept.commands.complete w mem).trans
    rw [commandRecord, isRecord, Option.getD_some]
  · intro library keys perm
    rw [← restoreCommands_eq kept.commands kept.own perm]
    simp only [restart, if_pos perm, library]
    rfl
  · intro keys perm
    rw [messageQueue_restart perm]
    exact restoreMessageQueue_eq kept.messages kept.own perm

theorem CommandsKept.step (kept : b.CommandsKept) (own : b.OwnKeys)
    (meets : b.MeetsNumbers input) (settings : b'.settings = b.settings)
    (change : CommandStep b input b') : b'.CommandsKept := by
  cases change with
  | unchanged _ _ stored records => exact kept.frame settings stored records
  | added request w record unstored seqno isRecord readable _ _ stored store =>
      have larger : ∀ other ∈ b.stored, other.seqno < w.seqno := by
        rw [seqno]
        exact meets unstored
      exact kept.added isRecord larger readable settings stored store
  | removed _ w front back isRemoved commands =>
      apply kept.removed commands
      cases input
      case process | deleteOldest => exact meets w isRemoved
      all_goals cases isRemoved
  | emptied _ _ stored records => exact CommandsKept.emptied stored records
  | restored _ keys perm _ commands records =>
      exact kept.restored settings (commands.trans (restoreCommands_eq kept own perm)) records

theorem MessagesKept.step (kept : b.MessagesKept) (own : b.OwnKeys)
    (meets : b.MeetsNumbers input) (settings : b'.settings = b.settings)
    (change : MessageStep b input b') : b'.MessagesKept := by
  cases change with
  | unchanged _ _ messageQueue records => exact kept.frame settings messageQueue records
  | queued publish accepts waits =>
      exact kept.persistQueueEntry (publish.readable _) (meets waits)
  | delivered _ qe rest isFirst => exact kept.unpersist isFirst
  | emptied _ _ messageQueue records => exact MessagesKept.emptied messageQueue records
  | restored _ keys perm _ messageQueue records =>
      exact kept.restored settings (messageQueue.trans (restoreMessageQueue_eq kept own perm))
        records

theorem NumbersKept.step (kept : b.NumbersKept) (meets : b.MeetsNumbers input) :
    (b.step input).NumbersKept where
  own := ownKeys_step kept.own
  commands := kept.commands.step kept.own meets settings_step (commandStep_step kept.synchronous)
  messages := kept.messages.step kept.own meets settings_step messageStep_step
  synchronous := by
    rw [settings_step]
    intro library
    exact commands_step_mqttClient library (kept.synchronous library)

theorem MessagesKept.sparesOthers (kept : b.MessagesKept) (meets : b.MeetsNumbers input)
    (change : MessageStep b input b') :
    ∀ qe ∈ b.messageQueue, qe ∈ b'.messageQueue →
      b'.records .queue qe.seqno = b.records .queue qe.seqno := by
  cases change with
  | unchanged _ _ _ records => exact fun qe _ _ => congrFun records qe.seqno
  | queued publish accepts waits =>
      intro qe mem _
      by_cases put : b.putResult (publish.entry b.settings.version) = 0
      · rw [@records_insert b (b.persistQueueEntry (publish.entry b.settings.version)) .queue _ _
          rfl (if_pos put)]
        exact Function.update_of_ne (Nat.ne_of_lt (meets waits qe mem)) _ _
      · rw [@records_congr b (b.persistQueueEntry (publish.entry b.settings.version)) .queue rfl
          (if_neg put)]
  | delivered _ first rest isFirst =>
      intro qe _ mem
      have increasing := kept.increasing
      rw [isFirst] at increasing
      rw [@records_erase b (unpersistQueueEntry { b with messageQueue := rest } first) .queue
        first.seqno rfl rfl]
      exact Function.update_of_ne (Nat.ne_of_gt ((List.pairwise_cons.mp increasing).1 qe mem)) _ _
  | emptied _ _ messageQueue _ =>
      intro qe _ mem
      rw [messageQueue] at mem
      cases mem
  | restored _ keys perm _ _ records => exact fun qe _ _ => congrFun records qe.seqno

theorem NumbersKept.sparesOthers (kept : b.NumbersKept) (meets : b.MeetsNumbers input) :
    b.SparesOthers (b.step input) := by
  refine ⟨?_, kept.messages.sparesOthers meets messageStep_step⟩
  intro w mem mem'
  rw [(kept.step meets).commands.complete w mem', kept.commands.complete w mem]

theorem numbersKept_create (settings : BacklogSettings) : (create settings).NumbersKept where
  own := fun k mem => absurd mem (AList.notMem_empty k)
  commands := CommandsKept.emptied rfl (funext fun _ => AList.lookup_empty _)
  messages := MessagesKept.emptied rfl (funext fun _ => AList.lookup_empty _)
  synchronous := fun _ => rfl

/-- A client below MQTT 5. -/
def asynchronous : BacklogSettings :=
  { library := .mqttAsync, version := mqttVersion311, beforeWrite := false, persistQoS0 := true }

/-- A subscription to the topic `a`. -/
def subscribeA : Request :=
  .subscribe 1 ⟨[(CommandRecord.topicA, 1)], by decide⟩ none

section Wrap

/-- The record of the subscription. -/
def recordA : Bytes :=
  [8, 0, 0, 0, 1, 0, 0, 0, 1, 0, 0, 0, 97, 0, 1, 0, 0, 0]

theorem addCommand_subscribeA (settings : b.settings = asynchronous) :
    b.addCommand subscribeA =
      { b with
        commands := b.commands ++ [⟨.subscribe, nextSeqno b.command_seqno, false, some recordA⟩]
        command_seqno := nextSeqno b.command_seqno
        store := b.store.insert (b.key .command (nextSeqno b.command_seqno)) recordA } := by
  unfold addCommand
  rw [settings]
  rfl

theorem processCommand_of_new {w : WaitingCommand} {rest : List WaitingCommand}
    (commands : b.commands = w :: rest) (new : w.not_restored = false) :
    b.processCommand = unpersistCommand { b with commands := rest } w := by
  unfold processCommand
  rw [commands]
  simp only [new, Bool.false_and, Bool.false_eq_true, if_false]

theorem erase_insert_empty (k : PersistenceKey) (record : Bytes) :
    ((∅ : RecordStore).insert k record).erase k = ∅ := by
  rw [AList.insert_empty]
  exact AList.ext (List.kerase_cons_eq rfl)

/-- A subscription that is processed moves the counter on. -/
theorem run_round {k : Nat} (below : k + 1 < seqnoLimit) :
    Machine.run step { create asynchronous with command_seqno := k }
        [.add subscribeA, .process] =
      { create asynchronous with command_seqno := k + 1 } := by
  have next : nextSeqno k = k + 1 := if_neg (Nat.ne_of_lt below)
  have added := @addCommand_subscribeA { create asynchronous with command_seqno := k } rfl
  change (addCommand { create asynchronous with command_seqno := k } subscribeA).processCommand = _
  rw [added, processCommand_of_new rfl rfl, unpersistCommand]
  simp only [next]
  congr 1
  exact erase_insert_empty _ _

theorem run_rounds {k : Nat} (below : k < seqnoLimit) :
    Machine.run step (create asynchronous)
        (List.replicate k [Input.add subscribeA, .process]).flatten =
      { create asynchronous with command_seqno := k } := by
  induction k with
  | zero => rfl
  | succ k ih =>
      rw [List.replicate_succ', List.flatten_append, Machine.run_append, ih (by omega)]
      exact run_round below

end Wrap

end Apart

end Backlog

end Paho
