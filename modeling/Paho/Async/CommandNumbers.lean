import Paho.Async.BacklogRecords

/-!
# Commands and their records

While the sequence numbers of the commands with records grow, each record is that of one command,
and the commands that are restored are those with records, in order.
-/

namespace Paho

open Numbered Native

namespace CommandRecord

variable {version : Nat} {command : Command} {record : Bytes}

theorem Details.commandType_eq {details details' : Details} (same : details'.type = details.type) :
    details'.commandType = details.commandType := by
  cases details <;> cases details'
  case sub.unsub => exact absurd same (show ¬typeUnsubscribe = typeSubscribe by decide)
  case sub.pub => exact absurd same (show ¬typePublish = typeSubscribe by decide)
  case unsub.sub => exact absurd same (show ¬typeSubscribe = typeUnsubscribe by decide)
  case unsub.pub => exact absurd same (show ¬typePublish = typeUnsubscribe by decide)
  case pub.sub => exact absurd same (show ¬typeSubscribe = typePublish by decide)
  case pub.unsub => exact absurd same (show ¬typeUnsubscribe = typePublish by decide)
  all_goals rfl

/-- A record that was put is read as a command of its type. -/
theorem restoreCommand_persistCommand (queued : Queued version command)
    (written : persistCommand version command = some record) :
    ∃ qcommand, restoreCommand record version none = some qcommand ∧
      qcommand.command.details.commandType = command.details.commandType := by
  have isRecord : ∃ rest, record = writeNative command.details.type ++
      writeNative command.token ++ (writeDetails version command.details ++ rest) := by
    unfold persistCommand at written
    dsimp only at written
    split at written
    · split at written
      · cases written
        exact ⟨MQTTProperties.write command.properties, by simp only [List.append_assoc]⟩
      · cases written
    · cases written
      exact ⟨[], by simp only [List.append_nil]⟩
  rcases isRecord with ⟨rest, rfl⟩
  rcases restoreCommand_first queued.spec.1 command.token rest with ⟨qcommand, first, sameType⟩
  exact ⟨qcommand, first, Details.commandType_eq sameType⟩

end CommandRecord

namespace Backlog

variable {b b' : Backlog} {input : Input} {keys : List PersistenceKey}

/-- The commands that have a record. -/
def stored (b : Backlog) : List WaitingCommand :=
  b.commands.filter fun w => w.record.isSome

/-- The record of a command. -/
def commandRecord (w : WaitingCommand) : Bytes :=
  w.record.getD []

/-- A command as it is restored. -/
def restoredEarlier (w : WaitingCommand) : WaitingCommand :=
  { w with not_restored := true }

/-- The numbers of the commands with records grow, and the records are theirs. -/
structure CommandsKept (b : Backlog) : Prop where
  increasing : Increasing WaitingCommand.seqno b.stored
  sound : Sound WaitingCommand.seqno commandRecord b.stored (b.records .command)
  complete : Complete WaitingCommand.seqno commandRecord b.stored (b.records .command)
  readable : ∀ w ∈ b.stored,
    restoredCommand b.settings.version w.seqno (commandRecord w) = some (restoredEarlier w)

/-- A step leaves the commands with records and their records as they are. -/
theorem CommandsKept.frame (kept : b.CommandsKept) (settings : b'.settings = b.settings)
    (stored : b'.stored = b.stored) (records : b'.records .command = b.records .command) :
    b'.CommandsKept := by
  refine ⟨?_, ?_, ?_, ?_⟩
  · rw [stored]
    exact kept.increasing
  · rw [stored, records]
    exact kept.sound
  · rw [stored, records]
    exact kept.complete
  · rw [stored, settings]
    exact kept.readable

theorem Request.queued {version : Nat} {request : Request} {command : CommandRecord.Command}
    (isCommand : request.command version = some command) :
    CommandRecord.Queued version command := by
  cases request with
  | subscribe token topics response => exact .subscribe token topics response command isCommand
  | unsubscribe token topics response =>
      cases isCommand
      exact .unsubscribe token topics response
  | send token destinationName payload qos retained response =>
      cases isCommand
      exact .publish token destinationName payload qos retained response

theorem CommandsKept.added (kept : b.CommandsKept) {w : WaitingCommand} {record : Bytes}
    (isRecord : w.record = some record) (larger : ∀ other ∈ b.stored, other.seqno < w.seqno)
    (readable : restoredCommand b.settings.version w.seqno record = some (restoredEarlier w))
    (settings : b'.settings = b.settings) (stored : b'.stored = b.stored ++ [w])
    (store : b'.store = b.store.insert (b.key .command w.seqno) record) : b'.CommandsKept := by
  have written : commandRecord w = record := by rw [commandRecord, isRecord, Option.getD_some]
  have records : b'.records .command =
      Function.update (b.records .command) w.seqno (some (commandRecord w)) := by
    rw [written]
    exact records_insert settings store
  refine ⟨?_, ?_, ?_, ?_⟩
  · rw [stored]
    exact kept.increasing.append larger
  · rw [stored, records]
    exact kept.sound.put w
  · rw [stored, records]
    exact kept.complete.put larger
  · rw [stored, settings]
    intro other mem
    rcases List.mem_append.mp mem with mem | mem
    · exact kept.readable other mem
    · rw [List.mem_singleton.mp mem, written]
      exact readable

theorem CommandsKept.removed (kept : b.CommandsKept) {w : WaitingCommand}
    {front back : List WaitingCommand} (commands : b.commands = front ++ w :: back)
    (free : w.record = none → ∀ other ∈ b.stored, other.seqno ≠ w.seqno) :
    (unpersistCommand { b with commands := front ++ back } w).CommandsKept := by
  have erased := @records_erase b (unpersistCommand { b with commands := front ++ back } w)
    .command w.seqno rfl rfl
  cases isRecord : w.record with
  | none =>
      refine @CommandsKept.frame b _ kept rfl ?_ ?_
      · simp only [Backlog.stored, unpersistCommand, commands, List.filter_append,
          List.filter_cons, isRecord, Option.isSome_none, Bool.false_eq_true, if_false]
      · rw [erased]
        exact kept.sound.stray (free isRecord)
  | some record =>
      have before : b.stored = front.filter (fun w => w.record.isSome) ++
          w :: back.filter (fun w => w.record.isSome) := by
        simp only [Backlog.stored, commands, List.filter_append, List.filter_cons, isRecord,
          Option.isSome_some, if_true]
      have after : (unpersistCommand { b with commands := front ++ back } w).stored =
          front.filter (fun w => w.record.isSome) ++ back.filter (fun w => w.record.isSome) :=
        List.filter_append _ _
      have increasing := kept.increasing
      have sound := kept.sound
      have complete := kept.complete
      rw [before] at increasing sound complete
      refine ⟨?_, ?_, ?_, ?_⟩
      · rw [after]
        exact increasing.sublist (List.Sublist.append_left (List.sublist_cons_self _ _) _)
      · rw [after, erased]
        exact sound.remove
      · rw [after, erased]
        exact complete.remove increasing
      · intro other mem
        apply kept.readable other
        rw [after] at mem
        rw [before]
        exact (List.Sublist.append_left (List.sublist_cons_self _ _) _).subset mem

theorem CommandsKept.emptied (stored : b.stored = [])
    (records : b.records .command = fun _ => none) : b.CommandsKept := by
  refine ⟨?_, ?_, ?_, ?_⟩
  · rw [stored]
    exact List.Pairwise.nil
  · rw [records]
    intro n record found
    cases found
  all_goals
    rw [stored]
    exact List.forall_mem_nil _

section Restoring

/-- What is restored are the commands with records, in order. -/
theorem restoreCommands_eq (kept : b.CommandsKept) (own : b.OwnKeys)
    (perm : keys.Perm b.store.keys) :
    (b.restoreCommands keys).commands = b.stored.map restoredEarlier := by
  have sorted := @List.pairwise_mergeSort _
    (fun key other : PersistenceKey => decide (key.number ≤ other.number))
    (fun _ _ _ le le' =>
      decide_eq_true (Nat.le_trans (of_decide_eq_true le) (of_decide_eq_true le')))
    (fun key other => by
      rcases Nat.le_total key.number other.number with le | le <;> simp [le]) keys
  have sortedPerm := (List.mergeSort_perm keys fun key other : PersistenceKey =>
    decide (key.number ≤ other.number)).trans perm
  unfold restoreCommands
  dsimp only
  generalize keys.mergeSort (fun key other : PersistenceKey =>
    decide (key.number ≤ other.number)) = keys' at sorted sortedPerm ⊢
  have readAll := @filterMap_keys b .command keys' _ own sortedPerm (.inl rfl) restoredCommand
    restoredCommand_congr
  have sameNumber (w : WaitingCommand) : (restoredEarlier w).seqno = w.seqno := rfl
  have commands := perm_of_records kept.increasing kept.sound
    (nodup_numbers own sortedPerm (.inl rfl)) (fun n => mem_numbers own sortedPerm (.inl rfl))
    kept.readable sameNumber
  rw [kept.complete.filter] at commands
  rw [readAll]
  have increasing : Increasing WaitingCommand.seqno (b.stored.map restoredEarlier) :=
    List.pairwise_map.mpr kept.increasing
  apply eq_of_increasing increasing commands
  have numbersSorted : (numbers .command keys').Pairwise (· ≤ ·) := by
    apply List.pairwise_map.mpr
    exact (sorted.sublist List.filter_sublist).imp of_decide_eq_true
  apply List.Pairwise.filterMap _ _ numbersSorted
  intro n m le w isFirst w' isSecond
  have number {n : Nat} {w : WaitingCommand}
      (isRestored : (b.records .command n).bind (restoredCommand b.settings.version n) = some w) :
      w.seqno = n := by
    rcases Option.bind_eq_some_iff.mp isRestored with ⟨record, _, isRead⟩
    rcases Option.map_eq_some_iff.mp isRead with ⟨qcommand, _, rfl⟩
    rfl
  rw [number isFirst, number isSecond]
  exact le

theorem stored_map : (b.stored.map restoredEarlier).filter (fun w => w.record.isSome) =
    b.stored.map restoredEarlier := by
  apply List.filter_eq_self.mpr
  intro w mem
  rcases List.mem_map.mp mem with ⟨w', mem', rfl⟩
  exact (List.mem_filter.mp mem').2

theorem CommandsKept.restored (kept : b.CommandsKept) (settings : b'.settings = b.settings)
    (commands : b'.commands = b.stored.map restoredEarlier)
    (records : b'.records .command = b.records .command) : b'.CommandsKept := by
  have stored : b'.stored = b.stored.map restoredEarlier := by
    rw [Backlog.stored, commands]
    exact stored_map
  refine ⟨?_, ?_, ?_, ?_⟩
  · rw [stored]
    exact List.pairwise_map.mpr kept.increasing
  · rw [stored, records]
    intro n record found
    rcases kept.sound n record found with ⟨w, mem, isNumber, isRecord⟩
    exact ⟨restoredEarlier w, List.mem_map_of_mem mem, isNumber, isRecord⟩
  · rw [stored, records]
    intro w mem
    rcases List.mem_map.mp mem with ⟨w', mem', rfl⟩
    exact kept.complete w' mem'
  · rw [stored, settings]
    intro w mem
    rcases List.mem_map.mp mem with ⟨w', mem', rfl⟩
    exact kept.readable w' mem'

end Restoring

end Backlog

end Paho
