import Paho.Async.BacklogRecords
import Paho.Library.Run

/-!
# The message queue and its records

While the sequence numbers of the message queue grow, each record is that of one entry, and the
queue that is restored has the entries with records, in order.
-/

namespace Paho

open Numbered

namespace Backlog

variable {b b' : Backlog} {keys : List PersistenceKey}

/-- The record of an entry. -/
def messageRecord (b : Backlog) (qe : WaitingMessage) : Bytes :=
  QueueRecord.write b.settings.version qe.entry

/-- Whether an entry has a record. -/
def hasRecord (b : Backlog) (qe : WaitingMessage) : Bool :=
  (b.records .queue qe.seqno).isSome

/-- An entry as it is restored. -/
def restoredEntry (qe : WaitingMessage) : WaitingMessage :=
  { qe with entry := QueueRecord.stored qe.entry }

/-- The numbers of the queue grow, and its records are those of its entries. -/
structure MessagesKept (b : Backlog) : Prop where
  increasing : Increasing WaitingMessage.seqno b.messageQueue
  sound : Sound WaitingMessage.seqno b.messageRecord b.messageQueue (b.records .queue)
  readable : ∀ qe ∈ b.messageQueue, QueueRecord.Readable b.settings.version qe.entry

/-- The next number is larger than those in the queue. -/
def NextIsLarger (b : Backlog) : Prop :=
  ∀ qe ∈ b.messageQueue, qe.seqno < nextSeqno b.qentry_seqno

instance (b : Backlog) : Decidable b.NextIsLarger :=
  inferInstanceAs (Decidable (∀ qe ∈ b.messageQueue, _))

theorem messageRecord_congr (settings : b'.settings = b.settings) :
    b'.messageRecord = b.messageRecord := by
  funext qe
  simp only [messageRecord, settings]

theorem MessagesKept.frame (kept : b.MessagesKept) (settings : b'.settings = b.settings)
    (messageQueue : b'.messageQueue = b.messageQueue)
    (records : b'.records .queue = b.records .queue) : b'.MessagesKept := by
  refine ⟨?_, ?_, ?_⟩
  · rw [messageQueue]
    exact kept.increasing
  · rw [messageQueue, records, messageRecord_congr settings]
    exact kept.sound
  · rw [messageQueue, settings]
    exact kept.readable

theorem ReceivedPublish.readable (publish : ReceivedPublish) (version : Nat) :
    QueueRecord.Readable version (publish.entry version) := by
  have none : MQTTProperties.Representable [] := ⟨by simp, by decide⟩
  refine ⟨publish.payload.property, rfl, ?_, ?_, fun early => if_neg (Nat.not_le_of_lt early)⟩
  · unfold ReceivedPublish.entry
    dsimp only
    split
    · exact publish.wellTyped
    · simp
  · unfold ReceivedPublish.entry
    dsimp only
    split
    · exact publish.representable
    · exact none

theorem MessagesKept.persistQueueEntry (kept : b.MessagesKept) {entry : QueueRecord.Entry}
    (readable : QueueRecord.Readable b.settings.version entry) (larger : b.NextIsLarger) :
    (b.persistQueueEntry entry).MessagesKept := by
  refine ⟨?_, ?_, ?_⟩
  · exact @Increasing.append _ WaitingMessage.seqno b.messageQueue
      ⟨entry, nextSeqno b.qentry_seqno⟩ kept.increasing larger
  · change Sound _ b.messageRecord (b.messageQueue ++ [⟨entry, nextSeqno b.qentry_seqno⟩]) _
    by_cases put : b.putResult entry = 0
    · rw [@records_insert b (b.persistQueueEntry entry) .queue _ _ rfl (if_pos put)]
      exact kept.sound.put ⟨entry, nextSeqno b.qentry_seqno⟩
    · rw [@records_congr b (b.persistQueueEntry entry) .queue rfl (if_neg put)]
      exact kept.sound.add _
  · intro qe mem
    rcases List.mem_append.mp mem with mem | mem
    · exact kept.readable qe mem
    · rw [List.mem_singleton.mp mem]
      exact readable

theorem MessagesKept.unpersist (kept : b.MessagesKept) {qe : WaitingMessage}
    {rest : List WaitingMessage} (isFirst : b.messageQueue = qe :: rest) :
    (unpersistQueueEntry { b with messageQueue := rest } qe).MessagesKept := by
  have increasing := kept.increasing
  have sound := kept.sound
  have readable := kept.readable
  rw [isFirst] at increasing sound readable
  refine ⟨(List.pairwise_cons.mp increasing).2, ?_,
    fun other mem => readable other (List.mem_cons_of_mem _ mem)⟩
  have erased := @records_erase b (unpersistQueueEntry { b with messageQueue := rest } qe) .queue
    qe.seqno rfl rfl
  rw [erased]
  exact @Sound.remove _ _ WaitingMessage.seqno b.messageRecord [] rest qe _ sound

/-- What is restored are the entries with records, in order. -/
theorem restoreMessageQueue_eq (kept : b.MessagesKept) (own : b.OwnKeys)
    (perm : keys.Perm b.store.keys) :
    (b.restoreMessageQueue keys).messageQueue =
      (b.messageQueue.filter b.hasRecord).map restoredEntry := by
  have readAll := @filterMap_keys b .queue keys _ own perm (.inr rfl) restoredMessage
    restoredMessage_congr
  have reads (qe : WaitingMessage) (mem : qe ∈ b.messageQueue) :
      restoredMessage b.settings.version qe.seqno (b.messageRecord qe) =
        some (restoredEntry qe) := by
    simp only [restoredMessage, messageRecord, QueueRecord.read_write (kept.readable qe mem)]
    rfl
  have sameNumber (qe : WaitingMessage) : (restoredEntry qe).seqno = qe.seqno := rfl
  have entries := perm_of_records kept.increasing kept.sound
    (nodup_numbers own perm (.inr rfl)) (fun n => mem_numbers own perm (.inr rfl)) reads
    sameNumber
  apply insertAll_eq
  · apply List.pairwise_map.mpr
    exact kept.increasing.sublist List.filter_sublist
  · rw [readAll]
    exact entries

theorem MessagesKept.restored (kept : b.MessagesKept) (settings : b'.settings = b.settings)
    (messageQueue : b'.messageQueue = (b.messageQueue.filter b.hasRecord).map restoredEntry)
    (records : b'.records .queue = b.records .queue) : b'.MessagesKept := by
  refine ⟨?_, ?_, ?_⟩
  · rw [messageQueue]
    exact List.pairwise_map.mpr (kept.increasing.sublist List.filter_sublist)
  · rw [messageQueue, records, messageRecord_congr settings]
    intro n record found
    rcases kept.sound n record found with ⟨qe, mem, rfl, rfl⟩
    refine ⟨restoredEntry qe, ?_, rfl, QueueRecord.write_stored⟩
    apply List.mem_map_of_mem
    apply List.mem_filter.mpr
    exact ⟨mem, by rw [hasRecord, found, Option.isSome_some]⟩
  · rw [messageQueue, settings]
    intro qe mem
    rcases List.mem_map.mp mem with ⟨qe', mem', rfl⟩
    exact (kept.readable qe' (List.mem_filter.mp mem').1).stored

theorem MessagesKept.emptied (messageQueue : b.messageQueue = [])
    (records : b.records .queue = fun _ => none) : b.MessagesKept := by
  refine ⟨?_, ?_, ?_⟩
  · rw [messageQueue]
    exact List.Pairwise.nil
  · rw [records]
    intro n record found
    cases found
  · rw [messageQueue]
    exact List.forall_mem_nil _

end Backlog

end Paho
