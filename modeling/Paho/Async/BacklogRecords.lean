import Paho.Async.Backlog

/-!
# The records of the backlog

What the operations on the store do to the records of commands and of messages, and what is
restored from the records when their numbers grow.
-/

namespace Paho

open Numbered

namespace Backlog

variable {b b' : Backlog} {stem other : Stem} {n : Nat} {record : Bytes}
  {keys : List PersistenceKey}

section Operations

theorem records_insert (settings : b'.settings = b.settings)
    (store : b'.store = b.store.insert (b.key stem n) record) :
    b'.records stem = Function.update (b.records stem) n (some record) := by
  funext m
  have sameKey : b'.key stem m = b.key stem m := by simp [key, settings]
  unfold records
  rw [sameKey, store]
  by_cases same : m = n
  · subst same
    rw [Function.update_self, AList.lookup_insert]
  · have different : b.key stem m ≠ b.key stem n := fun isSame =>
      same (congrArg PersistenceKey.number isSame)
    rw [Function.update_of_ne same, AList.lookup_insert_ne different]

theorem records_insert_other (different : other ≠ stem) (settings : b'.settings = b.settings)
    (store : b'.store = b.store.insert (b.key stem n) record) :
    b'.records other = b.records other := by
  funext m
  have sameKey : b'.key other m = b.key other m := by simp [key, settings]
  have differentKey : b.key other m ≠ b.key stem n := fun isSame =>
    different (congrArg PersistenceKey.stem isSame)
  unfold records
  rw [sameKey, store, AList.lookup_insert_ne differentKey]

theorem records_erase (settings : b'.settings = b.settings)
    (store : b'.store = b.store.erase (b.key stem n)) :
    b'.records stem = Function.update (b.records stem) n none := by
  funext m
  have sameKey : b'.key stem m = b.key stem m := by simp [key, settings]
  unfold records
  rw [sameKey, store]
  by_cases same : m = n
  · subst same
    rw [Function.update_self, AList.lookup_erase]
  · have different : b.key stem m ≠ b.key stem n := fun isSame =>
      same (congrArg PersistenceKey.number isSame)
    rw [Function.update_of_ne same, AList.lookup_erase_ne different]

theorem records_erase_other (different : other ≠ stem) (settings : b'.settings = b.settings)
    (store : b'.store = b.store.erase (b.key stem n)) :
    b'.records other = b.records other := by
  funext m
  have sameKey : b'.key other m = b.key other m := by simp [key, settings]
  have differentKey : b.key other m ≠ b.key stem n := fun isSame =>
    different (congrArg PersistenceKey.stem isSame)
  unfold records
  rw [sameKey, store, AList.lookup_erase_ne differentKey]

theorem records_congr (settings : b'.settings = b.settings) (store : b'.store = b.store) :
    b'.records stem = b.records stem := by
  funext m
  unfold records key
  rw [settings, store]

/-- The keys of commands and messages have the form of the client's version. -/
def OwnKeys (b : Backlog) : Prop :=
  ∀ k ∈ b.store, isBacklogKey k = true → k.v5 = decide (mqttVersion5 ≤ b.settings.version)

theorem OwnKeys.insert (own : b.OwnKeys) (settings : b'.settings = b.settings)
    (store : b'.store = b.store.insert (b.key stem n) record) : b'.OwnKeys := by
  intro k mem backlog
  rw [settings]
  rw [store, AList.mem_insert] at mem
  rcases mem with rfl | mem
  · rfl
  · exact own k mem backlog

theorem OwnKeys.erase (own : b.OwnKeys) (settings : b'.settings = b.settings)
    {k : PersistenceKey} (store : b'.store = b.store.erase k) : b'.OwnKeys := by
  intro k mem backlog
  rw [settings]
  rw [store, AList.mem_erase] at mem
  exact own k mem.2 backlog

theorem OwnKeys.congr (own : b.OwnKeys) (settings : b'.settings = b.settings)
    (store : b'.store = b.store) : b'.OwnKeys := by
  intro k mem backlog
  rw [settings]
  rw [store] at mem
  exact own k mem backlog

theorem lookup_restartEmpty {store : RecordStore} {k : PersistenceKey}
    (emptied : store = (b.store.keys.filter isBacklogKey).foldl (fun s key => s.erase key) b.store)
    (backlog : isBacklogKey k = true) : store.lookup k = none := by
  rw [emptied, lookup_foldl_erase]
  split
  · rfl
  next stays =>
    cases found : b.store.lookup k with
    | none => rfl
    | some record =>
        apply absurd _ stays
        apply List.mem_filter.mpr
        refine ⟨AList.mem_keys.mp (AList.lookup_isSome.mp ?_), backlog⟩
        rw [found]
        rfl

end Operations

section Cases

theorem addFirst_cases {type : CommandType} :
    b.addFirst type = b ∨
      b.addFirst type = { b with commands := ⟨type, 0, false, none⟩ :: b.commands } := by
  unfold addFirst
  split
  next first rest isFirst =>
    split
    · exact .inl rfl
    · exact .inr rfl
  next isEmpty => exact .inr (by rw [isEmpty])

theorem addCommand_cases {request : Request} :
    b.addCommand request = b ∨
      (∃ type, b.addCommand request =
        { b with commands := b.commands ++ [⟨type, 0, false, none⟩] }) ∨
      ∃ command record,
        request.unstored b.settings.persistQoS0 = false ∧
          request.command b.settings.version = some command ∧
          CommandRecord.persistCommand b.settings.version command = some record ∧
          b.addCommand request =
            { b with
              commands := b.commands ++
                [⟨command.details.commandType, nextSeqno b.command_seqno,
                  decide (command.details.commandType = .publish), some record⟩]
              command_seqno := nextSeqno b.command_seqno
              store := b.store.insert (b.key .command (nextSeqno b.command_seqno)) record } := by
  unfold addCommand
  split
  · exact .inl rfl
  next command isCommand =>
    dsimp only
    split
    · exact .inr (.inl ⟨command.details.commandType, rfl⟩)
    next kept =>
      split
      · exact .inl rfl
      next record isRecord =>
        exact .inr (.inr ⟨command, record, Bool.eq_false_of_not_eq_true kept, isCommand, isRecord,
          rfl⟩)

theorem deleteOldest_cases :
    b.deleteOldest = b ∨
      ∃ first_publish, (b.commands.find? fun command => command.type = .publish) =
          some first_publish ∧
        b.deleteOldest =
          unpersistCommand { b with commands := b.commands.erase first_publish } first_publish := by
  unfold deleteOldest
  split
  · exact .inl rfl
  next first_publish isFirst => exact .inr ⟨first_publish, isFirst, rfl⟩

theorem processCommand_cases :
    b.processCommand = b ∨
      ∃ command rest, b.commands = command :: rest ∧
        b.processCommand = unpersistCommand { b with commands := rest } command := by
  cases isFirst : b.commands with
  | nil => exact .inl (by simp only [processCommand, isFirst])
  | cons command rest =>
      cases found : b.records .command command.seqno <;>
        simp only [processCommand, isFirst, found] <;>
        split
      case none.isTrue => exact .inl rfl
      case none.isFalse => exact .inr ⟨command, rest, rfl, rfl⟩
      case some.isTrue => exact .inl rfl
      case some.isFalse => exact .inr ⟨command, rest, rfl, rfl⟩

theorem settings_restart : (b.restart keys).settings = b.settings := by
  unfold restart
  dsimp only
  split <;> rfl

theorem store_restart : (b.restart keys).store = b.store := by
  unfold restart
  dsimp only
  split <;> rfl

theorem messageQueue_restart (perm : keys.Perm b.store.keys) :
    (b.restart keys).messageQueue = (b.restoreMessageQueue keys).messageQueue := by
  unfold restart
  rw [if_pos perm]
  dsimp only
  split <;> rfl

theorem restart_perm : ∃ keys', keys'.Perm b.store.keys ∧ b.restart keys = b.restart keys' := by
  by_cases perm : keys.Perm b.store.keys
  · exact ⟨keys, perm, rfl⟩
  · refine ⟨b.store.keys, List.Perm.refl _, ?_⟩
    simp only [restart, if_neg perm, if_pos (List.Perm.refl _)]

end Cases

section Restoring

/-- The numbers of the keys of a stem. -/
def numbers (stem : Stem) (keys : List PersistenceKey) : List Nat :=
  (keys.filter fun k => k.stem = stem).map PersistenceKey.number

theorem eq_key (own : b.OwnKeys) (backlog : stem = .command ∨ stem = .queue)
    {k : PersistenceKey} (mem : k ∈ b.store) (isStem : k.stem = stem) :
    k = b.key stem k.number := by
  have v5 := own k mem (by
    subst isStem
    simpa [isBacklogKey] using backlog)
  rcases k with ⟨stem', v5', number⟩
  simp only at isStem v5
  subst isStem v5
  rfl

theorem mem_numbers (own : b.OwnKeys) (perm : keys.Perm b.store.keys)
    (backlog : stem = .command ∨ stem = .queue) :
    n ∈ numbers stem keys ↔ (b.records stem n).isSome = true := by
  have inStore {k : PersistenceKey} : k ∈ keys ↔ k ∈ b.store :=
    perm.mem_iff.trans AList.mem_keys.symm
  unfold numbers records
  rw [AList.lookup_isSome]
  constructor
  · intro mem
    rcases List.mem_map.mp mem with ⟨k, memFilter, rfl⟩
    rcases List.mem_filter.mp memFilter with ⟨memKeys, isStem⟩
    have stored := inStore.mp memKeys
    rw [← eq_key own backlog stored (of_decide_eq_true isStem)]
    exact stored
  · intro stored
    apply List.mem_map.mpr
    exact ⟨b.key stem n, List.mem_filter.mpr ⟨inStore.mpr stored, decide_eq_true rfl⟩, rfl⟩

theorem nodup_numbers (own : b.OwnKeys) (perm : keys.Perm b.store.keys)
    (backlog : stem = .command ∨ stem = .queue) : (numbers stem keys).Nodup := by
  have inStore {k : PersistenceKey} : k ∈ keys ↔ k ∈ b.store :=
    perm.mem_iff.trans AList.mem_keys.symm
  apply List.Nodup.map_on
  · intro k mem k' mem' same
    rcases List.mem_filter.mp mem with ⟨memKeys, isStem⟩
    rcases List.mem_filter.mp mem' with ⟨memKeys', isStem'⟩
    rw [eq_key own backlog (inStore.mp memKeys) (of_decide_eq_true isStem),
      eq_key own backlog (inStore.mp memKeys') (of_decide_eq_true isStem'), same]
  · exact (perm.nodup_iff.mpr b.store.keys_nodup).filter _

/-- Reading the records of the keys of a stem is reading the records of their numbers. -/
theorem filterMap_keys {View : Type} (own : b.OwnKeys) (perm : keys.Perm b.store.keys)
    (backlog : stem = .command ∨ stem = .queue) {restored : Nat → Nat → Bytes → Option View}
    (sameVersion : ∀ v v', (mqttVersion5 ≤ v ↔ mqttVersion5 ≤ v') → restored v = restored v') :
    ((keys.filter fun k => k.stem = stem).filterMap fun k => (b.store.lookup k).bind
        (restored (if k.v5 then mqttVersion5 else mqttVersion311) k.number)) =
      (numbers stem keys).filterMap fun n =>
        (b.records stem n).bind (restored b.settings.version n) := by
  have inStore {k : PersistenceKey} : k ∈ keys ↔ k ∈ b.store :=
    perm.mem_iff.trans AList.mem_keys.symm
  unfold numbers
  rw [List.filterMap_map]
  apply List.filterMap_congr
  intro k mem
  rcases List.mem_filter.mp mem with ⟨memKeys, isStem⟩
  have isKey := eq_key own backlog (inStore.mp memKeys) (of_decide_eq_true isStem)
  have version : restored (if k.v5 then mqttVersion5 else mqttVersion311) =
      restored b.settings.version := by
    have v5 : k.v5 = decide (mqttVersion5 ≤ b.settings.version) :=
      congrArg PersistenceKey.v5 isKey
    apply sameVersion
    rw [v5]
    by_cases five : mqttVersion5 ≤ b.settings.version
    · rw [decide_eq_true five, if_pos rfl]
      exact iff_of_true (Nat.le_refl _) five
    · rw [decide_eq_false five, if_neg Bool.false_ne_true]
      exact iff_of_false (by decide) five
  rw [Function.comp_apply, version, records, ← isKey]

theorem restoredMessage_congr (v v' : Nat) (same : mqttVersion5 ≤ v ↔ mqttVersion5 ≤ v') :
    restoredMessage v = restoredMessage v' := by
  funext n record
  unfold restoredMessage QueueRecord.read
  simp only [same]

theorem restoredCommand_congr (v v' : Nat) (same : mqttVersion5 ≤ v ↔ mqttVersion5 ≤ v') :
    restoredCommand v = restoredCommand v' := by
  funext n record
  unfold restoredCommand CommandRecord.restoreCommand CommandRecord.readDetails
    CommandRecord.readSub
  simp only [same]

end Restoring

end Backlog

end Paho
