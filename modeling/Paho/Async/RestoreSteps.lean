import Paho.Async.SessionSteps

/-!
# Restarts keep the invariant

The process ends at a point that a crash does not harm, and a new process reads the records
back, key by key, until the lists in memory hold what the records hold.
-/

namespace Paho

open MQTTPersistence AsyncEvent AsyncSession

namespace Exchange

variable {e : Exchange} {packet : Publish}

/-- The restored outbound message stands for the publication of its record. -/
theorem publication_restoredSent
    (canonical : ∃ message msgId,
      packet.content = Session.publishPacket e.mqttVersion message false msgId) :
    publication (e.restoredSent packet) = packet.content := by
  rcases canonical with ⟨message, msgId, same⟩
  rcases packet with ⟨dup, qos, retain, topic, id, payload, mqttVersion, properties⟩
  simp only [Publish.content, Session.publishPacket, Publish.mk.injEq] at same
  rcases same with ⟨_, rfl, rfl, rfl, rfl, rfl, rfl, rfl⟩
  by_cases version : mqttVersion5 ≤ e.mqttVersion <;>
    simp [publication, restoredSent, MQTTProtocol.retryPublish, Publish.content,
      MQTTProtocol.createMessage, MQTTProtocol.storePublication, version]

/-- Before MQTT 5 the restored inbound message stands for the publication of its record. -/
theorem publicationOf_restored_canonical
    (canonical : ∃ message msgId,
      packet.content = Session.publishPacket e.mqttVersion message false msgId)
    (version : e.mqttVersion < mqttVersion5) :
    MQTTProtocol.publicationOf (e.restoredReceived packet) = packet.content := by
  rcases canonical with ⟨message, msgId, same⟩
  rcases packet with ⟨dup, qos, retain, topic, id, payload, mqttVersion, properties⟩
  simp only [Publish.content, Session.publishPacket, Publish.mk.injEq] at same
  rcases same with ⟨_, rfl, rfl, rfl, rfl, rfl, rfl, rfl⟩
  have old : ¬mqttVersion5 ≤ e.mqttVersion := Nat.not_le.mpr version
  simp [restoredReceived, MQTTProtocol.publicationOf, Publish.content,
    MQTTProtocol.createMessage, MQTTProtocol.storePublication, old]

end Exchange

/-- A crash in this phase loses nothing: no publication of QoS 1 or 2 is handed over, and no new
one of MQTT 5 has just been put in the store. -/
def Phase.Harmless (phase : Phase) (mqttVersion : Nat) (inbound : List Messages) : Prop :=
  match phase with
  | .publishing _ message => message.qos = 0
  | .received publish => mqttVersion5 ≤ mqttVersion → publish.msgId ∈ ids inbound
  | _ => True

namespace RestoringFrom

variable {base e e' : Exchange} {done todo : List PersistenceKey} {k : PersistenceKey}

/-- Restoring only removes PUBREL records. -/
theorem recordAt (restoring : RestoringFrom base done todo e) {stem : Stem}
    (other : stem ≠ .pubrel) : e.recordAt stem = base.recordAt stem := by
  funext n
  have version : e.mqttVersion = base.mqttVersion := restoring.restored.mqttVersion
  unfold Exchange.recordAt
  rw [version]
  exact restoring.restored.record _ fun _ orphan => other orphan.1

theorem apart_held (restoring : RestoringFrom base done todo e) : e.held.Apart := by
  have commands : e.held.commandRecord = base.held.commandRecord := by
    change (Option.bind · Record.command?) ∘ e.recordAt .command = _
    rw [restoring.recordAt Stem.noConfusion]
    rfl
  have sent : e.held.sentRecord = base.held.sentRecord := by
    change (Option.bind · Record.publish?) ∘ e.recordAt .publishSent = _
    rw [restoring.recordAt Stem.noConfusion]
    rfl
  have apart := restoring.apart
  constructor
  · rw [commands]
    exact apart.commands
  · rw [commands, sent]
    exact apart.sent
  · rw [commands]
    exact apart.positive

end RestoringFrom

namespace Secure

variable {e e' : Exchange} {commands : List QueuedCommand} {sending : Sending} {phase : Phase}
  {history : List AsyncEvent} {keys : List PersistenceKey} {k : PersistenceKey}

/-- The records of a store name every token once, whatever is under way. -/
theorem apart (secure : Secure e commands sending phase history) : e.held.Apart := by
  by_cases isCreated : created phase = true
  · have apart := (secure.consistent isCreated).apart
    exact ⟨apart.commands, apart.sent, apart.positive⟩
  · have held := secure.phase
    cases phase with
    | restoring keys =>
        rcases held with ⟨⟨base, done, restoring⟩, _⟩
        exact restoring.apart_held
    | failed => exact held.elim
    | _ => exact absurd rfl isCreated

/-- The process ends where that is harmless. -/
theorem restart (secure : Secure e commands sending phase history)
    (harmless : phase.Harmless e.mqttVersion e.inbound) (distinct : keys.Nodup)
    (listed : ∀ k, k ∈ keys ↔ (e.record k).isSome) :
    Secure e.restarted [] .none (.restoring keys) history where
  persistent := secure.persistent
  filed := ⟨secure.filed.wellKeyed, fun m mem => absurd mem List.not_mem_nil⟩
  commandsFiled := secure.commandsFiled
  inbound := fun m mem => absurd mem List.not_mem_nil
  kept := by
    have kept : (custody e commands sending phase history).Kept .steady := by
      have kept := secure.kept
      have held := secure.phase
      cases phase with
      | publishing token message => exact kept.handQos0 harmless
      | received publish =>
          exact kept.handled fun version => held.2.2.2 version (harmless version)
      | removing keys last =>
          cases last with
          | outbound msgId => exact kept.of_plain (Stage.plain_finishing msgId) _
          | inbound msgId => exact kept.of_plain (Stage.plain_releasing msgId) _
          | clean => exact kept
      | _ => exact kept
    exact ⟨kept.accepted, kept.undelivered3, kept.undelivered5, kept.opened, kept.packets⟩
  consistent := fun isCreated => absurd isCreated Bool.false_ne_true
  unstored := fun queued mem => absurd mem List.not_mem_nil
  phase := by
    refine ⟨⟨e, [], secure.filed.wellKeyed, secure.apart, listed, distinct, ?_⟩, rfl, rfl⟩
    exact ⟨rfl, rfl, rfl, rfl, fun k mem => absurd mem List.not_mem_nil, fun _ _ => rfl,
      .refl _, rfl⟩

/-- The record of a key that is still to come is there. -/
theorem isSome_record (secure : Secure e commands sending (.restoring (k :: keys)) history) :
    (e.record k).isSome := by
  rcases secure.phase with ⟨⟨base, done, restoring⟩, _⟩
  have notDone : k ∉ done := by
    intro isDone
    exact (List.nodup_append.mp restoring.distinct).2.2 k isDone k List.mem_cons_self rfl
  rw [restoring.restored.others k notDone]
  exact (restoring.listed k).mp (by simp)

/-- One key is restored. -/
theorem restoreKey (secure : Secure e commands sending (.restoring (k :: keys)) history)
    (restored : RestoredKeys e [k] e') :
    Secure e' commands sending (.restoring keys) history := by
  rcases secure.phase with ⟨⟨base, done, restoring⟩, empty, nothing⟩
  have same (stem : Stem) (other : stem ≠ .pubrel) : e'.recordAt stem = e.recordAt stem := by
    funext n
    unfold Exchange.recordAt
    rw [restored.mqttVersion]
    exact restored.same _ fun orphan => other orphan.1
  have held : e'.held = { e.held with
      outbound := e'.held.outbound
      inbound := e'.held.inbound } := by
    unfold Exchange.held
    rw [same _ Stem.noConfusion, same _ Stem.noConfusion, same _ Stem.noConfusion,
      restored.mqttVersion]
  have kept : (custody e' commands sending (.restoring keys) history).Kept .steady := by
    have kept := secure.kept
    unfold custody
    rw [held]
    exact ⟨kept.accepted, kept.undelivered3, kept.undelivered5, kept.opened, kept.packets⟩
  refine
    { persistent := restored.persistent.trans secure.persistent
      filed := ⟨restored.wellKeyed secure.filed.wellKeyed, ?_⟩
      commandsFiled := ?_
      inbound := ?_
      kept := kept
      consistent := fun isCreated => absurd isCreated Bool.false_ne_true
      unstored := secure.unstored
      phase := ⟨⟨base, done ++ [k], restoring.wellKeyed, restoring.apart, ?_, ?_, ?_⟩, empty,
        nothing⟩ }
  · intro m mem
    rw [restored.mqttVersion]
    rcases List.mem_append.mp (restored.outbound.mem_iff.mp mem) with old | new
    · exact secure.filed.version m old
    · rcases List.mem_filterMap.mp new with ⟨_, _, isNew⟩
      rcases Option.map_eq_some_iff.mp isNew with ⟨packet, _, rfl⟩
      rfl
  · intro other record stem stored
    rw [restored.same other fun orphan => Stem.noConfusion (stem.symm.trans orphan.1)] at stored
    rw [restored.mqttVersion]
    exact secure.commandsFiled other record stem stored
  · intro m mem
    rw [restored.mqttVersion]
    rw [restored.inbound] at mem
    rcases List.mem_append.mp mem with old | new
    · exact secure.inbound m old
    · rcases List.mem_filterMap.mp new with ⟨other, _, isNew⟩
      rcases Option.map_eq_some_iff.mp isNew with ⟨packet, found, rfl⟩
      rcases key_of_publishOf secure.filed.wellKeyed (.inr rfl) found with ⟨isKey, stored⟩
      rw [isKey] at stored
      rcases secure.filed.wellKeyed.publishReceived stored with ⟨read, isRead, _, qos⟩
      cases isRead
      exact ⟨⟨qos, rfl⟩, rfl⟩
  · intro other
    rw [List.append_assoc]
    exact restoring.listed other
  · rw [List.append_assoc]
    exact restoring.distinct
  · have wellKeyed : base.restarted.WellKeyed := restoring.wellKeyed
    apply RestoredKeys.append wellKeyed restoring.restored restored
    intro other isDone isKey
    rw [List.mem_singleton] at isKey
    subst isKey
    exact (List.nodup_append.mp restoring.distinct).2.2 other isDone other List.mem_cons_self rfl

/-- What a command record holds, with its number. -/
def commandEntry (e : Exchange) (k : PersistenceKey) :
    Option (Nat × Nat × Option Session.Message) :=
  (e.record k).bind fun record => record.command?.map fun entry => (k.number, entry)

/-- The restored commands are those of the command records. -/
theorem mem_commandEntries (secure : Secure e commands sending phase history)
    (listed : ∀ k, k ∈ keys ↔ k.stem = .command ∧ (e.record k).isSome) (n : Nat)
    (entry : Nat × Option Session.Message) :
    e.held.commandRecord n = some entry ↔ (n, entry) ∈ keys.filterMap (commandEntry e) := by
  change (e.record (key .command e.mqttVersion n)).bind Record.command? = some entry ↔ _
  rw [List.mem_filterMap]
  constructor
  · intro recorded
    rcases Option.bind_eq_some_iff.mp recorded with ⟨record, stored, isEntry⟩
    refine ⟨key .command e.mqttVersion n, (listed _).mpr ⟨rfl, by rw [stored]; rfl⟩, ?_⟩
    unfold commandEntry
    rw [stored, Option.bind_some, isEntry]
    rfl
  · rintro ⟨k, mem, isEntry⟩
    have stem := ((listed k).mp mem).1
    rcases Option.bind_eq_some_iff.mp isEntry with ⟨record, stored, isCommand⟩
    rcases Option.map_eq_some_iff.mp isCommand with ⟨found, isFound, same⟩
    simp only [Prod.mk.injEq] at same
    rcases same with ⟨rfl, rfl⟩
    have keyed := (secure.commandsFiled k record stem stored).1
    rw [← keyed, stored]
    exact isFound

theorem nodup_commandEntries (secure : Secure e commands sending phase history)
    (listed : ∀ k, k ∈ keys ↔ k.stem = .command ∧ (e.record k).isSome) (distinct : keys.Nodup) :
    ((keys.filterMap (commandEntry e)).map (·.1)).Nodup := by
  have number {k : PersistenceKey} {n : Nat} {entry : Nat × Option Session.Message}
      (isEntry : commandEntry e k = some (n, entry)) : k.number = n := by
    rcases Option.bind_eq_some_iff.mp isEntry with ⟨record, _, isCommand⟩
    rcases Option.map_eq_some_iff.mp isCommand with ⟨_, _, same⟩
    exact congrArg Prod.fst same
  have keyed {k : PersistenceKey} (mem : k ∈ keys) : k = key .command e.mqttVersion k.number := by
    rcases (listed k).mp mem with ⟨stem, present⟩
    rcases Option.isSome_iff_exists.mp present with ⟨record, stored⟩
    exact (secure.commandsFiled k record stem stored).1
  rw [List.Nodup, List.pairwise_map, List.pairwise_filterMap]
  apply List.Pairwise.imp_of_mem _ distinct
  rintro k k' mem mem' different ⟨n, entry⟩ isEntry ⟨n', entry'⟩ isEntry' same
  have sameNumber : n = n' := same
  apply different
  rw [keyed mem, keyed mem', number isEntry, number isEntry', sameNumber]

/-- The session is restored. -/
theorem restored {after : Clients} {done : List PersistenceKey} {commands' : List QueuedCommand}
    {base : Exchange}
    (secure : Secure after.exchange commands sending (.restoring []) history)
    (restoring : RestoringFrom base done [] after.exchange)
    (listed : ∀ k, k ∈ keys ↔ k.stem = .command ∧ (after.exchange.record k).isSome)
    (distinct : keys.Nodup)
    (entries : commands'.filterMap QueuedCommand.entry =
      keys.filterMap (commandEntry after.exchange))
    (unstored : ∀ queued ∈ commands', queued.Unstored) (nothing : sending.inHand = []) :
    Secure { after with outboundMsgs := wrapMsgID after.outboundMsgs }.exchange commands' sending
      .idle history := by
  have allListed : ∀ k, k ∈ done ↔ (base.record k).isSome := by
    intro k
    rw [← restoring.listed k, List.append_nil]
  have allDistinct : done.Nodup := by
    have nodup := restoring.distinct
    rwa [List.append_nil] at nodup
  have restores := restoring.restored.restores restoring.wellKeyed allListed allDistinct
  have version : after.exchange.mqttVersion = base.mqttVersion := restoring.restored.mqttVersion
  have outbound : ({ after with outboundMsgs := wrapMsgID after.outboundMsgs } : Clients).exchange =
      { after.exchange with
        outbound := (wrapMsgID after.outboundMsgs).map Messages.untouched } := rfl
  rw [outbound] at restores ⊢
  generalize (wrapMsgID after.outboundMsgs).map Messages.untouched = messages at restores
  generalize after.exchange = e at secure restoring restores version listed entries
  have held : { e with outbound := messages }.held =
      { e.held with outbound := messages.map Exchange.publication } := rfl
  have sentAt : e.recordAt .publishSent = base.recordAt .publishSent :=
    restoring.recordAt Stem.noConfusion
  have receivedAt : e.recordAt .publishReceived = base.recordAt .publishReceived :=
    restoring.recordAt Stem.noConfusion
  have canonical {id : Nat} {packet : Publish} (recorded :
      e.held.sentRecord id = some packet.content ∨ e.held.receivedRecord id = some packet.content) :
      ∃ message msgId,
        packet.content = Session.publishPacket base.mqttVersion message false msgId := by
    have packets := secure.kept.packets id packet.content recorded
    rw [← version]
    exact packets
  have sent (packet : Publish)
      (stored : base.record (key .publishSent base.mqttVersion packet.msgId) =
        some (.publish packet)) : e.held.sentRecord packet.msgId = some packet.content := by
    change (e.recordAt .publishSent packet.msgId).bind Record.publish? = _
    rw [sentAt]
    change (base.record (key .publishSent base.mqttVersion packet.msgId)).bind Record.publish? = _
    rw [stored]
    rfl
  have received (packet : Publish)
      (stored : base.record (key .publishReceived base.mqttVersion packet.msgId) =
        some (.publish packet)) : e.held.receivedRecord packet.msgId = some packet.content := by
    change (e.recordAt .publishReceived packet.msgId).bind Record.publish? = _
    rw [receivedAt]
    change (base.record (key .publishReceived base.mqttVersion packet.msgId)).bind
      Record.publish? = _
    rw [stored]
    rfl
  have found {stem : Stem} {id : Nat} {publish : Publish}
      (inflight : isInflight (key stem base.mqttVersion id))
      (recorded : (base.recordAt stem id).bind Record.publish? = some publish) :
      ∃ packet : Publish,
        base.record (key stem base.mqttVersion packet.msgId) = some (.publish packet) ∧
          packet.content = publish ∧ packet.msgId = id := by
    rcases Option.bind_eq_some_iff.mp recorded with ⟨record, stored, isPublish⟩
    cases record with
    | publish packet =>
        cases isPublish
        have files := (restoring.wellKeyed _ _ inflight stored).2
        have id : packet.msgId = id := files.2
        refine ⟨packet, ?_, rfl, id⟩
        rw [id]
        exact stored
    | _ => cases isPublish
  refine
    { persistent := secure.persistent
      filed := ⟨secure.filed.wellKeyed, ?_⟩
      commandsFiled := secure.commandsFiled
      inbound := secure.inbound
      kept := ?_
      consistent := fun _ => ⟨?_, ⟨?_, ?_⟩, ⟨?_, ?_, ?_⟩⟩
      unstored := unstored
      phase := trivial }
  · intro m mem
    rcases (restores.outbound m).mp mem with ⟨packet, _, rfl⟩
    exact version.symm
  · have kept := secure.kept
    exact ⟨kept.accepted, kept.undelivered3, kept.undelivered5, kept.opened, kept.packets⟩
  · have inHand : sending.inHand ++ Phase.idle.inHand = [] := by
      rw [nothing]
      rfl
    have apart := secure.apart
    let u : Custody :=
      { e.held with
        commands := commands'.filterMap QueuedCommand.entry
        outbound := messages.map Exchange.publication }
    have uApart : u.Apart := ⟨apart.commands, apart.sent, apart.positive⟩
    have queue : Custody.QueueHeld u.commandRecord u.commands u.inHand u.outbound := by
      apply Custody.QueueHeld.restored uApart
      · intro n entry
        change e.held.commandRecord n = some entry ↔
          (n, entry) ∈ commands'.filterMap QueuedCommand.entry
        rw [entries]
        exact secure.mem_commandEntries listed n entry
      · change ((commands'.filterMap QueuedCommand.entry).map (·.1)).Nodup
        rw [entries]
        exact secure.nodup_commandEntries listed distinct
      · rfl
      · intro publish mem
        rcases List.mem_map.mp mem with ⟨m, inFlight, rfl⟩
        rcases (restores.outbound m).mp inFlight with ⟨packet, stored, rfl⟩
        have recorded := sent packet stored
        have same := Exchange.publication_restoredSent (canonical (.inl recorded))
        rw [same]
        exact recorded
      · have nodup := restores.distinctOutbound
        change ((messages.map Exchange.publication).map Publish.msgId).Nodup
        rw [List.map_map]
        exact nodup
    change Custody.QueueHeld e.held.commandRecord (commands'.filterMap QueuedCommand.entry)
      (sending.inHand ++ Phase.idle.inHand) (messages.map Exchange.publication)
    rw [inHand]
    exact queue
  · intro id publish recorded
    have recorded' : (base.recordAt .publishSent id).bind Record.publish? = some publish := by
      rw [← sentAt]
      exact recorded
    rcases found rfl recorded' with ⟨packet, stored, rfl, rfl⟩
    refine ⟨List.mem_map.mpr ⟨base.restoredSent packet, (restores.outbound _).mpr
      ⟨packet, stored, rfl⟩, ?_⟩, rfl⟩
    exact Exchange.publication_restoredSent (canonical (.inl (sent packet stored)))
  · intro publish mem _
    rcases List.mem_map.mp mem with ⟨m, inFlight, rfl⟩
    rcases (restores.outbound m).mp inFlight with ⟨packet, stored, rfl⟩
    have recorded := sent packet stored
    rw [Exchange.publication_restoredSent (canonical (.inl recorded))]
    exact recorded
  · have nodup := restores.distinctInbound
    change ((e.inbound.map MQTTProtocol.publicationOf).map Publish.msgId).Nodup
    rw [List.map_map]
    exact nodup
  · intro id publish recorded
    have recorded' : (base.recordAt .publishReceived id).bind Record.publish? = some publish := by
      rw [← receivedAt]
      exact recorded
    rcases found rfl recorded' with ⟨packet, stored, rfl, rfl⟩
    right
    refine ⟨_, List.mem_map_of_mem ((restores.inbound _).mpr ⟨packet, stored, rfl⟩), rfl, ?_⟩
    intro old
    have old' : base.mqttVersion < mqttVersion5 := by
      rw [← version]
      exact old
    exact Exchange.publicationOf_restored_canonical (canonical (.inr (received packet stored))) old'
  · intro publish mem _
    rcases List.mem_map.mp mem with ⟨m, inbound, rfl⟩
    rcases (restores.inbound m).mp inbound with ⟨packet, stored, rfl⟩
    change (e.held.receivedRecord packet.msgId).isSome
    rw [received packet stored]
    rfl

end Secure

namespace MQTTAsyncs

variable {s : MQTTAsyncs} {keys : List PersistenceKey}

/-- The process ends where that is harmless, and the new one lists the keys of the store. -/
theorem isSecure_restart (secure : s.IsSecure)
    (harmless : s.phase.Harmless s.c.mqttVersion s.c.inboundMsgs)
    (listed : keys.Perm s.c.recordKeys) : (s.restart keys).IsSecure := by
  refine ⟨secure.keeps, secure.secure.restart ?_ ?_ ?_⟩
  · have sameIds : ids s.c.exchange.inbound = ids s.c.inboundMsgs := ids_map_untouched
    unfold Phase.Harmless at harmless ⊢
    split at harmless
    · exact harmless
    · rw [sameIds]
      exact harmless
    · trivial
  · exact listed.nodup_iff.mpr s.c.recordKeys_nodup
  · exact fun k => listed.mem_iff.trans (s.c.mem_recordKeys k)

/-- The commands that `MQTTAsync_restoreCommands` restores. -/
theorem restoreCommands_entries (s : MQTTAsyncs) :
    let keys := (s.c.recordKeys.filter fun key => key.stem = .command).insertionSort
      fun key other => key.number ≤ other.number
    (s.restoreCommands.commands.filterMap QueuedCommand.entry =
        keys.filterMap (Secure.commandEntry s.c.exchange)) ∧
      ∀ queued ∈ s.restoreCommands.commands, queued.Unstored := by
  intro keys
  constructor
  · change (keys.filterMap _).filterMap QueuedCommand.entry = _
    rw [List.filterMap_filterMap]
    apply List.filterMap_congr
    intro key _
    change Option.bind _ QueuedCommand.entry = (s.c.record key).bind _
    cases s.c.record key with
    | none => rfl
    | some record =>
        cases record with
        | command token message => cases message <;> rfl
        | _ => rfl
  · intro queued mem message isPublish notStored
    rcases List.mem_filterMap.mp mem with ⟨key, _, isQueued⟩
    split at isQueued
    · cases isQueued
      cases notStored
    · cases isQueued
      cases isPublish
    · cases isQueued

theorem isSecure_createRestored (secure : s.IsSecure) (restoring : s.phase = .restoring []) :
    s.createRestored.IsSecure := by
  have invariant := secure.secure
  rw [restoring] at invariant
  rcases invariant.phase with ⟨⟨base, done, restoringFrom⟩, _, nothing⟩
  let wrapped : MQTTAsyncs :=
    { s with c := { s.c with outboundMsgs := wrapMsgID s.c.outboundMsgs } }
  rcases restoreCommands_entries wrapped with ⟨entries, unstored⟩
  refine ⟨secure.keeps, ?_⟩
  refine invariant.restored restoringFrom ?_ ?_ entries unstored nothing
  · intro k
    rw [List.mem_insertionSort, List.mem_filter, Clients.mem_recordKeys, and_comm]
    simp only [decide_eq_true_eq]
    rfl
  · exact (List.perm_insertionSort _ _).nodup_iff.mpr (wrapped.c.recordKeys_nodup.filter _)

/-- The next key of the store is restored. -/
theorem exists_restoreKey {k : PersistenceKey}
    (secure : Secure s.c.exchange s.commands s.sending (.restoring (k :: keys)) s.history) :
    ∃ after, restoreKey s.c k = .continues after ∧
      Secure after.exchange s.commands s.sending (.restoring keys) s.history := by
  rcases Option.isSome_iff_exists.mp secure.isSome_record with ⟨record, stored⟩
  rcases restoreKey_spec secure.filed.wellKeyed stored with ⟨after, isAfter, restored⟩
  exact ⟨after, isAfter, secure.restoreKey restored⟩

theorem settings_restoreKey {c after : Clients} {k : PersistenceKey}
    (isAfter : restoreKey c k = .continues after) : after.settings = c.settings := by
  unfold restoreKey at isAfter
  split at isAfter
  · cases isAfter
    rfl
  · split at isAfter
    · cases isAfter
    · split at isAfter
      · cases isAfter
      · split at isAfter
        · cases isAfter
          rfl
        · cases isAfter
          rfl
        · split at isAfter <;> cases isAfter <;> rfl
        · cases isAfter
          rfl

theorem isSecure_restoring (secure : s.IsSecure) {k : PersistenceKey}
    (restoring : s.phase = .restoring (k :: keys)) (accepts : Bool) :
    (s.advance accepts).IsSecure := by
  have invariant := secure.secure
  rw [restoring] at invariant
  rcases exists_restoreKey invariant with ⟨after, isAfter, restored⟩
  unfold advance
  rw [restoring]
  dsimp only
  rw [isAfter]
  exact ⟨secure.keeps.of_settings (settings_restoreKey isAfter), restored⟩

end MQTTAsyncs

end Paho
