import Paho.Async.Secure
import Paho.Protocol.Settings

/-!
# The queue of commands keeps the invariant

A command gets a token, goes into the queue and the store, is taken off again and handed to the
session.
-/

namespace Paho

open MQTTPersistence AsyncEvent AsyncSession

namespace MQTTAsyncs

/-- The invariant of a state of the asynchronous client, whose session outlives its
connections. -/
structure IsSecure (s : MQTTAsyncs) : Prop where
  keeps : s.c.KeepsOnClose
  secure : Secure s.c.exchange s.commands s.sending s.phase s.history

variable {s s' : MQTTAsyncs}

/-- The invariant does not depend on the rest of the state. -/
theorem IsSecure.of_same (secure : s.IsSecure) (settings : s'.c.settings = s.c.settings)
    (exchange : s'.c.exchange = s.c.exchange) (commands : s'.commands = s.commands)
    (sending : s'.sending = s.sending) (phase : s'.phase = s.phase)
    (history : s'.history = s.history) : s'.IsSecure := by
  refine ⟨secure.keeps.of_settings settings, ?_⟩
  rw [exchange, commands, sending, phase, history]
  exact secure.secure

end MQTTAsyncs

namespace Secure

variable {e : Exchange} {commands : List QueuedCommand} {phase : Phase}
  {history : List AsyncEvent}

/-- A call begins to add a command. -/
theorem assign (secure : Secure e commands .none phase history) {token : Nat}
    {command : Command} (isCreated : created phase = true) (notHanding : phase.inHand = [])
    (fresh : token = 0 ∨ (token ∉ commands.map QueuedCommand.token ∧ token ∉ ids e.outbound))
    (positive : ∀ message, command.message? = some message → message.qos ≠ 0 → token ≠ 0) :
    Secure e commands (.adding token command) phase history where
  persistent := secure.persistent
  filed := secure.filed
  commandsFiled := secure.commandsFiled
  inbound := secure.inbound
  kept := by
    have kept := secure.kept
    exact ⟨kept.accepted, kept.undelivered3, kept.undelivered5, kept.opened, kept.packets⟩
  consistent := by
    intro isCreated
    have consistent := secure.consistent isCreated
    refine ⟨?_, consistent.sent, consistent.received⟩
    have queue : Custody.QueueHeld e.held.commandRecord
        (commands.filterMap QueuedCommand.entry) (Sending.none.inHand ++ phase.inHand)
        e.held.outbound := consistent.queue
    apply queue.assign _ positive
    rw [notHanding]
    rcases fresh with zero | ⟨notQueued, notInFlight⟩
    · exact .inl zero
    · right
      unfold Custody.tokens
      rw [List.mem_append, List.mem_filter]
      rintro (⟨mem, _⟩ | mem)
      · rcases List.mem_append.mp mem with queued | inHand
        · rcases List.mem_map.mp queued with ⟨entry, entryMem, rfl⟩
          rcases List.mem_filterMap.mp entryMem with ⟨queued, queuedMem, isEntry⟩
          apply notQueued
          refine List.mem_map.mpr ⟨queued, queuedMem, ?_⟩
          rcases queued with ⟨command, token, seqno, notRestored⟩
          unfold QueuedCommand.entry at isEntry
          cases command <;> simp_all
          · rw [← isEntry.2]
          · rw [← isEntry]
        · cases inHand
      · rw [Exchange.held_outbound_ids] at mem
        exact notInFlight mem
  unstored := secure.unstored
  phase := by
    have held := secure.phase
    cases phase with
    | restoring keys => cases isCreated
    | removing keys last => cases last <;> exact held
    | _ => exact held

/-- The commands that are stored stay, and nothing new is in hand. -/
theorem of_entries {sending : Sending} (secure : Secure e commands sending phase history)
    {commands' : List QueuedCommand}
    (entries : commands'.filterMap QueuedCommand.entry =
      commands.filterMap QueuedCommand.entry)
    (restored : (∃ keys, phase = .restoring keys) → commands' = commands)
    (unstored : ∀ queued ∈ commands', queued.Unstored) {sending' : Sending}
    (inHand : sending'.inHand.Sublist sending.inHand) :
    Secure e commands' sending' phase history where
  persistent := secure.persistent
  filed := secure.filed
  commandsFiled := secure.commandsFiled
  inbound := secure.inbound
  kept := by
    have kept := secure.kept
    exact ⟨kept.accepted, kept.undelivered3, kept.undelivered5, kept.opened, kept.packets⟩
  consistent := by
    intro isCreated
    have consistent := secure.consistent isCreated
    refine ⟨?_, consistent.sent, consistent.received⟩
    have queue := consistent.queue
    unfold custody at queue ⊢
    rw [entries]
    exact queue.of_sublist (inHand.append_right _)
  unstored := unstored
  phase := by
    have held := secure.phase
    cases phase with
    | restoring keys =>
        rcases held with ⟨restoring, empty, nothing⟩
        refine ⟨restoring, by rw [restored ⟨keys, rfl⟩, empty], ?_⟩
        rw [nothing] at inHand
        exact List.sublist_nil.mp inHand
    | removing keys last => cases last <;> exact held
    | _ => exact held

/-- A command is put in the store and in the queue. -/
theorem store {token : Nat} {command : Command}
    (secure : Secure e commands (.adding token command) phase history)
    (isCreated : created phase = true) (queued : QueuedCommand) (n : Nat)
    (entry : queued.entry = some (n, token, command.message?))
    (free : e.record (key .command e.mqttVersion n) = none) (stored : queued.Unstored)
    (sending' : Sending)
    (inHand : sending'.inHand = []) :
    Secure (e.put (key .command e.mqttVersion n) (.command token command.message?))
      (commands ++ [queued]) sending' phase
      ((command.message?.map (accepted token)).toList ++ history) := by
  have put := Exchange.held_put_command secure.persistent n token command.message?
  have freeRecord : e.held.commandRecord n = none := by
    change (e.record (key .command e.mqttVersion n)).bind Record.command? = none
    rw [free]
    rfl
  have isStored : custody (e.put (key .command e.mqttVersion n) (.command token command.message?))
      (commands ++ [queued]) sending' phase
      ((command.message?.map (accepted token)).toList ++ history) =
        (custody e commands (.adding token command) phase history).store n token
          command.message? := by
    unfold custody Custody.store
    rw [put, List.filterMap_append, inHand]
    simp [entry, Sending.inHand]
  have consistent := secure.consistent isCreated
  refine ⟨secure.persistent, ?_, ?_, secure.inbound, ?_, ?_, ?_, ?_⟩
  · refine ⟨?_, secure.filed.version⟩
    intro k record inflight found
    rw [Exchange.put_record, if_neg] at found
    · exact secure.filed.wellKeyed k record inflight found
    · rintro ⟨_, rfl⟩
      cases inflight
  · intro k record stem found
    rw [Exchange.put_record] at found
    split at found
    next both =>
      rw [both.2]
      exact ⟨rfl, token, command.message?, (Option.some.inj found).symm⟩
    next => exact secure.commandsFiled k record stem found
  · rw [isStored]
    exact secure.kept.store freeRecord
  · intro _
    rw [isStored]
    exact ⟨consistent.queue.store freeRecord, consistent.sent, consistent.received⟩
  · intro other mem
    rcases List.mem_append.mp mem with old | new
    · exact secure.unstored other old
    · exact List.mem_singleton.mp new ▸ stored
  · have held := secure.phase
    have sameHeld : (e.put (key .command e.mqttVersion n)
        (.command token command.message?)).held.receivedRecord = e.held.receivedRecord := by
      rw [put]
    have sameSent : (e.put (key .command e.mqttVersion n)
        (.command token command.message?)).held.sentRecord = e.held.sentRecord := by
      rw [put]
    cases phase with
    | received publish =>
        refine ⟨held.1, held.2.1, by rw [sameHeld]; exact held.2.2.1, ?_⟩
        intro version mem
        exact (Custody.undelivered_accepted _ _ _ _ _).trans (held.2.2.2 version mem)
    | removing keys last =>
        cases last with
        | outbound msgId =>
            refine ⟨?_, held.2.1, held.2.2.1, by rw [sameSent]; exact held.2.2.2⟩
            intro expected pending
            cases message : command.message? with
            | none =>
                rw [message] at pending
                exact held.1 expected pending
            | some added =>
                rw [message] at pending
                change unfinished msgId (accepted token added :: history) = _ at pending
                unfold unfinished at pending
                split at pending
                next same =>
                  cases pending
                  by_contra positive
                  have queue : Custody.QueueHeld e.held.commandRecord
                      (commands.filterMap QueuedCommand.entry) [(token, command.message?)]
                      e.held.outbound := consistent.queue
                  have nonzero := queue.positive token expected
                    (.inr (by simp [message])) positive
                  refine (List.nodup_append.mp queue.tokens).2.2 token ?_ msgId ?_ same
                  · simp [nonzero]
                  · rw [Exchange.held_outbound_ids]
                    exact held.2.1
                next => exact held.1 expected pending
        | inbound msgId =>
            refine ⟨?_, held.2.1, by rw [sameHeld]; exact held.2.2⟩
            intro version
            exact (Custody.undelivered_accepted _ _ _ _ _).trans (held.1 version)
        | clean => exact held
    | restoring keys => cases isCreated
    | failed => cases isCreated
    | idle => exact held
    | publishing => exact held
    | retrying => exact held
    | sendingAcks => exact held

/-- A command that is not stored is taken off the queue. -/
theorem takeUnstored {sending : Sending} {queued : QueuedCommand} {rest : List QueuedCommand}
    (secure : Secure e (queued :: rest) sending .idle history) (unstored : queued.entry = none)
    (absent : e.record (key .command e.mqttVersion queued.seqno) = none) (phase : Phase)
    (inHand : phase.inHand = [])
    (kept : ∀ u : Custody, u.Kept .steady → u.Kept phase.stage)
    (consistent : ∀ u : Custody, u.Consistent .steady → u.Consistent phase.stage)
    (held : ∀ e history, PhaseHeld e rest sending history phase) :
    Secure (e.erase [key .command e.mqttVersion queued.seqno]) rest sending phase history := by
  have same : e.erase [key .command e.mqttVersion queued.seqno] = e := by
    refine Exchange.ext rfl rfl rfl rfl rfl ?_ rfl
    funext k
    rw [Exchange.erase_record]
    split
    next mem => rw [List.mem_singleton.mp mem, absent]
    next => rfl
  have sameCustody : custody e rest sending phase history =
      custody e (queued :: rest) sending .idle history := by
    unfold custody
    rw [inHand, List.filterMap_cons_none unstored]
    rfl
  rw [same]
  refine ⟨secure.persistent, secure.filed, secure.commandsFiled, secure.inbound, ?_, ?_,
    fun other mem => secure.unstored other (List.mem_cons_of_mem _ mem), held e history⟩
  · rw [sameCustody]
    exact kept _ secure.kept
  · intro _
    rw [sameCustody]
    exact consistent _ (secure.consistent rfl)

/-- A command that is stored is taken off the queue, and its record is removed. -/
theorem takeStored {sending : Sending} {queued : QueuedCommand} {rest : List QueuedCommand}
    {message : Option Session.Message}
    (secure : Secure e (queued :: rest) sending .idle history)
    (stored : queued.entry = some (queued.seqno, queued.token, message)) (phase : Phase)
    (inHand : phase.inHand = [] ∨ phase.inHand = [(queued.token, message)])
    (kept : ∀ u : Custody, u.Kept .steady →
      u.commandRecord queued.seqno = some (queued.token, message) →
        (u.take queued.seqno phase.inHand).Kept phase.stage)
    (consistent : ∀ u : Custody, u.Consistent .steady → u.Consistent phase.stage)
    (held : ∀ e history, PhaseHeld e rest sending history phase) :
    Secure (e.erase [key .command e.mqttVersion queued.seqno]) rest sending phase history := by
  have erased := Exchange.held_erase_command (e := e) queued.seqno
  have isConsistent := secure.consistent rfl
  have queue : Custody.QueueHeld e.held.commandRecord
      ((queued.seqno, queued.token, message) :: rest.filterMap QueuedCommand.entry)
      sending.inHand e.held.outbound := by
    have queue := isConsistent.queue
    unfold custody at queue
    rw [List.filterMap_cons_some stored] at queue
    simpa [Phase.inHand] using queue
  have taken : custody (e.erase [key .command e.mqttVersion queued.seqno]) rest sending phase
      history = (custody e (queued :: rest) sending .idle history).take queued.seqno
        phase.inHand := by
    unfold custody Custody.take
    rw [erased, List.filterMap_cons_some stored]
    simp [Phase.inHand]
  refine ⟨secure.persistent, ⟨secure.filed.wellKeyed.erase _, secure.filed.version⟩, ?_,
    secure.inbound, ?_, ?_, fun other mem => secure.unstored other (List.mem_cons_of_mem _ mem),
    held _ history⟩
  · intro k record stem found
    rw [Exchange.erase_record] at found
    split at found
    · cases found
    · exact secure.commandsFiled k record stem found
  · rw [taken]
    exact kept _ secure.kept ((queue.record _ _).mpr List.mem_cons_self)
  · intro _
    rw [taken]
    apply consistent
    refine ⟨?_, isConsistent.sent, isConsistent.received⟩
    have next := queue.take
    unfold Custody.take custody
    rw [List.filterMap_cons_some stored]
    rcases inHand with empty | handed
    · rw [empty]
      simpa [Phase.inHand] using next.of_sublist (List.sublist_append_left _ _)
    · rw [handed]
      simpa [Phase.inHand] using next

/-- The publication that is handed over is put in flight. -/
theorem start {sending : Sending} {token : Nat} {message : Session.Message}
    (secure : Secure e commands sending (.publishing token message) history)
    (qos : message.qos ≠ 0) (rc : CompletionCode) :
    let publish := Session.publishPacket e.mqttVersion message false token
    Secure ((e.start (MQTTProtocol.createMessage publish message.qos message.retained
      0)).sendPublish publish rc) commands sending .idle history := by
  intro publish
  have consistent := secure.consistent rfl
  have inHand : (Phase.publishing token message).inHand = [(token, some message)] := if_neg qos
  have queue : Custody.QueueHeld e.held.commandRecord (commands.filterMap QueuedCommand.entry)
      (sending.inHand ++ (Phase.publishing token message).inHand) e.held.outbound :=
    consistent.queue
  rw [inHand] at queue
  have notInFlight := queue.not_mem_outbound qos
  have absent : e.held.sentRecord token = none := by
    rw [Option.eq_none_iff_forall_ne_some]
    intro old recorded
    rcases consistent.sent.record token old recorded with ⟨mem, isToken⟩
    exact notInFlight (List.mem_map.mpr ⟨old, mem, isToken⟩)
  have held := Exchange.held_start secure.persistent message token rc
  have started : custody ((e.start (MQTTProtocol.createMessage publish message.qos
      message.retained 0)).sendPublish publish rc) commands sending .idle history =
        (custody e commands sending (.publishing token message) history).start publish := by
    unfold custody Custody.start
    rw [held, inHand, List.dropLast_concat, show Phase.idle.inHand = [] from rfl, List.append_nil]
    rfl
  refine ⟨secure.persistent, ?_, ?_, secure.inbound, ?_, ?_, secure.unstored, trivial⟩
  · have filed : (e.start (MQTTProtocol.createMessage publish message.qos message.retained
        0)).Filed := by
      refine ⟨secure.filed.wellKeyed, fun m mem => ?_⟩
      rcases List.mem_append.mp mem with old | new
      · exact secure.filed.version m old
      · rw [List.mem_singleton.mp new]
        rfl
    exact (filed.put (Exchange.files_publishSent _ publish)).log _
  · intro k record stem found
    rw [Exchange.sendPublish_record, if_neg] at found
    · exact secure.commandsFiled k record stem found
    · rintro ⟨_, rfl⟩
      cases stem
  · rw [started]
    exact secure.kept.start rfl absent
  · intro _
    rw [started]
    refine ⟨?_, ?_, ?_⟩
    · unfold Custody.start custody
      rw [inHand, List.dropLast_concat]
      have next : Custody.QueueHeld e.held.commandRecord
          (commands.filterMap QueuedCommand.entry) sending.inHand
          (e.held.outbound ++ [publish]) := Custody.QueueHeld.start queue qos
      exact next
    · exact (consistent.sent.of_stage (fun _ => Stage.noConfusion) .steady).start notInFlight
    · exact consistent.received.of_plain (fun _ => Stage.noConfusion) (fun _ => Stage.noConfusion)
        .steady

/-- A publication of QoS 0 is sent. -/
theorem startQos0 {sending : Sending} {token : Nat} {message : Session.Message}
    (secure : Secure e commands sending (.publishing token message) history)
    (qos : message.qos = 0) (event : Event) :
    Secure (e.log event) commands sending .idle history := by
  have consistent := secure.consistent rfl
  have inHand : (Phase.publishing token message).inHand = [] := if_pos qos
  have same : custody (e.log event) commands sending .idle history =
      custody e commands sending (.publishing token message) history := by
    unfold custody
    rw [inHand]
    rfl
  refine ⟨secure.persistent, secure.filed.log event, secure.commandsFiled, secure.inbound, ?_, ?_,
    secure.unstored, trivial⟩
  · rw [same]
    exact secure.kept.handQos0 qos
  · intro _
    rw [same]
    exact consistent.of_stage (fun _ => Stage.noConfusion) (fun _ => Stage.noConfusion)
      (fun _ => Stage.noConfusion) _

end Secure

namespace MQTTAsyncs

variable {s : MQTTAsyncs}

theorem inHand_of_mutexFree {phase : Phase} (free : mutexFree phase = true) :
    phase.inHand = [] := by
  cases phase with
  | publishing => cases free
  | _ => rfl

theorem created_of_mutexFree {phase : Phase} (free : mutexFree phase = true) :
    created phase = true := by
  cases phase with
  | restoring => cases free
  | failed => cases free
  | _ => rfl

/-- An assigned token is 0 or not in use; only `msgID` changes. -/
theorem assignMsgId_spec {after : MQTTAsyncs} {msgid : Nat}
    (assigned : s.assignMsgId = some (msgid, after)) :
    (∃ id, after = { s with c := { s.c with msgID := id } }) ∧
      (msgid ≠ 0 → msgid ∉ s.usedMsgIds) := by
  unfold assignMsgId at assigned
  split at assigned
  · cases assigned
  next found =>
    simp only [Option.some.injEq, Prod.mk.injEq] at assigned
    rcases assigned with ⟨rfl, rfl⟩
    constructor
    · split
      · exact ⟨_, rfl⟩
      · exact ⟨s.c.msgID, rfl⟩
    · intro positive
      rcases searchMsgId_spec (nextMsgId_pos _) found with zero | unused
      · exact absurd zero positive
      · exact unused.2

/-- A call gets a token and goes on to add its command. -/
theorem IsSecure.assign (secure : s.IsSecure) (free : mutexFree s.phase = true)
    (idle : s.sending = .none) (token : Nat) (command : Command) (id : Nat)
    (fresh : token ≠ 0 → token ∉ s.usedMsgIds)
    (positive : ∀ message, command.message? = some message → message.qos ≠ 0 → token ≠ 0) :
    IsSecure { s with c := { s.c with msgID := id }, sending := .adding token command } := by
  refine ⟨secure.keeps, ?_⟩
  have invariant := secure.secure
  rw [idle] at invariant
  apply invariant.assign (created_of_mutexFree free) (inHand_of_mutexFree free) _ positive
  by_cases zero : token = 0
  · exact .inl zero
  · right
    have unused := fresh zero
    unfold usedMsgIds at unused
    simp only [List.mem_append, not_or] at unused
    refine ⟨unused.1.1, ?_⟩
    rw [show s.c.exchange.outbound = s.c.outboundMsgs.map Messages.untouched from rfl,
      ids_map_untouched]
    exact unused.1.2

theorem isSecure_send (secure : s.IsSecure) (free : mutexFree s.phase = true)
    (idle : s.sending = .none) (message : Session.Message) : (s.send message).IsSecure := by
  unfold send
  split
  · exact secure
  · split
    · exact secure
    · split
      next qos =>
        split
        · exact secure
        · have added := secure.assign free idle 0 (.publish message) s.c.msgID (absurd rfl)
          refine added ?_
          intro other isMessage positive
          cases isMessage
          exact absurd qos positive
      next qos =>
        split
        · exact secure
        next msgid after assigned =>
          rcases assignMsgId_spec assigned with ⟨⟨id, rfl⟩, fresh⟩
          have same : IsSecure { s with c := { s.c with msgID := id } } :=
            secure.of_same rfl rfl rfl rfl rfl rfl
          split
          · exact same
          next nonzero =>
            split
            · exact same
            · exact secure.assign free idle msgid _ id fresh fun _ _ _ => nonzero

theorem isSecure_subscribe (secure : s.IsSecure) (free : mutexFree s.phase = true)
    (idle : s.sending = .none) : s.subscribe.IsSecure := by
  unfold subscribe
  split
  · exact secure
  · split
    · exact secure
    next msgid after assigned =>
      rcases assignMsgId_spec assigned with ⟨⟨id, rfl⟩, fresh⟩
      split
      · exact secure.of_same rfl rfl rfl rfl rfl rfl
      next nonzero => exact secure.assign free idle msgid _ id fresh fun _ _ _ => nonzero

/-- A CONNECT or DISCONNECT command has no token. -/
theorem isSecure_request (secure : s.IsSecure) (free : mutexFree s.phase = true)
    (idle : s.sending = .none) {command : Command} (noMessage : command.message? = none)
    (shouldBeConnected : Bool) :
    IsSecure
      { s with shouldBeConnected := shouldBeConnected, sending := .adding 0 command } := by
  have added := secure.assign free idle 0 command s.c.msgID (absurd rfl) (by simp [noMessage])
  exact added.of_same rfl rfl rfl rfl rfl rfl

theorem phase_not_restoring {phase : Phase} (isCreated : created phase = true) :
    ¬∃ keys, phase = .restoring keys := by
  rintro ⟨keys, rfl⟩
  cases isCreated

theorem addFirst_commands {command : Command} (connection : command.isConnection = true) :
    ((s.addFirst command).commands.filterMap QueuedCommand.entry =
        s.commands.filterMap QueuedCommand.entry) ∧
      ((∀ queued ∈ s.commands, queued.Unstored) →
        ∀ queued ∈ (s.addFirst command).commands, queued.Unstored) := by
  have noEntry : QueuedCommand.entry ⟨command, 0, 0, false⟩ = none := by
    cases command <;> first | rfl | cases connection
  have unstored : QueuedCommand.Unstored ⟨command, 0, 0, false⟩ := by
    intro message isPublish
    change command = .publish message at isPublish
    subst isPublish
    cases connection
  unfold addFirst
  split
  next empty =>
    rw [empty]
    refine ⟨List.filterMap_cons_none noEntry, fun _ queued mem => ?_⟩
    exact List.mem_singleton.mp mem ▸ unstored
  next first rest queue =>
    split
    · exact ⟨rfl, id⟩
    · rw [queue]
      refine ⟨List.filterMap_cons_none noEntry, fun all queued mem => ?_⟩
      rcases List.mem_cons.mp mem with rfl | old
      · exact unstored
      · exact all queued old

/-- Adding a connection command at the head of the queue. -/
theorem IsSecure.addFirst (secure : s.IsSecure) (isCreated : created s.phase = true)
    {command : Command} (connection : command.isConnection = true) :
    (s.addFirst command).IsSecure := by
  have same : s.addFirst command = { s with commands := (s.addFirst command).commands } := by
    unfold MQTTAsyncs.addFirst
    split
    · rfl
    · split <;> rfl
  have commands := addFirst_commands (s := s) connection
  rw [same]
  refine ⟨secure.keeps, ?_⟩
  exact secure.secure.of_entries commands.1
    (fun restoring => absurd restoring (phase_not_restoring isCreated))
    (commands.2 secure.secure.unstored) (List.Sublist.refl _)

/-- A call is over. -/
theorem IsSecure.endCall (secure : s.IsSecure) : IsSecure { s with sending := .none } :=
  ⟨secure.keeps, secure.secure.of_entries rfl (fun _ => rfl) secure.secure.unstored
    (List.nil_sublist _)⟩

/-- The next sequence number is free when the command that is being added is put in the store. -/
def FreeSeqno (s : MQTTAsyncs) : Prop :=
  s.c.record (s.commandKey (nextSeqno s.commandSeqno)) = none

theorem isSecure_addCommand (secure : s.IsSecure) (isCreated : created s.phase = true)
    {token : Nat} {command : Command} (adding : s.sending = .adding token command)
    (free : s.FreeSeqno) : (s.addCommand token command).IsSecure := by
  have invariant := secure.secure
  have notRestoring := phase_not_restoring isCreated
  rw [adding] at invariant
  have append {queued : QueuedCommand} (noEntry : queued.entry = none)
      (unstored : queued.Unstored) {sending : Sending} (inHand : sending.inHand = []) :
      Secure s.c.exchange (s.commands ++ [queued]) sending s.phase s.history := by
    apply invariant.of_entries _ (fun restoring => absurd restoring notRestoring) _
      (by rw [inHand]; exact List.nil_sublist _)
    · simp [noEntry]
    · intro other mem
      rcases List.mem_append.mp mem with old | new
      · exact secure.secure.unstored other old
      · exact List.mem_singleton.mp new ▸ unstored
  have persistent : s.c.persistence.isSome = true := invariant.persistent
  unfold addCommand
  split
  next atHead =>
    apply IsSecure.endCall
    apply secure.addFirst isCreated
    cases command <;> first | rfl | cases atHead
  next notAtHead =>
    cases command with
    | connect => exact absurd rfl notAtHead
    | disconnect internal =>
        have calls : s.callsPersistCommand (.disconnect internal) = true := persistent
        rw [if_pos calls]
        refine ⟨secure.keeps, append rfl ?_ rfl⟩
        intro message isPublish
        cases isPublish
    | subscribe =>
        have calls : s.callsPersistCommand .subscribe = true := persistent
        rw [if_pos calls]
        refine ⟨secure.keeps, ?_⟩
        have stored := invariant.store isCreated
          ⟨.subscribe, token, nextSeqno s.commandSeqno, false⟩ (nextSeqno s.commandSeqno) rfl free
          (fun message isPublish => by cases isPublish) .none rfl
        rw [← Clients.exchange_putRecord] at stored
        exact stored
    | publish message =>
        by_cases calls : s.callsPersistCommand (.publish message) = true
        · rw [if_pos calls]
          refine ⟨secure.keeps, ?_⟩
          have stored := invariant.store isCreated
            ⟨.publish message, token, nextSeqno s.commandSeqno, true⟩ (nextSeqno s.commandSeqno)
            rfl free (fun message isPublish notStored => by cases notStored) .added rfl
          rw [← Clients.exchange_putRecord] at stored
          exact stored
        · rw [if_neg calls]
          refine ⟨secure.keeps, append rfl ?_ rfl⟩
          intro other isPublish _
          cases isPublish
          unfold callsPersistCommand at calls
          simp only [persistent, Bool.true_and, Bool.or_eq_true, not_or, bne_iff_ne,
            ne_eq, Decidable.not_not] at calls
          exact calls.1

/-- Unless the buffer is full, nothing is deleted. -/
theorem isSecure_checkBuffer (secure : s.IsSecure) (notFull : s.bufferFull = false) :
    s.checkBuffer.IsSecure := by
  have same : s.checkBuffer =
      { s with sending := .none, noBufferedMessages := s.noBufferedMessages + 1 } := by
    have stillNotFull : bufferFull { s with sending := .none } = false := notFull
    simp [checkBuffer, stillNotFull]
  rw [same]
  exact secure.endCall.of_same rfl rfl rfl rfl rfl rfl

/-- A command that was never stored has no record under its sequence number. -/
def NoStrayRecord (s : MQTTAsyncs) : Prop :=
  ∀ queued ∈ s.commands.head?, queued.entry = none →
    s.c.record (s.commandKey queued.seqno) = none

/-- The message of a stored command is read back from the store. -/
theorem restoreCommand_stored (secure : s.IsSecure) (isCreated : created s.phase = true)
    {queued : QueuedCommand} {message : Session.Message} (mem : queued ∈ s.commands)
    (publish : queued.command = .publish message) (stored : queued.notRestored = true) :
    s.restoreCommand queued message = some message := by
  have entry : queued.entry = some (queued.seqno, queued.token, some message) := by
    simp [QueuedCommand.entry, publish, stored]
  have record := ((secure.secure.consistent isCreated).queue.record queued.seqno
    (queued.token, some message)).mpr (List.mem_filterMap.mpr ⟨queued, mem, entry⟩)
  change (s.c.record (s.commandKey queued.seqno)).bind Record.command? = _ at record
  rcases Option.bind_eq_some_iff.mp record with ⟨found, isFound, isCommand⟩
  unfold restoreCommand
  rw [if_pos stored, isFound]
  cases found <;> simp_all [Record.command?]

theorem isSecure_processCommand (secure : s.IsSecure) (idle : s.phase = .idle)
    (noStray : s.NoStrayRecord) (expired : Bool) : (s.processCommand expired).IsSecure := by
  have isCreated : created s.phase = true := by
    rw [idle]
    rfl
  have persistent : s.c.persistence.isSome = true := secure.secure.persistent
  unfold processCommand
  split
  · exact secure
  next queued rest commands =>
    split
    · exact secure
    · have invariant := secure.secure
      rw [commands, idle] at invariant
      have absent (unstored : queued.entry = none) :
          s.c.exchange.record (key .command s.c.exchange.mqttVersion queued.seqno) = none :=
        noStray queued (by rw [commands]; rfl) unstored
      have erased : (unpersistCommand { s with commands := rest } queued).c.exchange =
          s.c.exchange.erase [key .command s.c.exchange.mqttVersion queued.seqno] :=
        Clients.exchange_removeRecords _ _
      cases command : queued.command with
      | publish message =>
          dsimp only
          cases stored : queued.notRestored with
          | true =>
              rw [restoreCommand_stored secure isCreated (by simp [commands]) command stored]
              refine ⟨secure.keeps, ?_⟩
              have entry : queued.entry = some (queued.seqno, queued.token, some message) := by
                simp [QueuedCommand.entry, command, stored]
              have inHand : (Phase.publishing queued.token message).inHand = [] ∨
                  (Phase.publishing queued.token message).inHand =
                    [(queued.token, some message)] := by
                by_cases qos : message.qos = 0
                · exact .inl (if_pos qos)
                · exact .inr (if_neg qos)
              have taken := invariant.takeStored entry (.publishing queued.token message) inHand
                (fun u kept record => kept.takePublish record _)
                (fun u consistent => consistent.of_steady _) fun _ _ => trivial
              rw [← erased] at taken
              exact taken
          | false =>
              have restored : s.restoreCommand queued message = some message := by
                simp [restoreCommand, stored]
              rw [restored]
              refine ⟨secure.keeps, ?_⟩
              have entry : queued.entry = none := by
                simp [QueuedCommand.entry, command, stored]
              have qos : message.qos = 0 :=
                secure.secure.unstored queued (by simp [commands]) message command stored
              have taken := invariant.takeUnstored entry (absent entry)
                (.publishing queued.token message) (if_pos qos)
                (fun u kept => kept.of_plain Stage.plain_steady _)
                (fun u consistent => consistent.of_steady _) fun _ _ => trivial
              rw [← erased] at taken
              exact taken
      | subscribe =>
          have entry : queued.entry = some (queued.seqno, queued.token, none) := by
            simp [QueuedCommand.entry, command]
          have taken := invariant.takeStored entry .idle (.inl rfl)
            (fun u kept record => kept.takeOther (by simp [record]) _)
            (fun u consistent => consistent) fun _ _ => trivial
          rw [← erased] at taken
          have after : IsSecure { unpersistCommand { s with commands := rest } queued with
              phase := .idle } := ⟨secure.keeps, taken⟩
          dsimp only
          split
          next net _ =>
            have next : IsSecure { unpersistCommand { s with commands := rest } queued with
                c := { (unpersistCommand { s with commands := rest } queued).c with net := net }
                  } :=
              after.of_same rfl rfl rfl rfl idle rfl
            exact next.addFirst isCreated rfl
          · exact after.of_same rfl rfl rfl rfl idle rfl
      | connect =>
          have entry : queued.entry = none := by simp [QueuedCommand.entry, command]
          have taken := invariant.takeUnstored entry (absent entry) .idle rfl
            (fun u kept => kept) (fun u consistent => consistent) fun _ _ => trivial
          rw [← erased] at taken
          have after : IsSecure { unpersistCommand { s with commands := rest } queued with
              phase := .idle } := ⟨secure.keeps, taken⟩
          exact after.of_same rfl rfl rfl rfl idle rfl
      | disconnect internal =>
          have entry : queued.entry = none := by simp [QueuedCommand.entry, command]
          have taken := invariant.takeUnstored entry (absent entry) .idle rfl
            (fun u kept => kept) (fun u consistent => consistent) fun _ _ => trivial
          rw [← erased] at taken
          have after : IsSecure { unpersistCommand { s with commands := rest } queued with
              phase := .idle } := ⟨secure.keeps, taken⟩
          dsimp only
          split
          · exact after.of_same (steady_asyncCloseSession _).settings
              (exchange_asyncCloseSession after.keeps) rfl rfl idle rfl
          · exact after.of_same rfl rfl rfl rfl idle rfl

theorem isSecure_disconnectInternal (secure : s.IsSecure) (isCreated : created s.phase = true) :
    s.disconnectInternal.IsSecure :=
  secure.addFirst isCreated rfl

theorem isSecure_startPublish (secure : s.IsSecure) {token : Nat} {message : Session.Message}
    (publishing : s.phase = .publishing token message) :
    (s.startPublish token message).IsSecure := by
  have invariant := secure.secure
  rw [publishing] at invariant
  have settings := (steady_startPublish s.c
    (Session.publishPacket s.c.mqttVersion message false token) message.qos
    message.retained).settings
  have started : Secure (MQTTProtocol.startPublish s.c
      (Session.publishPacket s.c.mqttVersion message false token) message.qos
      message.retained).2.exchange s.commands s.sending .idle s.history := by
    by_cases qos : message.qos = 0
    · have unchanged : (MQTTProtocol.startPublish s.c
          (Session.publishPacket s.c.mqttVersion message false token) message.qos
          message.retained).2.exchange = s.c.exchange.log (.sentPublish token false
            (MQTTProtocol.startPublish s.c
              (Session.publishPacket s.c.mqttVersion message false token) message.qos
              message.retained).1) := by
        unfold MQTTProtocol.startPublish
        rw [if_neg (by omega)]
        rw [show message.qos = 0 from qos]
        exact exchange_send_publish_qos0 _ _ _ _
      rw [unchanged]
      exact invariant.startQos0 qos _
    · rw [exchange_startPublish token (Nat.pos_of_ne_zero qos)]
      exact invariant.start qos _
  unfold startPublish
  rcases result : MQTTProtocol.startPublish s.c
    (Session.publishPacket s.c.mqttVersion message false token) message.qos message.retained
    with ⟨rc, c⟩
  rw [result] at started settings
  have after : IsSecure { s with c := c, phase := .idle } :=
    ⟨secure.keeps.of_settings settings, started⟩
  dsimp only
  rw [result]
  cases rc with
  | socketError => exact isSecure_disconnectInternal after rfl
  | interrupted => exact after.of_same rfl rfl rfl rfl rfl rfl
  | complete =>
      by_cases qos : message.qos = 0
      · simpa only [if_pos qos] using after
      · simp only [if_neg qos]
        exact after.of_same rfl rfl rfl rfl rfl rfl

end MQTTAsyncs

end Paho
