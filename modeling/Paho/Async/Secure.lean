import Paho.Async.Records
import Paho.Protocol.ExactlyOnce

/-!
# States that a crash does not harm

The invariant of the asynchronous client: the records hold every publication that is not
finished, and the lists in memory hold what the records hold, but for what the thread that holds
the mutex is doing.
-/

namespace Paho

open MQTTPersistence AsyncEvent

/-- The message of a PUBLISH command. -/
def Command.message? : Command → Option Session.Message
  | .publish message => some message
  | _ => none

/-- What a command that was stored holds. -/
def QueuedCommand.entry (queued : QueuedCommand) :
    Option (Nat × Nat × Option Session.Message) :=
  match queued.command with
  | .publish message =>
      if queued.notRestored then some (queued.seqno, queued.token, some message) else none
  | .subscribe => some (queued.seqno, queued.token, none)
  | _ => none

/-- Only publications of QoS 0 are not stored. -/
def QueuedCommand.Unstored (queued : QueuedCommand) : Prop :=
  ∀ message, queued.command = .publish message → queued.notRestored = false → message.qos = 0

def Sending.inHand : Sending → List (Nat × Option Session.Message)
  | .adding token command => [(token, command.message?)]
  | _ => []

namespace Phase

/-- A publication of QoS 0 that is handed over is in no list, and needs none. -/
def inHand : Phase → List (Nat × Option Session.Message)
  | .publishing token message => if message.qos = 0 then [] else [(token, some message)]
  | _ => []

def stage : Phase → Stage
  | .publishing token message => .publishing token message
  | .received publish => .received publish
  | .removing _ (.outbound msgId) => .finishing msgId
  | .removing _ (.inbound msgId) => .releasing msgId
  | _ => .steady

end Phase

/-- The custody of a state of the client. -/
def custody (e : Exchange) (commands : List QueuedCommand) (sending : Sending) (phase : Phase)
    (history : List AsyncEvent) : Custody :=
  { e.held with
    commands := commands.filterMap QueuedCommand.entry
    inHand := sending.inHand ++ phase.inHand
    history := history }

/-- Some keys remain of those of a session that is being restored. -/
structure RestoringFrom (base : Exchange) (done todo : List PersistenceKey) (e : Exchange) :
    Prop where
  wellKeyed : base.WellKeyed
  apart : base.held.Apart
  listed : ∀ k, k ∈ done ++ todo ↔ (base.record k).isSome
  distinct : (done ++ todo).Nodup
  restored : RestoredKeys base.restarted done e

/-- What holds of the work that a thread has begun. -/
def PhaseHeld (e : Exchange) (commands : List QueuedCommand) (sending : Sending)
    (history : List AsyncEvent) : Phase → Prop
  | .idle | .publishing _ _ | .sendingAcks _ => True
  | .received publish =>
      (∃ dup message msgId, publish = Session.publishPacket e.mqttVersion message dup msgId) ∧
        publish.qos = 2 ∧ e.held.receivedRecord publish.msgId = some publish.content ∧
        (mqttVersion5 ≤ e.mqttVersion → publish.msgId ∈ ids e.inbound →
          undelivered e.mqttVersion publish.msgId history = none)
  | .removing keys (.outbound msgId) =>
      (∀ message, unfinished msgId history = some message → message.qos = 0) ∧
        msgId ∈ ids e.outbound ∧ (∀ k ∈ keys, k ∈ removedKeys .publishSent msgId) ∧
        (e.held.sentRecord msgId = none ∨ key .publishSent e.mqttVersion msgId ∈ keys)
  | .removing keys (.inbound msgId) =>
      (e.mqttVersion < mqttVersion5 → undelivered e.mqttVersion msgId history = none) ∧
        (∀ k ∈ keys, k ∈ removedKeys .publishReceived msgId) ∧
        (e.held.receivedRecord msgId = none ∨ key .publishReceived e.mqttVersion msgId ∈ keys)
  | .removing keys .clean => e.outbound = [] ∧ e.inbound = [] ∧ ∀ k ∈ keys, k.stem = .pubrel
  | .retrying _ _ remaining => ∀ m ∈ remaining, m.untouched ∈ e.outbound
  | .restoring keys =>
      (∃ base done, RestoringFrom base done keys e) ∧ commands = [] ∧ sending.inHand = []
  | .failed => False

/-- The invariant of the asynchronous client. -/
structure Secure (e : Exchange) (commands : List QueuedCommand) (sending : Sending)
    (phase : Phase) (history : List AsyncEvent) : Prop where
  persistent : e.persistent = true
  filed : e.Filed
  commandsFiled : ∀ k record, k.stem = .command → e.record k = some record →
    k = key .command e.mqttVersion k.number ∧ ∃ token message, record = .command token message
  inbound : ∀ m ∈ e.inbound, Exchange.AwaitsInboundPubrel m ∧ m.mqttVersion = e.mqttVersion
  kept : (custody e commands sending phase history).Kept phase.stage
  consistent : AsyncSession.created phase = true →
    (custody e commands sending phase history).Consistent phase.stage
  unstored : ∀ queued ∈ commands, queued.Unstored
  phase : PhaseHeld e commands sending history phase

/-- A change of the session that leaves what it holds as it is. -/
structure SameHeld (e e' : Exchange) : Prop where
  held : e'.held = e.held
  filed : e.Filed → e'.Filed
  persistent : e'.persistent = e.persistent
  commands : ∀ k, k.stem = .command → e'.record k = e.record k
  inbound : e'.inbound = e.inbound
  outbound : ids e'.outbound = ids e.outbound

namespace SameHeld

variable {e e' e'' : Exchange}

theorem mqttVersion (same : SameHeld e e') : e'.mqttVersion = e.mqttVersion :=
  congrArg Custody.mqttVersion same.held

theorem refl (e : Exchange) : SameHeld e e :=
  ⟨rfl, id, rfl, fun _ _ => rfl, rfl, rfl⟩

theorem trans (first : SameHeld e e') (second : SameHeld e' e'') : SameHeld e e'' where
  held := second.held.trans first.held
  filed := second.filed ∘ first.filed
  persistent := second.persistent.trans first.persistent
  commands := fun k stem => (second.commands k stem).trans (first.commands k stem)
  inbound := second.inbound.trans first.inbound
  outbound := second.outbound.trans first.outbound

theorem log (event : Event) : SameHeld e (e.log event) :=
  ⟨rfl, fun filed => filed.log event, rfl, fun _ _ => rfl, rfl, rfl⟩

theorem dropQueue : SameHeld e { e with queue := [] } :=
  ⟨rfl, fun filed => ⟨filed.wellKeyed, filed.version⟩, rfl, fun _ _ => rfl, rfl, rfl⟩

theorem sendAck {mqttVersion : Nat} (version : mqttVersion = e.mqttVersion) (type : PacketType)
    (msgId : Nat) (rc : CompletionCode) : SameHeld e (e.sendAck mqttVersion type msgId rc) := by
  subst version
  refine ⟨Exchange.held_sendAck type msgId rc, fun filed => filed.sendAck type rc, by simp, ?_,
    by simp, by simp⟩
  intro k stem
  rw [Exchange.sendAck_record, if_neg]
  rintro ⟨_, _, rfl⟩
  cases stem

theorem acknowledges {type : PacketType} {msgId : Nat}
    (acknowledges : Exchange.Acknowledges e type msgId e') : SameHeld e e' := by
  cases acknowledges with
  | sent rc => exact sendAck rfl type msgId rc
  | queued =>
      exact ⟨rfl, fun filed => ⟨filed.wellKeyed, filed.version⟩, rfl, fun _ _ => rfl, rfl, rfl⟩

theorem acceptPubrec (msgId : Nat) : SameHeld e (e.acceptPubrec msgId) :=
  ⟨Exchange.held_acceptPubrec msgId, fun filed => filed.acceptPubrec msgId, rfl,
    fun _ _ => rfl, rfl, ids_updateMessage fun _ same => same⟩

theorem put_queue (n : Nat) (publish : Publish) :
    SameHeld e (e.put (key .queue e.mqttVersion n) (.queue publish)) := by
  refine ⟨Exchange.held_put_other (k := key .queue e.mqttVersion n) Stem.noConfusion
    Stem.noConfusion Stem.noConfusion _, ?_, rfl, ?_, rfl, rfl⟩
  · intro filed
    refine ⟨?_, filed.version⟩
    intro k record inflight stored
    rw [Exchange.put_record, if_neg] at stored
    · exact filed.wellKeyed k record inflight stored
    · rintro ⟨_, rfl⟩
      cases inflight
  · intro k stem
    rw [Exchange.put_record, if_neg]
    rintro ⟨_, rfl⟩
    cases stem

/-- The removal of a record that is not a record of what is held. -/
theorem erase_other {k : PersistenceKey} (command : k.stem ≠ .command)
    (sent : ∀ n, k ≠ key .publishSent e.mqttVersion n)
    (received : ∀ n, k ≠ key .publishReceived e.mqttVersion n) : SameHeld e (e.erase [k]) := by
  refine ⟨Exchange.held_erase_other (Exchange.key_ne_of_stem command _) sent received, ?_, rfl,
    ?_, rfl, rfl⟩
  · exact fun filed => ⟨filed.wellKeyed.erase _, filed.version⟩
  · intro other stem
    rw [Exchange.erase_record, if_neg]
    rw [List.mem_singleton]
    rintro rfl
    exact command stem

/-- A retry of a message in flight. -/
theorem retryPublish {m : Messages} (persistent : e.persistent = true) (filed : e.Filed)
    (mem : m ∈ e.outbound)
    (recorded : e.held.sentRecord m.msgid = some (Exchange.publication m)) (rc : CompletionCode) :
    SameHeld e (e.sendPublish (MQTTProtocol.retryPublish m) rc) := by
  refine ⟨Exchange.held_retryPublish persistent (filed.version m mem) recorded rc,
    fun _ => filed.retryPublish mem rc, rfl, ?_, rfl, rfl⟩
  intro k stem
  rw [Exchange.sendPublish_record, if_neg]
  rintro ⟨_, rfl⟩
  cases stem

end SameHeld

namespace Secure

variable {e e' : Exchange} {commands : List QueuedCommand} {sending : Sending}
  {phase phase' : Phase} {history : List AsyncEvent}

theorem custody_congr (held : e'.held = e.held) (inHand : phase'.inHand = phase.inHand) :
    custody e' commands sending phase' history = custody e commands sending phase history := by
  unfold custody
  rw [held, inHand]

/-- A step that leaves what is held as it is, and goes on to another phase. -/
theorem of_same (secure : Secure e commands sending phase history) (same : SameHeld e e')
    (stage : phase'.stage = phase.stage) (inHand : phase'.inHand = phase.inHand)
    (created : AsyncSession.created phase' = true → AsyncSession.created phase = true)
    (held : PhaseHeld e' commands sending history phase') :
    Secure e' commands sending phase' history where
  persistent := same.persistent.trans secure.persistent
  filed := same.filed secure.filed
  commandsFiled := by
    intro k record stem stored
    rw [same.commands k stem] at stored
    rw [same.mqttVersion]
    exact secure.commandsFiled k record stem stored
  inbound := by
    rw [same.inbound, same.mqttVersion]
    exact secure.inbound
  kept := by
    rw [custody_congr same.held inHand, stage]
    exact secure.kept
  consistent := by
    intro isCreated
    rw [custody_congr same.held inHand, stage]
    exact secure.consistent (created isCreated)
  unstored := secure.unstored
  phase := held

end Secure

end Paho
