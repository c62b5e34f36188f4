import Paho.Async.Steps
import Mathlib.Data.List.Nodup

/-!
# Who holds a publication

The asynchronous client hands a publication from one kind of record to another: a command
record, the record of the PUBLISH in flight, the record of a received PUBLISH. A `Custody` is what
the records and the lists in memory hold, without the packets, the socket and the keys. The
invariants that make a crash harmless are stated and proved of it.
-/

namespace Paho

namespace AsyncEvent

/-- The message that was accepted under a token and whose exchange is not finished. -/
def unfinished (token : Nat) : List AsyncEvent → Option Session.Message
  | [] => none
  | .accepted other message :: history =>
      if other = token then some message else unfinished token history
  | .finished other :: history => if other = token then none else unfinished token history
  | _ :: history => unfinished token history

/-- Whether a PUBLISH with this id was recorded and its record is not removed. -/
def exchangeOpen (msgId : Nat) : List AsyncEvent → Bool
  | [] => false
  | .recorded publish :: history => publish.msgId == msgId || exchangeOpen msgId history
  | .released other :: history => other != msgId && exchangeOpen msgId history
  | _ :: history => exchangeOpen msgId history

/-- The last PUBLISH of QoS 2 with this id that was recorded and neither passed on nor queued
since. In MQTT 5 a PUBLISH that arrives again while its exchange is open is no publication of its
own. -/
def undelivered (mqttVersion msgId : Nat) : List AsyncEvent → Option Publish
  | [] => none
  | .recorded publish :: history =>
      if publish.msgId = msgId ∧
          (mqttVersion5 ≤ mqttVersion → exchangeOpen msgId history = false) then some publish
      else undelivered mqttVersion msgId history
  | .passed publish :: history | .queued publish :: history =>
      if publish.msgId = msgId ∧ publish.qos = 2 then none
      else undelivered mqttVersion msgId history
  | _ :: history => undelivered mqttVersion msgId history

end AsyncEvent

open AsyncEvent

/-- What the records of the store and the lists in memory hold. The DUP flag of a PUBLISH is
erased. A command has its sequence number, its token, and its message if it is a publication. -/
@[ext]
structure Custody where
  mqttVersion : Nat
  commandRecord : Nat → Option (Nat × Option Session.Message)
  sentRecord : Nat → Option Publish
  receivedRecord : Nat → Option Publish
  commands : List (Nat × Nat × Option Session.Message)
  /-- Commands that are between a call and the queue, or between the queue and the session. -/
  inHand : List (Nat × Option Session.Message)
  outbound : List Publish
  inbound : List Publish
  history : List AsyncEvent

/-- What the thread that holds the mutex is doing with a publication. -/
inductive Stage where
  | steady
  | publishing (token : Nat) (message : Session.Message)
  | received (publish : Publish)
  | finishing (token : Nat)
  | releasing (msgId : Nat)
  deriving DecidableEq

/-- No publication is handed over, and none has just been received. -/
def Stage.Plain (stage : Stage) : Prop :=
  (∀ token message, stage ≠ .publishing token message) ∧ ∀ publish, stage ≠ .received publish

theorem Stage.plain_steady : Stage.steady.Plain :=
  ⟨fun _ _ => Stage.noConfusion, fun _ => Stage.noConfusion⟩

theorem Stage.plain_finishing (token : Nat) : (Stage.finishing token).Plain :=
  ⟨fun _ _ => Stage.noConfusion, fun _ => Stage.noConfusion⟩

theorem Stage.plain_releasing (msgId : Nat) : (Stage.releasing msgId).Plain :=
  ⟨fun _ _ => Stage.noConfusion, fun _ => Stage.noConfusion⟩

namespace Custody

/-- A publication has a command record or the record of a PUBLISH that was sent. -/
def Records (u : Custody) (token : Nat) (message : Session.Message) : Prop :=
  (∃ n, u.commandRecord n = some (token, some message)) ∨
    u.sentRecord token = some (Session.publishPacket u.mqttVersion message false token)

/-- The records hold every publication that is not finished, except the one that is being
handed over. -/
structure Kept (u : Custody) (stage : Stage) : Prop where
  accepted : ∀ token message, unfinished token u.history = some message → message.qos ≠ 0 →
    stage ≠ .publishing token message → u.Records token message
  undelivered3 : u.mqttVersion < mqttVersion5 → ∀ id publish,
    undelivered u.mqttVersion id u.history = some publish →
      u.receivedRecord id = some publish.content
  undelivered5 : mqttVersion5 ≤ u.mqttVersion → ∀ id publish,
    undelivered u.mqttVersion id u.history = some publish → stage = .received publish
  opened : mqttVersion5 ≤ u.mqttVersion → ∀ id,
    exchangeOpen id u.history = (u.receivedRecord id).isSome
  packets : ∀ id publish, (u.sentRecord id = some publish ∨ u.receivedRecord id = some publish) →
    ∃ message msgId, publish = Session.publishPacket u.mqttVersion message false msgId

/-- The tokens in use. Publications of QoS 0 have none. -/
def tokens (commands : List (Nat × Nat × Option Session.Message))
    (inHand : List (Nat × Option Session.Message)) (outbound : List Publish) : List Nat :=
  (commands.map (·.2.1) ++ inHand.map (·.1)).filter (· ≠ 0) ++ outbound.map Publish.msgId

/-- The queue of commands holds what the command records hold. -/
structure QueueHeld (commandRecord : Nat → Option (Nat × Option Session.Message))
    (commands : List (Nat × Nat × Option Session.Message))
    (inHand : List (Nat × Option Session.Message)) (outbound : List Publish) : Prop where
  record : ∀ n entry, commandRecord n = some entry ↔ (n, entry) ∈ commands
  distinct : (commands.map (·.1)).Nodup
  tokens : (tokens commands inHand outbound).Nodup
  positive : ∀ token message, ((∃ n, (n, token, some message) ∈ commands) ∨
    (token, some message) ∈ inHand) → message.qos ≠ 0 → token ≠ 0

/-- The list of outbound messages holds what the records of sent PUBLISH packets hold. -/
structure SentHeld (sentRecord : Nat → Option Publish) (outbound : List Publish)
    (stage : Stage) : Prop where
  record : ∀ id publish, sentRecord id = some publish → publish ∈ outbound ∧ publish.msgId = id
  recorded : ∀ publish ∈ outbound, stage ≠ .finishing publish.msgId →
    sentRecord publish.msgId = some publish

/-- The list of inbound messages holds what the records of received PUBLISH packets hold. -/
structure ReceivedHeld (mqttVersion : Nat) (receivedRecord : Nat → Option Publish)
    (inbound : List Publish) (stage : Stage) : Prop where
  distinct : (inbound.map Publish.msgId).Nodup
  record : ∀ id publish, receivedRecord id = some publish →
    (∃ new, stage = .received new ∧ new.msgId = id) ∨
      ∃ m ∈ inbound, m.msgId = id ∧ (mqttVersion < mqttVersion5 → m = publish)
  recorded : ∀ m ∈ inbound, stage ≠ .releasing m.msgId → (receivedRecord m.msgId).isSome

/-- The lists in memory hold what the records hold. -/
structure Consistent (u : Custody) (stage : Stage) : Prop where
  queue : QueueHeld u.commandRecord u.commands u.inHand u.outbound
  sent : SentHeld u.sentRecord u.outbound stage
  received : ReceivedHeld u.mqttVersion u.receivedRecord u.inbound stage

/-! ## Changes of custody -/

/-- A command gets a token and is about to be added. -/
def assign (u : Custody) (token : Nat) (message : Option Session.Message) : Custody :=
  { u with inHand := (token, message) :: u.inHand }

/-- A command is put in the store and in the queue. -/
def store (u : Custody) (n token : Nat) (message : Option Session.Message) : Custody :=
  { u with
    commandRecord := Function.update u.commandRecord n (some (token, message))
    commands := u.commands ++ [(n, token, message)]
    inHand := u.inHand.tail
    history := (message.map (accepted token)).toList ++ u.history }

/-- The first command is taken off the queue, and its record is removed. -/
def take (u : Custody) (n : Nat) (inHand : List (Nat × Option Session.Message)) : Custody :=
  { u with
    commandRecord := Function.update u.commandRecord n none
    commands := u.commands.tail
    inHand := u.inHand ++ inHand }

/-- A publication is put in flight, and the record of its PUBLISH is put in the store. -/
def start (u : Custody) (publish : Publish) : Custody :=
  { u with
    sentRecord := Function.update u.sentRecord publish.msgId (some publish)
    outbound := u.outbound ++ [publish]
    inHand := u.inHand.dropLast }

/-- The record of a PUBLISH that was sent is removed. -/
def eraseSent (u : Custody) (token : Nat) : Custody :=
  { u with sentRecord := Function.update u.sentRecord token none }

/-- A received PUBLISH is put in the store. -/
def record (u : Custody) (publish : Publish) : Custody :=
  { u with
    receivedRecord := Function.update u.receivedRecord publish.msgId (some publish.content)
    history := .recorded publish :: u.history }

/-- The record of a received PUBLISH is removed. -/
def eraseReceived (u : Custody) (msgId : Nat) : Custody :=
  { u with
    receivedRecord := Function.update u.receivedRecord msgId none
    history := .released msgId :: u.history }

section Kept

variable {u : Custody} {stage : Stage}

/-- What is found after an update is new or was there before. -/
theorem eq_or_of_update {α : Type} {records : Nat → Option α} {n id : Nat} {new : Option α}
    {found : α} (updated : Function.update records n new id = some found) :
    new = some found ∨ records id = some found := by
  by_cases same : id = n
  · subst same
    rw [Function.update_self] at updated
    exact .inl updated
  · rw [Function.update_of_ne same] at updated
    exact .inr updated

theorem Records.store {n token other : Nat} {message : Session.Message}
    {added : Option Session.Message} (free : u.commandRecord n = none)
    (records : u.Records token message) : (u.store n other added).Records token message := by
  rcases records with ⟨at', located⟩ | sent
  · left
    refine ⟨at', ?_⟩
    have different : at' ≠ n := by
      rintro rfl
      rw [free] at located
      cases located
    exact (Function.update_of_ne different _ _).trans located
  · exact .inr sent

theorem undelivered_accepted (mqttVersion id token : Nat) (message : Option Session.Message)
    (history : List AsyncEvent) :
    undelivered mqttVersion id ((message.map (AsyncEvent.accepted token)).toList ++ history) =
      undelivered mqttVersion id history := by
  cases message <;> rfl

theorem exchangeOpen_accepted (id token : Nat) (message : Option Session.Message)
    (history : List AsyncEvent) :
    exchangeOpen id ((message.map (AsyncEvent.accepted token)).toList ++ history) =
      exchangeOpen id history := by
  cases message <;> rfl

theorem Kept.store (kept : u.Kept stage) {n token : Nat} {message : Option Session.Message}
    (free : u.commandRecord n = none) : (u.store n token message).Kept stage where
  accepted := by
    intro other expected pending qos notInHand
    cases message with
    | none => exact (kept.accepted other expected pending qos notInHand).store free
    | some message =>
        change unfinished other (.accepted token message :: u.history) = _ at pending
        unfold unfinished at pending
        split at pending
        next same =>
          cases pending
          left
          exact ⟨n, by rw [← same]; exact Function.update_self _ _ _⟩
        next => exact (kept.accepted other expected pending qos notInHand).store free
  undelivered3 := by
    intro version id publish pending
    apply kept.undelivered3 version
    rwa [← undelivered_accepted u.mqttVersion id token message]
  undelivered5 := by
    intro version id publish pending
    apply kept.undelivered5 version id
    rwa [← undelivered_accepted u.mqttVersion id token message]
  opened := by
    intro version id
    exact (exchangeOpen_accepted id token message u.history).trans (kept.opened version id)
  packets := kept.packets

theorem Kept.assign (kept : u.Kept stage) (token : Nat) (message : Option Session.Message) :
    (u.assign token message).Kept stage :=
  ⟨kept.accepted, kept.undelivered3, kept.undelivered5, kept.opened, kept.packets⟩

/-- A publication is taken off the queue. -/
theorem Kept.takePublish (kept : u.Kept .steady) {n token : Nat} {message : Session.Message}
    (stored : u.commandRecord n = some (token, some message))
    (inHand : List (Nat × Option Session.Message)) :
    (u.take n inHand).Kept (.publishing token message) where
  accepted := by
    intro other expected pending qos notInHand
    rcases kept.accepted other expected pending qos (by simp) with ⟨at', located⟩ | sent
    · left
      refine ⟨at', ?_⟩
      have different : at' ≠ n := by
        rintro rfl
        rw [stored] at located
        simp only [Option.some.injEq, Prod.mk.injEq] at located
        rcases located with ⟨rfl, rfl⟩
        exact notInHand rfl
      exact (Function.update_of_ne different _ _).trans located
    · exact .inr sent
  undelivered3 := kept.undelivered3
  undelivered5 := fun version id publish pending =>
    absurd (kept.undelivered5 version id publish pending) (by simp)
  opened := kept.opened
  packets := kept.packets

/-- A command without a publication is taken off the queue. -/
theorem Kept.takeOther (kept : u.Kept .steady) {n : Nat}
    (stored : ∀ token message, u.commandRecord n ≠ some (token, some message))
    (inHand : List (Nat × Option Session.Message)) : (u.take n inHand).Kept .steady where
  accepted := by
    intro other expected pending qos notInHand
    rcases kept.accepted other expected pending qos notInHand with ⟨at', located⟩ | sent
    · left
      refine ⟨at', ?_⟩
      have different : at' ≠ n := by
        rintro rfl
        exact stored _ _ located
      exact (Function.update_of_ne different _ _).trans located
    · exact .inr sent
  undelivered3 := kept.undelivered3
  undelivered5 := kept.undelivered5
  opened := kept.opened
  packets := kept.packets

/-- The publication that is handed over is put in flight. -/
theorem Kept.start {token : Nat} {message : Session.Message}
    (kept : u.Kept (.publishing token message)) {publish : Publish}
    (same : publish = Session.publishPacket u.mqttVersion message false token)
    (apart : u.sentRecord publish.msgId = none) : (u.start publish).Kept .steady where
  accepted := by
    intro other expected pending qos _
    by_cases handed : Stage.publishing token message = .publishing other expected
    · cases handed
      subst same
      exact .inr (Function.update_self _ _ _)
    · rcases kept.accepted other expected pending qos handed with located | sent
      · exact .inl located
      · right
        have different : other ≠ publish.msgId := by
          rintro rfl
          rw [apart] at sent
          cases sent
        exact (Function.update_of_ne different _ _).trans sent
  undelivered3 := kept.undelivered3
  undelivered5 := fun version id publish pending =>
    absurd (kept.undelivered5 version id publish pending) (by simp)
  opened := kept.opened
  packets := by
    intro id other recorded
    rcases recorded with sent | received
    · rcases eq_or_of_update sent with new | old
      · cases new
        exact ⟨message, token, same⟩
      · exact kept.packets id other (.inl old)
    · exact kept.packets id other (.inr received)

/-- A publication of QoS 0 is handed over without a record. -/
theorem Kept.handQos0 {token : Nat} {message : Session.Message}
    (kept : u.Kept (.publishing token message)) (qos : message.qos = 0) : u.Kept .steady where
  accepted := by
    intro other expected pending positive _
    apply kept.accepted other expected pending positive
    intro same
    cases same
    exact positive qos
  undelivered3 := kept.undelivered3
  undelivered5 := fun version id publish pending =>
    absurd (kept.undelivered5 version id publish pending) Stage.noConfusion
  opened := kept.opened
  packets := kept.packets

/-- What is kept depends on the stage only while a publication is handed over or has just
been received. -/
theorem Kept.of_plain (kept : u.Kept stage) (plain : stage.Plain) (stage' : Stage) :
    u.Kept stage' where
  accepted := fun other expected pending qos _ =>
    kept.accepted other expected pending qos (plain.1 other expected)
  undelivered3 := kept.undelivered3
  undelivered5 := fun version id publish pending =>
    absurd (kept.undelivered5 version id publish pending) (plain.2 publish)
  opened := kept.opened
  packets := kept.packets

/-- The packet that ends the exchange of a publication is handled. -/
theorem Kept.finish (kept : u.Kept .steady) (token : Nat) :
    Kept { u with history := .finished token :: u.history } (.finishing token) where
  accepted := by
    intro other expected pending qos _
    unfold unfinished at pending
    split at pending
    · cases pending
    · exact kept.accepted other expected pending qos (by simp)
  undelivered3 := kept.undelivered3
  undelivered5 := fun version id publish pending =>
    absurd (kept.undelivered5 version id publish pending) (by simp)
  opened := kept.opened
  packets := kept.packets

/-- The record of a PUBLISH goes when its exchange is finished. -/
theorem Kept.eraseSent (kept : u.Kept stage) {token : Nat}
    (finished : ∀ message, unfinished token u.history = some message → message.qos = 0) :
    (u.eraseSent token).Kept stage where
  accepted := by
    intro other expected pending qos notInHand
    rcases kept.accepted other expected pending qos notInHand with located | sent
    · exact .inl located
    · right
      have different : other ≠ token := by
        rintro rfl
        exact qos (finished expected pending)
      exact (Function.update_of_ne different _ _).trans sent
  undelivered3 := kept.undelivered3
  undelivered5 := kept.undelivered5
  opened := kept.opened
  packets := by
    intro id other recorded
    rcases recorded with sent | received
    · rcases eq_or_of_update sent with new | old
      · cases new
      · exact kept.packets id other (.inl old)
    · exact kept.packets id other (.inr received)

theorem undelivered_msgId {mqttVersion id : Nat} {history : List AsyncEvent} {publish : Publish}
    (pending : undelivered mqttVersion id history = some publish) : publish.msgId = id := by
  induction history with
  | nil => cases pending
  | cons event history ih =>
      cases event <;> unfold undelivered at pending
      case recorded => split at pending <;> simp_all
      case passed => split at pending <;> simp_all
      case queued => split at pending <;> simp_all
      all_goals exact ih pending

theorem Kept.record (kept : u.Kept .steady) {publish : Publish}
    (packet : ∃ message msgId,
      publish.content = Session.publishPacket u.mqttVersion message false msgId) :
    (u.record publish).Kept (.received publish) where
  accepted := fun other expected pending qos _ =>
    kept.accepted other expected pending qos (by simp)
  undelivered3 := by
    intro version id expected pending
    change u.mqttVersion < mqttVersion5 at version
    have recorded : ¬mqttVersion5 ≤ u.mqttVersion := Nat.not_le.mpr version
    change undelivered u.mqttVersion id (.recorded publish :: u.history) = _ at pending
    unfold undelivered at pending
    by_cases same : publish.msgId = id
    · rw [if_pos ⟨same, fun new => absurd new recorded⟩] at pending
      cases pending
      rw [← same]
      exact Function.update_self _ _ _
    · rw [if_neg fun both => same both.1] at pending
      exact (Function.update_of_ne (Ne.symm same) _ _).trans
        (kept.undelivered3 version id expected pending)
  undelivered5 := by
    intro version id expected pending
    change undelivered u.mqttVersion id (.recorded publish :: u.history) = _ at pending
    unfold undelivered at pending
    split at pending
    · cases pending
      rfl
    · exact absurd (kept.undelivered5 version id expected pending) (by simp)
  opened := by
    intro version id
    change (publish.msgId == id || exchangeOpen id u.history) =
      (Function.update u.receivedRecord publish.msgId (some publish.content) id).isSome
    by_cases same : publish.msgId = id
    · subst same
      simp
    · rw [Function.update_of_ne (Ne.symm same), kept.opened version id]
      simp [same]
  packets := by
    intro id other recorded
    rcases recorded with sent | received
    · exact kept.packets id other (.inl sent)
    · rcases eq_or_of_update received with new | old
      · cases new
        exact packet
      · exact kept.packets id other (.inr old)

/-- A PUBLISH that is recorded while its exchange is open is no publication of its own. -/
theorem undelivered_record (kept : u.Kept .steady) (version : mqttVersion5 ≤ u.mqttVersion)
    {publish : Publish} (known : (u.receivedRecord publish.msgId).isSome) :
    undelivered u.mqttVersion publish.msgId (u.record publish).history = none := by
  have opened := kept.opened version publish.msgId
  rw [known] at opened
  change undelivered u.mqttVersion publish.msgId (.recorded publish :: u.history) = none
  unfold undelivered
  rw [if_neg fun both => by simp [both.2 version] at opened]
  rw [Option.eq_none_iff_forall_ne_some]
  intro expected pending
  exact absurd (kept.undelivered5 version _ expected pending) (by simp)

/-- An event that tells that a publication went to the application or to its queue. -/
def Delivers (publish : Publish) (event : AsyncEvent) : Prop :=
  event = .passed publish ∨ event = .queued publish

theorem Delivers.undelivered {publish : Publish} {event : AsyncEvent}
    (delivers : Delivers publish event) (mqttVersion id : Nat) (history : List AsyncEvent) :
    undelivered mqttVersion id (event :: history) =
      if publish.msgId = id ∧ publish.qos = 2 then none
      else undelivered mqttVersion id history := by
  rcases delivers with rfl | rfl <;> rfl

theorem Delivers.exchangeOpen {publish : Publish} {event : AsyncEvent}
    (delivers : Delivers publish event) (id : Nat) (history : List AsyncEvent) :
    exchangeOpen id (event :: history) = exchangeOpen id history := by
  rcases delivers with rfl | rfl <;> rfl

theorem Delivers.unfinished {publish : Publish} {event : AsyncEvent}
    (delivers : Delivers publish event) (token : Nat) (history : List AsyncEvent) :
    unfinished token (event :: history) = unfinished token history := by
  rcases delivers with rfl | rfl <;> rfl

theorem Kept.deliver (kept : u.Kept stage) {publish : Publish} {event : AsyncEvent}
    (delivers : Delivers publish event) : Kept { u with history := event :: u.history } stage where
  accepted := by
    intro token expected pending
    rw [delivers.unfinished] at pending
    exact kept.accepted token expected pending
  undelivered3 := by
    intro version id expected pending
    rw [delivers.undelivered] at pending
    split at pending
    · cases pending
    · exact kept.undelivered3 version id expected pending
  undelivered5 := by
    intro version id expected pending
    rw [delivers.undelivered] at pending
    split at pending
    · cases pending
    · exact kept.undelivered5 version id expected pending
  opened := by
    intro version id
    rw [delivers.exchangeOpen]
    exact kept.opened version id
  packets := kept.packets

/-- The handling of a received PUBLISH is over when nothing of it is left to deliver. -/
theorem Kept.handled {publish : Publish} (kept : u.Kept (.received publish))
    (delivered : mqttVersion5 ≤ u.mqttVersion →
      undelivered u.mqttVersion publish.msgId u.history = none) : u.Kept .steady where
  accepted := fun other expected pending qos _ =>
    kept.accepted other expected pending qos (by simp)
  undelivered3 := kept.undelivered3
  undelivered5 := by
    intro version id expected pending
    have same : Stage.received publish = .received expected :=
      kept.undelivered5 version id expected pending
    cases same
    have isId := undelivered_msgId pending
    subst isId
    rw [delivered version] at pending
    cases pending
  opened := kept.opened
  packets := kept.packets

theorem Kept.eraseReceived (kept : u.Kept stage) {msgId : Nat}
    (delivered : u.mqttVersion < mqttVersion5 →
      undelivered u.mqttVersion msgId u.history = none) : (u.eraseReceived msgId).Kept stage where
  accepted := kept.accepted
  undelivered3 := by
    intro version id expected pending
    change undelivered u.mqttVersion id u.history = _ at pending
    have different : id ≠ msgId := by
      rintro rfl
      rw [delivered version] at pending
      cases pending
    exact (Function.update_of_ne different _ _).trans
      (kept.undelivered3 version id expected pending)
  undelivered5 := kept.undelivered5
  opened := by
    intro version id
    change (msgId != id && exchangeOpen id u.history) =
      (Function.update u.receivedRecord msgId none id).isSome
    by_cases same : msgId = id
    · subst same
      simp
    · rw [Function.update_of_ne (Ne.symm same), kept.opened version id]
      simp [same]
  packets := by
    intro id other recorded
    rcases recorded with sent | received
    · exact kept.packets id other (.inl sent)
    · rcases eq_or_of_update received with new | old
      · cases new
      · exact kept.packets id other (.inr old)

end Kept

/-- When ids are distinct, none is left of the one that is removed. -/
theorem not_mem_eraseP_msgId {publishes : List Publish} {publish : Publish}
    (distinct : (publishes.map Publish.msgId).Nodup)
    (mem : publish ∈ publishes.eraseP (·.msgId == publish.msgId)) : False := by
  induction publishes with
  | nil => cases mem
  | cons first rest ih =>
      simp only [List.map_cons, List.nodup_cons] at distinct
      by_cases same : first.msgId = publish.msgId
      · rw [List.eraseP_cons_of_pos (by simpa using same)] at mem
        apply distinct.1
        rw [same]
        exact List.mem_map_of_mem mem
      · rw [List.eraseP_cons_of_neg (by simpa using same)] at mem
        rcases List.mem_cons.mp mem with rfl | mem
        · exact same rfl
        · exact ih distinct.2 mem

/-- What the records of a store say apart from the lists in memory: every token is recorded at
most once. -/
structure Apart (u : Custody) : Prop where
  commands : ∀ n n' token message message', u.commandRecord n = some (token, message) →
    u.commandRecord n' = some (token, message') → token ≠ 0 → n = n'
  sent : ∀ n token message, u.commandRecord n = some (token, message) → token ≠ 0 →
    u.sentRecord token = none
  positive : ∀ n token message, u.commandRecord n = some (token, some message) →
    message.qos ≠ 0 → token ≠ 0

section Queue

variable {commandRecord : Nat → Option (Nat × Option Session.Message)}
  {commands rest : List (Nat × Nat × Option Session.Message)}
  {inHand : List (Nat × Option Session.Message)} {outbound : List Publish}
  {n token : Nat} {message : Option Session.Message}

/-- Distinct tokens name one command. -/
theorem eq_of_mem_of_tokens {first second : Nat × Nat × Option Session.Message}
    (distinct : ((commands.map (·.2.1)).filter (· ≠ 0)).Nodup) (firstMem : first ∈ commands)
    (secondMem : second ∈ commands) (same : first.2.1 = second.2.1) (positive : first.2.1 ≠ 0) :
    first = second := by
  induction commands with
  | nil => cases firstMem
  | cons entry rest ih =>
      rw [List.map_cons] at distinct
      have restDistinct : ((rest.map (·.2.1)).filter (· ≠ 0)).Nodup :=
        distinct.sublist ((List.sublist_cons_self _ _).filter _)
      have notMem : ∀ other ∈ rest, entry.2.1 ≠ 0 → other.2.1 ≠ entry.2.1 := by
        intro other mem nonzero isSame
        rw [List.filter_cons_of_pos (by simpa using nonzero), List.nodup_cons] at distinct
        apply distinct.1
        rw [← isSame, List.mem_filter]
        exact ⟨List.mem_map.mpr ⟨other, mem, rfl⟩, by simpa [isSame] using nonzero⟩
      rcases List.mem_cons.mp firstMem with rfl | firstRest
      · rcases List.mem_cons.mp secondMem with rfl | secondRest
        · rfl
        · exact absurd same.symm (notMem second secondRest positive)
      · rcases List.mem_cons.mp secondMem with rfl | secondRest
        · exact absurd same (notMem first firstRest (same ▸ positive))
        · exact ih restDistinct firstRest secondRest

/-- The tokens of commands are distinct when a token names one command. -/
theorem nodup_tokens (entries : commands.Nodup)
    (unique : ∀ first ∈ commands, ∀ second ∈ commands, first.2.1 = second.2.1 →
      first.2.1 ≠ 0 → first = second) : ((commands.map (·.2.1)).filter (· ≠ 0)).Nodup := by
  rw [List.filter_map]
  apply List.Nodup.map_on _ (entries.filter _)
  intro first firstMem second secondMem same
  rcases List.mem_filter.mp firstMem with ⟨firstMem, positive⟩
  exact unique first firstMem second (List.mem_filter.mp secondMem).1 same (by simpa using positive)

namespace QueueHeld

theorem assign (held : QueueHeld commandRecord commands inHand outbound)
    (fresh : token = 0 ∨ token ∉ Custody.tokens commands inHand outbound)
    (positive : ∀ expected, message = some expected → expected.qos ≠ 0 → token ≠ 0) :
    QueueHeld commandRecord commands ((token, message) :: inHand) outbound where
  record := held.record
  distinct := held.distinct
  tokens := by
    have before := held.tokens
    unfold Custody.tokens at before fresh ⊢
    rw [List.map_cons]
    by_cases zero : token = 0
    · subst zero
      simpa using before
    · have middle : (commands.map (·.2.1) ++ token :: inHand.map (·.1)).Perm
          (token :: (commands.map (·.2.1) ++ inHand.map (·.1))) := List.perm_middle
      have moved := middle.filter (· ≠ 0)
      rw [List.filter_cons_of_pos (by simpa using zero)] at moved
      rw [(moved.append_right _).nodup_iff, List.cons_append]
      exact List.nodup_cons.mpr ⟨fresh.resolve_left zero, before⟩
  positive := by
    intro other expected located qos
    rcases located with queued | held'
    · exact held.positive other expected (.inl queued) qos
    · rcases List.mem_cons.mp held' with new | old
      · cases new
        exact positive expected rfl qos
      · exact held.positive other expected (.inr old) qos

theorem store (held : QueueHeld commandRecord commands ((token, message) :: inHand) outbound)
    (free : commandRecord n = none) :
    QueueHeld (Function.update commandRecord n (some (token, message)))
      (commands ++ [(n, token, message)]) inHand outbound where
  record := by
    intro at' entry
    have absent : (n, entry) ∉ commands := by
      intro mem
      rw [← held.record, free] at mem
      cases mem
    by_cases same : at' = n
    · subst same
      simp [absent, eq_comm]
    · simp [held.record, same]
  distinct := by
    rw [List.map_append, List.nodup_append]
    refine ⟨held.distinct, by simp, ?_⟩
    intro at' mem other new same
    rcases List.mem_map.mp mem with ⟨⟨stored, entry⟩, queued, rfl⟩
    simp only [List.map_cons, List.map_nil, List.mem_singleton] at new
    change stored = other at same
    rw [← held.record, same, new, free] at queued
    cases queued
  tokens := by
    have before := held.tokens
    unfold Custody.tokens at before ⊢
    simpa using before
  positive := by
    intro other expected located qos
    apply held.positive other expected _ qos
    rcases located with ⟨at', queued⟩ | kept
    · rcases List.mem_append.mp queued with old | new
      · exact .inl ⟨at', old⟩
      · right
        simp only [List.mem_singleton, Prod.mk.injEq] at new
        rcases new with ⟨_, rfl, rfl⟩
        exact List.mem_cons_self
    · exact .inr (List.mem_cons_of_mem _ kept)

/-- Nothing is left of a command in hand. -/
theorem of_sublist {inHand' : List (Nat × Option Session.Message)}
    (held : QueueHeld commandRecord commands inHand outbound) (fewer : inHand'.Sublist inHand) :
    QueueHeld commandRecord commands inHand' outbound where
  record := held.record
  distinct := held.distinct
  tokens := held.tokens.sublist
    (((fewer.map _).append_left _).filter _ |>.append_right _)
  positive := fun other expected located qos =>
    held.positive other expected (located.imp_right (fewer.subset ·)) qos

theorem take (held : QueueHeld commandRecord ((n, token, message) :: rest) inHand outbound) :
    QueueHeld (Function.update commandRecord n none) rest (inHand ++ [(token, message)])
      outbound where
  record := by
    intro at' entry
    have distinct := held.distinct
    simp only [List.map_cons, List.nodup_cons] at distinct
    by_cases same : at' = n
    · subst same
      have absent : (at', entry) ∉ rest := fun mem => distinct.1 (List.mem_map.mpr ⟨_, mem, rfl⟩)
      simp [absent]
    · simp [held.record, same]
  distinct := (List.nodup_cons.mp held.distinct).2
  tokens := by
    have before := held.tokens
    unfold Custody.tokens at before ⊢
    simp only [List.map_append, List.map_cons, List.map_nil] at before ⊢
    have perm : (token :: (rest.map (·.2.1) ++ inHand.map (·.1))).Perm
        (rest.map (·.2.1) ++ (inHand.map (·.1) ++ [token])) := by
      rw [← List.append_assoc]
      exact (List.perm_append_singleton _ _).symm
    exact ((perm.filter _).append_right _).nodup_iff.mp before
  positive := by
    intro other expected located qos
    apply held.positive other expected _ qos
    rcases located with ⟨at', queued⟩ | kept
    · exact .inl ⟨at', List.mem_cons_of_mem _ queued⟩
    · rcases List.mem_append.mp kept with old | new
      · exact .inr old
      · rw [List.mem_singleton.mp new]
        exact .inl ⟨n, List.mem_cons_self⟩

/-- The token of the publication that is handed over is not in flight. -/
theorem not_mem_outbound {expected : Session.Message}
    (held : QueueHeld commandRecord commands (inHand ++ [(token, some expected)]) outbound)
    (qos : expected.qos ≠ 0) : token ∉ outbound.map Publish.msgId := by
  have positive := held.positive token expected (.inr (by simp)) qos
  intro mem
  refine (List.nodup_append.mp held.tokens).2.2 token ?_ token mem rfl
  simp [positive]

theorem start {publish : Publish} {expected : Session.Message}
    (held : QueueHeld commandRecord commands (inHand ++ [(publish.msgId, some expected)]) outbound)
    (qos : expected.qos ≠ 0) :
    QueueHeld commandRecord commands inHand (outbound ++ [publish]) where
  record := held.record
  distinct := held.distinct
  tokens := by
    have positive := held.positive publish.msgId expected (.inr (by simp)) qos
    have before := held.tokens
    unfold Custody.tokens at before ⊢
    simp only [List.map_append, List.map_cons, List.map_nil, ← List.append_assoc] at before ⊢
    rw [List.filter_append, List.filter_cons_of_pos (by simpa using positive),
      List.append_assoc] at before
    rw [List.append_assoc]
    exact (List.perm_append_comm.append_left _).nodup_iff.mp before
  positive := fun other expected located qos' =>
    held.positive other expected (located.imp_right (List.mem_append_left _ ·)) qos'

/-- The queue that is restored from the records. -/
theorem restored {u : Custody} (apart : u.Apart)
    (record : ∀ n entry, u.commandRecord n = some entry ↔ (n, entry) ∈ u.commands)
    (distinct : (u.commands.map (·.1)).Nodup) (inHand : u.inHand = [])
    (recorded : ∀ publish ∈ u.outbound, u.sentRecord publish.msgId = some publish)
    (ids : (u.outbound.map Publish.msgId).Nodup) :
    QueueHeld u.commandRecord u.commands u.inHand u.outbound where
  record := record
  distinct := distinct
  tokens := by
    unfold Custody.tokens
    rw [inHand, List.map_nil, List.append_nil, List.nodup_append]
    refine ⟨?_, ids, ?_⟩
    · have entries : u.commands.Nodup := List.Nodup.of_map _ distinct
      apply nodup_tokens entries
      intro first firstMem second secondMem same positive
      rcases first with ⟨n, token, message⟩
      rcases second with ⟨n', token', message'⟩
      cases same
      have isSame := apart.commands n n' token message message' ((record _ _).mpr firstMem)
        ((record _ _).mpr secondMem) positive
      subst isSame
      have stored := (record _ _).mpr firstMem
      rw [(record _ _).mpr secondMem] at stored
      cases stored
      rfl
    · rintro token mem _ inFlight rfl
      rcases List.mem_filter.mp mem with ⟨mem, positive⟩
      rcases List.mem_map.mp mem with ⟨⟨n, token, message⟩, queued, rfl⟩
      rcases List.mem_map.mp inFlight with ⟨publish, outMem, same⟩
      have isToken : publish.msgId = token := same
      have absent := apart.sent n token message ((record _ _).mpr queued) (by simpa using positive)
      rw [← isToken, recorded publish outMem] at absent
      cases absent
  positive := by
    intro token message located qos
    rcases located with ⟨n, queued⟩ | held
    · exact apart.positive n token message ((record _ _).mpr queued) qos
    · rw [inHand] at held
      cases held

/-- A message leaves the list of outbound messages. -/
theorem removeOutbound (held : QueueHeld commandRecord commands inHand outbound) (token : Nat) :
    QueueHeld commandRecord commands inHand (outbound.eraseP (·.msgId == token)) where
  record := held.record
  distinct := held.distinct
  tokens := held.tokens.sublist
    (((List.eraseP_sublist (p := fun m : Publish => m.msgId == token)).map _).append_left _)
  positive := held.positive

end QueueHeld

/-- The tokens of the queue are recorded once. -/
theorem Consistent.apart {u : Custody} {stage : Stage}
    (consistent : u.Consistent stage) : u.Apart where
  commands := by
    intro n n' token message message' stored stored' positive
    have held := consistent.queue
    rw [held.record] at stored stored'
    have distinct : ((u.commands.map (·.2.1)).filter (· ≠ 0)).Nodup := by
      have tokens := (List.nodup_append.mp held.tokens).1
      rw [List.filter_append] at tokens
      exact (List.nodup_append.mp tokens).1
    have same := eq_of_mem_of_tokens distinct stored stored' rfl positive
    exact congrArg Prod.fst same
  sent := by
    intro n token message stored positive
    have held := consistent.queue
    rw [held.record] at stored
    rw [Option.eq_none_iff_forall_ne_some]
    intro publish recorded
    rcases consistent.sent.record token publish recorded with ⟨mem, rfl⟩
    refine (List.nodup_append.mp held.tokens).2.2 publish.msgId ?_ _ (List.mem_map_of_mem mem) rfl
    rw [List.mem_filter]
    refine ⟨List.mem_append_left _ (List.mem_map.mpr ⟨_, stored, rfl⟩), by simpa using positive⟩
  positive := fun n token message stored =>
    consistent.queue.positive token message (.inl ⟨n, (consistent.queue.record n _).mp stored⟩)

end Queue

section Sent

variable {sentRecord : Nat → Option Publish} {outbound : List Publish} {stage : Stage}

namespace SentHeld

/-- Only the end of an exchange lets a record go before its message. -/
theorem of_stage (held : SentHeld sentRecord outbound stage)
    (notFinishing : ∀ token, stage ≠ .finishing token) (stage' : Stage) :
    SentHeld sentRecord outbound stage' where
  record := held.record
  recorded := fun publish mem _ => held.recorded publish mem (notFinishing _)

theorem start (held : SentHeld sentRecord outbound stage) {publish : Publish}
    (fresh : publish.msgId ∉ outbound.map Publish.msgId) :
    SentHeld (Function.update sentRecord publish.msgId (some publish)) (outbound ++ [publish])
      stage where
  record := by
    intro id expected recorded
    by_cases same : id = publish.msgId
    · subst same
      rw [Function.update_self] at recorded
      cases recorded
      exact ⟨List.mem_append_right _ (List.mem_singleton_self _), rfl⟩
    · rw [Function.update_of_ne same] at recorded
      rcases held.record id expected recorded with ⟨mem, isId⟩
      exact ⟨List.mem_append_left _ mem, isId⟩
  recorded := by
    intro expected mem notFinishing
    rcases List.mem_append.mp mem with old | new
    · have different : expected.msgId ≠ publish.msgId := by
        intro same
        apply fresh
        rw [← same]
        exact List.mem_map_of_mem old
      rw [Function.update_of_ne different]
      exact held.recorded expected old notFinishing
    · rw [List.mem_singleton.mp new]
      exact Function.update_self _ _ _

theorem erase {token : Nat} (held : SentHeld sentRecord outbound (.finishing token)) :
    SentHeld (Function.update sentRecord token none) outbound (.finishing token) where
  record := by
    intro id publish recorded
    by_cases same : id = token
    · subst same
      simp at recorded
    · rw [Function.update_of_ne same] at recorded
      exact held.record id publish recorded
  recorded := by
    intro publish mem notFinishing
    have different : publish.msgId ≠ token := by
      rintro rfl
      exact notFinishing rfl
    rw [Function.update_of_ne different]
    exact held.recorded publish mem notFinishing

/-- The message of a finished exchange leaves the list when its record is gone. -/
theorem remove {token : Nat} (held : SentHeld sentRecord outbound (.finishing token))
    (distinct : (outbound.map Publish.msgId).Nodup) (gone : sentRecord token = none) :
    SentHeld sentRecord (outbound.eraseP (·.msgId == token)) .steady where
  record := by
    intro id publish recorded
    rcases held.record id publish recorded with ⟨mem, rfl⟩
    refine ⟨?_, rfl⟩
    rw [List.mem_eraseP_of_neg]
    · exact mem
    · intro same
      have isToken : publish.msgId = token := by simpa using same
      rw [isToken, gone] at recorded
      cases recorded
  recorded := by
    intro publish mem _
    apply held.recorded publish (List.mem_of_mem_eraseP mem)
    intro same
    cases same
    exact not_mem_eraseP_msgId distinct mem

end SentHeld

end Sent

section Received

variable {mqttVersion : Nat} {receivedRecord : Nat → Option Publish} {inbound : List Publish}
  {stage : Stage}

namespace ReceivedHeld

/-- What holds when nothing is under way holds at every stage. -/
theorem of_plain (held : ReceivedHeld mqttVersion receivedRecord inbound stage)
    (notReceived : ∀ publish, stage ≠ .received publish)
    (notReleasing : ∀ msgId, stage ≠ .releasing msgId) (stage' : Stage) :
    ReceivedHeld mqttVersion receivedRecord inbound stage' where
  distinct := held.distinct
  record := by
    intro id publish recorded
    rcases held.record id publish recorded with ⟨new, isNew, _⟩ | kept
    · exact absurd isNew (notReceived new)
    · exact .inr kept
  recorded := fun m mem _ => held.recorded m mem (notReleasing _)

theorem put (held : ReceivedHeld mqttVersion receivedRecord inbound .steady)
    (publish : Publish) :
    ReceivedHeld mqttVersion
      (Function.update receivedRecord publish.msgId (some publish.content)) inbound
      (.received publish) where
  distinct := held.distinct
  record := by
    intro id other recorded
    by_cases same : id = publish.msgId
    · exact .inl ⟨publish, rfl, same.symm⟩
    · rw [Function.update_of_ne same] at recorded
      rcases held.record id other recorded with ⟨_, steady, _⟩ | kept
      · cases steady
      · exact .inr kept
  recorded := by
    intro m mem _
    by_cases same : m.msgId = publish.msgId
    · simp [same]
    · rw [Function.update_of_ne same]
      exact held.recorded m mem Stage.noConfusion

/-- A received PUBLISH is kept, in the place of one with its id. -/
theorem keep {publish m : Publish} {inbound' : List Publish}
    (held : ReceivedHeld mqttVersion receivedRecord inbound (.received publish))
    (id : m.msgId = publish.msgId) (recorded : (receivedRecord publish.msgId).isSome)
    (content : mqttVersion < mqttVersion5 → receivedRecord publish.msgId = some m)
    (distinct : (inbound'.map Publish.msgId).Nodup)
    (mem_iff : ∀ other, other ∈ inbound' ↔
      (other ∈ inbound ∧ other.msgId ≠ publish.msgId) ∨ other = m) :
    ReceivedHeld mqttVersion receivedRecord inbound' .steady where
  distinct := distinct
  record := by
    intro id' other stored
    right
    by_cases same : id' = publish.msgId
    · subst same
      refine ⟨m, (mem_iff m).mpr (.inr rfl), id, ?_⟩
      intro version
      rw [content version] at stored
      exact Option.some.inj stored
    · rcases held.record id' other stored with ⟨new, isNew, isId⟩ | ⟨old, mem, isId, content⟩
      · cases isNew
        exact absurd isId.symm same
      · exact ⟨old, (mem_iff old).mpr (.inl ⟨mem, fun eq => same (isId.symm.trans eq)⟩), isId,
          content⟩
  recorded := by
    intro other mem _
    rcases (mem_iff other).mp mem with ⟨old, _⟩ | rfl
    · exact held.recorded other old Stage.noConfusion
    · exact id ▸ recorded

theorem erase {msgId : Nat}
    (held : ReceivedHeld mqttVersion receivedRecord inbound (.releasing msgId)) :
    ReceivedHeld mqttVersion (Function.update receivedRecord msgId none) inbound
      (.releasing msgId) where
  distinct := held.distinct
  record := by
    intro id publish recorded
    by_cases same : id = msgId
    · subst same
      simp at recorded
    · rw [Function.update_of_ne same] at recorded
      exact held.record id publish recorded
  recorded := by
    intro m mem notReleasing
    have different : m.msgId ≠ msgId := by
      rintro rfl
      exact notReleasing rfl
    rw [Function.update_of_ne different]
    exact held.recorded m mem notReleasing

theorem remove {msgId : Nat}
    (held : ReceivedHeld mqttVersion receivedRecord inbound (.releasing msgId))
    (gone : receivedRecord msgId = none) :
    ReceivedHeld mqttVersion receivedRecord (inbound.eraseP (·.msgId == msgId)) .steady where
  distinct := held.distinct.sublist
    ((List.eraseP_sublist (p := fun m : Publish => m.msgId == msgId)).map _)
  record := by
    intro id publish recorded
    rcases held.record id publish recorded with ⟨_, different, _⟩ | ⟨m, mem, isId, content⟩
    · cases different
    · right
      refine ⟨m, ?_, isId, content⟩
      rw [List.mem_eraseP_of_neg]
      · exact mem
      · intro same
        have isMsgId : m.msgId = msgId := by simpa using same
        rw [← isId, isMsgId, gone] at recorded
        cases recorded
  recorded := by
    intro m mem _
    apply held.recorded m (List.mem_of_mem_eraseP mem)
    intro same
    cases same
    exact not_mem_eraseP_msgId held.distinct mem

end ReceivedHeld

end Received

section Stages

variable {u : Custody} {stage : Stage}

/-- What is consistent when nothing ends and nothing has just been received is consistent at
every stage. -/
theorem Consistent.of_stage (consistent : u.Consistent stage)
    (notFinishing : ∀ token, stage ≠ .finishing token)
    (notReceived : ∀ publish, stage ≠ .received publish)
    (notReleasing : ∀ msgId, stage ≠ .releasing msgId) (stage' : Stage) :
    u.Consistent stage' :=
  ⟨consistent.queue, consistent.sent.of_stage notFinishing stage',
    consistent.received.of_plain notReceived notReleasing stage'⟩

theorem Consistent.of_steady (consistent : u.Consistent .steady) (stage' : Stage) :
    u.Consistent stage' :=
  consistent.of_stage (fun _ => Stage.noConfusion) (fun _ => Stage.noConfusion)
    (fun _ => Stage.noConfusion) stage'

end Stages

end Custody

end Paho
