import Paho.Protocol.HeldIds
import Paho.Protocol.OutboundSafety
import Paho.Protocol.Settings
import Mathlib.Data.List.Sort

/-!
# A session of MQTT 3.1.1 that MQTT 5 goes on with

A client created for MQTT 5 restores the records of a session under MQTT 3.1.1, whose keys have no
version. `MQTTPersistence_restorePackets` looks for the PUBREL of a message under the key of MQTT 5,
the restored inbound messages are those of MQTT 5, whose publications are taken to be delivered,
and `MQTTAsync_unpersistCommand` removes the key of MQTT 5. So each kind of obligation is lost.
-/

namespace Paho

open Relation MQTTPersistence

/-! ## What a session under MQTT 3.1.1 writes -/

namespace Exchange

/-- Nothing of the session is of MQTT 5. -/
structure Unversioned (e : Exchange) : Prop where
  version : e.mqttVersion < mqttVersion5
  outbound : ∀ m ∈ e.outbound, m.mqttVersion < mqttVersion5
  keys : ∀ k, (e.record k).isSome → k.v5 = false

namespace Unversioned

variable {e e' : Exchange}

/-- Nothing new is in flight or in the store. -/
theorem of_fewer (unversioned : e.Unversioned) (version : e'.mqttVersion = e.mqttVersion)
    (outbound : ∀ m ∈ e'.outbound, m ∈ e.outbound)
    (keys : ∀ k, (e'.record k).isSome → (e.record k).isSome) : e'.Unversioned where
  version := version ▸ unversioned.version
  outbound := fun m mem => unversioned.outbound m (outbound m mem)
  keys := fun k stored => unversioned.keys k (keys k stored)

theorem log (unversioned : e.Unversioned) (event : Event) : (e.log event).Unversioned :=
  unversioned.of_fewer rfl (fun _ => id) fun _ => id

theorem put (unversioned : e.Unversioned) (stem : Stem) {mqttVersion : Nat}
    (old : mqttVersion < mqttVersion5) (msgId : Nat) (record : Record) :
    (e.put (key stem mqttVersion msgId) record).Unversioned where
  version := unversioned.version
  outbound := unversioned.outbound
  keys := by
    intro k stored
    rw [put_record] at stored
    split at stored
    next isKey =>
      rw [isKey.2]
      simpa [key] using old
    · exact unversioned.keys k stored

theorem erase (unversioned : e.Unversioned) (keys : List PersistenceKey) :
    (e.erase keys).Unversioned := by
  refine unversioned.of_fewer rfl (fun _ => id) ?_
  intro k stored
  rw [erase_record] at stored
  split at stored
  · cases stored
  · exact stored

theorem sendAck (unversioned : e.Unversioned) {mqttVersion : Nat}
    (old : mqttVersion < mqttVersion5) (type : PacketType) (msgId : Nat) (rc : CompletionCode) :
    (e.sendAck mqttVersion type msgId rc).Unversioned := by
  apply log
  unfold putAck
  split
  · exact unversioned.put _ old _ _
  · exact unversioned

theorem sendPublish (unversioned : e.Unversioned) {publish : Publish}
    (old : publish.mqttVersion < mqttVersion5) (rc : CompletionCode) :
    (e.sendPublish publish rc).Unversioned :=
  (unversioned.put _ old _ _).log _

theorem finishOutbound (unversioned : e.Unversioned) (msgId : Nat) :
    (e.finishOutbound msgId).Unversioned :=
  (unversioned.erase _).of_fewer rfl (fun _ => mem_of_mem_removeMessage) fun _ => id

theorem finishInbound (unversioned : e.Unversioned) (msgId : Nat) :
    (e.finishInbound msgId).Unversioned :=
  (unversioned.erase _).of_fewer rfl (fun _ => id) fun _ => id

theorem acceptPubrec (unversioned : e.Unversioned) (msgId : Nat) :
    (e.acceptPubrec msgId).Unversioned where
  version := unversioned.version
  outbound := by
    intro m mem
    rcases exists_of_mem_updateMessage mem with ⟨old, isOld, rfl | ⟨_, rfl⟩⟩
    · exact unversioned.outbound _ isOld
    · exact unversioned.outbound old isOld
  keys := unversioned.keys

theorem storeInbound (unversioned : e.Unversioned) (m : Messages) :
    (e.storeInbound m).Unversioned := by
  apply unversioned.of_fewer (storeInbound_mqttVersion ..)
  · intro other mem
    rwa [storeInbound_outbound] at mem
  · intro k stored
    rwa [storeInbound_record] at stored

theorem acknowledges (unversioned : e.Unversioned) {type : PacketType} {msgId : Nat}
    (acknowledges : Acknowledges e type msgId e') : e'.Unversioned := by
  cases acknowledges with
  | sent rc => exact unversioned.sendAck unversioned.version _ _ _
  | queued => exact unversioned.of_fewer rfl (fun _ => id) fun _ => id

theorem internal (unversioned : e.Unversioned) (internal : Internal e e') : e'.Unversioned := by
  cases internal with
  | retryPublish mem awaits rc => exact unversioned.sendPublish (unversioned.outbound _ mem) rc
  | retryPubrel mem awaits rc => exact unversioned.sendAck (unversioned.outbound _ mem) _ _ rc
  | sendQueued mem rc => exact unversioned.sendAck unversioned.version _ _ rc
  | resent type msgid => exact unversioned.log _
  | dropQueue => exact unversioned.of_fewer rfl (fun _ => id) fun _ => id
  | clean =>
      refine unversioned.of_fewer rfl ?_ ?_
      · simp
      · intro k stored
        rw [clean_record] at stored
        split at stored
        · cases stored
        · exact stored
  | connect => exact unversioned.log _

theorem internals (unversioned : e.Unversioned) (internals : ReflTransGen Internal e e') :
    e'.Unversioned := by
  induction internals with
  | refl => exact unversioned
  | tail _ internal ih => exact ih.internal internal

theorem handles (unversioned : e.Unversioned) {packet : Session.Packet}
    (handles : Handles e packet e') : e'.Unversioned := by
  cases handles with
  | pubackIgnored => exact unversioned.log _
  | puback => exact (unversioned.log _).finishOutbound _
  | pubrecUnexpected _ acknowledges => exact (unversioned.log _).acknowledges acknowledges
  | pubrecError => exact (unversioned.log _).finishOutbound _
  | pubrec _ _ acknowledges =>
      exact ((unversioned.log _).acceptPubrec _).acknowledges acknowledges
  | pubcompUnexpected => exact unversioned.log _
  | pubcomp => exact (unversioned.log _).finishOutbound _
  | publish0 => exact (unversioned.log _).log _
  | publish1 _ acknowledges => exact ((unversioned.log _).log _).acknowledges acknowledges
  | publishDelivered _ _ _ acknowledges =>
      have put := unversioned.put .publishReceived unversioned.version
      exact ((((put _ _).log _).storeInbound _).log _).acknowledges acknowledges
  | publishKept _ _ acknowledges =>
      have put := unversioned.put .publishReceived unversioned.version
      exact (((put _ _).log _).storeInbound _).acknowledges acknowledges
  | publishOther => exact unversioned.log _
  | pubrelUnexpected _ acknowledges => exact (unversioned.log _).acknowledges acknowledges
  | @pubrel msgId m _ _ _ acknowledges =>
      have released : (if mqttVersion5 ≤ m.mqttVersion then e.log (.received .pubrel msgId)
          else (e.log (.received .pubrel msgId)).log
            (.processed (MQTTProtocol.publicationOf m))).Unversioned := by
        split
        · exact unversioned.log _
        · exact (unversioned.log _).log _
      exact (released.finishInbound msgId).acknowledges acknowledges

theorem starts (unversioned : e.Unversioned) {message : Session.Message} {msgId : Nat}
    (starts : Starts e message msgId e') : e'.Unversioned := by
  cases starts with
  | unacknowledged => exact unversioned.log _
  | start positive unused qos =>
      have inFlight : (e.start (MQTTProtocol.createMessage
          (Session.publishPacket e.mqttVersion message false msgId) message.qos message.retained
          0)).Unversioned := by
        refine ⟨unversioned.version, ?_, unversioned.keys⟩
        intro m mem
        rw [start_outbound] at mem
        rcases List.mem_append.mp mem with old | new
        · exact unversioned.outbound m old
        · rw [List.mem_singleton.mp new]
          exact unversioned.version
      exact inFlight.sendPublish unversioned.version _

end Unversioned

end Exchange

namespace Session

variable {c : Clients}

theorem removeRecords_unversioned (unversioned : c.exchange.Unversioned)
    (keys : List PersistenceKey) : (c.removeRecords keys).exchange.Unversioned := by
  rw [Clients.exchange_removeRecords]
  exact unversioned.erase keys

theorem restoreKey_unversioned (unversioned : c.exchange.Unversioned) (k : PersistenceKey) :
    (restoringClients (restoreKey c k)).exchange.Unversioned := by
  unfold restoreKey
  split
  · exact unversioned
  · split
    · exact unversioned
    · split
      · exact unversioned
      · split
        · exact unversioned.of_fewer rfl (fun _ => id) fun _ => id
        next =>
          refine ⟨unversioned.version, ?_, unversioned.keys⟩
          intro m mem
          rcases List.mem_map.mp mem with ⟨other, isOther, rfl⟩
          rcases List.mem_cons.mp ((insertInOrder_perm _ _).mem_iff.mp isOther) with rfl | old
          · exact unversioned.version
          · exact unversioned.outbound _ (List.mem_map_of_mem old)
        · split
          · exact unversioned
          · exact removeRecords_unversioned unversioned _
        · exact removeRecords_unversioned unversioned _

theorem wrapMsgID_unversioned (unversioned : c.exchange.Unversioned) :
    ({ c with outboundMsgs := wrapMsgID c.outboundMsgs } : Clients).exchange.Unversioned :=
  unversioned.of_fewer rfl
    (fun _ mem => ((wrapMsgID_perm _).map Messages.untouched).mem_iff.mp mem) fun _ => id

theorem restart_unversioned (unversioned : c.exchange.Unversioned) (keys : List PersistenceKey) :
    (restart c keys).exchange.Unversioned := by
  have fresh : ((Session.fresh c).log .restarted).exchange.Unversioned := by
    rw [exchange_fresh]
    refine ⟨unversioned.version, ?_, unversioned.keys⟩
    intro m mem
    cases mem
  exact @restart_keeps (fun c => c.exchange.Unversioned)
    (fun _ k unversioned => restoreKey_unversioned unversioned k)
    (fun _ unversioned => wrapMsgID_unversioned unversioned) _ fresh keys

theorem step_unversioned (input : Input) (unversioned : c.exchange.Unversioned) :
    (step c input).exchange.Unversioned := by
  by_cases restarts : ∃ keys, input.action = .restart keys
  · rcases restarts with ⟨keys, action⟩
    have restarted : (restart (provide c input) keys).exchange.Unversioned :=
      @restart_unversioned (provide c input) unversioned keys
    simpa only [step, action, act] using restarted
  · have running : ∀ keys, input.action ≠ .restart keys :=
      fun keys action => restarts ⟨keys, action⟩
    rcases step_refines running with internals | ⟨_, _, _, starts, _⟩ | ⟨_, _, handles⟩
    · exact unversioned.internals internals
    · exact unversioned.starts starts
    · exact unversioned.handles handles

end Session

/-! ## The client that restores it -/

namespace Upgrade

/-- The store of a session under MQTT 3.1.1. -/
structure Store311 where
  records : Store
  unversioned : ∀ k, (records.lookup k).isSome → k.v5 = false

/-- Every store that a session under MQTT 3.1.1 leaves behind. -/
def written (cleansession : Bool) (inputs : List Session.Input) : Store311 where
  records := ((Machine.run Session.step
    (Session.create mqttVersion311 cleansession (some ∅)) inputs).persistence).getD ∅
  unversioned := by
    intro k stored
    have created : (Session.create mqttVersion311 cleansession (some ∅)).exchange.Unversioned := by
      refine ⟨show mqttVersion311 < mqttVersion5 by decide, ?_, ?_⟩
      · intro m mem
        cases mem
      · intro k stored
        simp [Session.create, Clients.exchange, Clients.record] at stored
    have unversioned := @Machine.invariant_of_run _ _ Session.step
      (fun c => c.exchange.Unversioned)
      (fun _ input unversioned => Session.step_unversioned input unversioned) _ created inputs
    apply unversioned.keys k
    change ((Machine.run Session.step _ inputs).persistence.bind (·.lookup k)).isSome = true
    generalize (Machine.run Session.step (Session.create mqttVersion311 cleansession (some ∅))
      inputs).persistence = persistence at stored ⊢
    cases persistence with
    | none => simp at stored
    | some store => exact stored

namespace Store311

variable (store : Store311)

/-- The record of a kind of packet or command with this number. -/
def record (stem : Stem) (number : Nat) : Option Record :=
  store.records.lookup (key stem mqttVersion311 number)

/-- No PUBREL was sent that is not acknowledged, no received QoS 2 message waits for its PUBREL,
and no command waits. -/
structure NoObligations : Prop where
  released : ∀ id publish, store.record .publishSent id = some (.publish publish) →
    publish.qos = 2 → store.record .pubrel id = none
  received : ∀ id publish, store.record .publishReceived id ≠ some (.publish publish)
  commands : ∀ number token message, store.record .command number ≠ some (.command token message)

end Store311

/-- What the client is created with, apart from its version. -/
structure CreateSettings where
  cleansession : Bool
  maxInflightMessages : Nat

/-- A command that `MQTTAsync_restoreCommands` has read, with the key in `key`. -/
structure RestoredCommand where
  key : PersistenceKey
  token : Nat
  message : Option Session.Message

/-- A client created for MQTT 5, with the commands that it has restored. -/
structure Reader where
  c : Clients
  commands : List RestoredCommand
  maxInflightMessages : Nat

/-- `MQTTAsync_restoreCommands`. -/
def restoreCommands (c : Clients) : List RestoredCommand :=
  let keys := (c.recordKeys.filter fun key => key.stem = .command).insertionSort
    fun key other => key.number ≤ other.number
  keys.filterMap fun key =>
    match c.record key with
    | some (.command token message) => some ⟨key, token, message⟩
    | _ => none

/-- `MQTTAsync_createWithOptions`; `pkeys` has returned the keys. -/
def create (store : Store311) (settings : CreateSettings) (keys : List PersistenceKey) : Reader :=
  let c := Session.restart
    (Session.create mqttVersion5 settings.cleansession (some store.records)) keys
  { c := c
    commands := restoreCommands c
    maxInflightMessages := settings.maxInflightMessages }

namespace Reader

/-- Whether `MQTTAsync_processCommand` takes the command. -/
def canProcess (r : Reader) (command : RestoredCommand) : Bool :=
  r.c.connected && Socket.noPendingWrites r.c.net &&
    !decide (maxMsgId - 1 ≤ r.c.outboundMsgs.length) &&
    match command.message with
    | some message =>
        message.qos == 0 || decide (r.c.outboundMsgs.length < r.maxInflightMessages)
    | none => decide (r.c.outboundMsgs.length < r.maxInflightMessages)

/-- `MQTTAsync_unpersistCommand`. -/
def unpersistCommand (c : Clients) (seqno : Nat) : Clients :=
  c.removeRecords [key .command c.mqttVersion seqno]

/-- `MQTTAsync_processCommand`: the command is read again under its own key. -/
def processCommand (r : Reader) : Reader :=
  match r.commands with
  | [] => r
  | command :: rest =>
      if !r.canProcess command then r
      else
        let c := unpersistCommand r.c command.key.number
        let after := { r with commands := rest, c := c }
        match r.c.record command.key with
        | some (.command token (some message)) =>
            let publish := Session.publishPacket c.mqttVersion message false token
            { after with
              c := (MQTTProtocol.startPublish c publish message.qos message.retained).2 }
        | some (.command _ none) => { after with c := { c with net := (Socket.putdatas c.net).2 } }
        | _ => after

end Reader

/-- The calls into the session code, and the processing of the first command. -/
inductive Input where
  | session (input : Session.Input)
  | processCommand (input : Session.Input)

def step (r : Reader) : Input → Reader
  | .session input => { r with c := Session.step r.c input }
  | .processCommand input =>
      Reader.processCommand { r with c := Session.provide r.c input }

/-- A publication with the topic and the payload of a PUBLISH is given to the application. -/
def Gives (c c' : Clients) (publish : Publish) : Prop :=
  ∃ given events, c'.trace = events ++ c.trace ∧ .processed given ∈ events ∧
    given.topic = publish.topic ∧ given.payload = publish.payload

/-- What the client still does for the session. -/
structure Keeps (store : Store311) (r : Reader) : Prop where
  /-- A message whose PUBREL was sent awaits PUBCOMP. -/
  released : ∀ id publish, store.record .publishSent id = some (.publish publish) →
    publish.qos = 2 → (store.record .pubrel id).isSome →
      ∃ m ∈ r.c.outboundMsgs, m.msgid = publish.msgId ∧ m.nextMessageType = some .pubcomp
  /-- When the PUBREL of a received message arrives, the message is given to the application. -/
  received : ∀ id publish, store.record .publishReceived id = some (.publish publish) →
    ∀ inputs, let after := Machine.run step r inputs
      after.c.connected = true → after.c.inboundMsgs = r.c.inboundMsgs → ∀ input,
        input.action = .receive (.pubrel publish.msgId) →
          Gives after.c (Session.step after.c input) publish
  /-- A restored command that is processed has no record any more. -/
  commands : ∀ inputs, let after := Machine.run step r inputs
    ∀ command ∈ r.commands, command ∈ after.commands.head? → ∀ input,
      after.canProcess command = true →
        (step after (.processCommand input)).c.record command.key = none

/-- Whatever it is created with, and in whatever order the keys are listed. -/
def KeepsObligations (store : Store311) : Prop :=
  ∀ settings keys, keys.Perm store.records.keys → Keeps store (create store settings keys)

/-! ## What is restored -/

section Restoring

variable {store : Store311} {cleansession : Bool} {c : Clients}

/-- The session that is restored from a store of MQTT 3.1.1. -/
structure Restored (store : Store311) (cleansession : Bool) (c : Clients) : Prop where
  settings : c.settings = ⟨mqttVersion5, cleansession, false, 4294967295⟩
  keys : ∀ k, (c.record k).isSome → k.v5 = false
  commands : ∀ k, k.stem = .command → c.record k = store.records.lookup k
  inbound : ∀ m ∈ c.inboundMsgs, mqttVersion5 ≤ m.mqttVersion
  outbound : ∀ m ∈ c.outboundMsgs, m.nextMessageType ≠ some .pubcomp

namespace Restored

theorem mqttVersion (restored : Restored store cleansession c) : c.mqttVersion = mqttVersion5 :=
  congrArg Paho.Settings.mqttVersion restored.settings

theorem removeRecord (restored : Restored store cleansession c) {k : PersistenceKey}
    (other : k.stem ≠ .command) : Restored store cleansession (c.removeRecords [k]) where
  settings := restored.settings
  keys := by
    intro key stored
    rw [Clients.record_removeRecords] at stored
    split at stored
    · cases stored
    · exact restored.keys key stored
  commands := by
    intro key stem
    rw [Clients.record_removeRecords, if_neg]
    · exact restored.commands key stem
    · intro mem
      rw [List.mem_singleton.mp mem] at stem
      exact other stem
  inbound := restored.inbound
  outbound := restored.outbound

/-- No PUBREL is found under a key of MQTT 5. -/
theorem restoredSent (restored : Restored store cleansession c) (publish : Publish) :
    (MQTTPersistence.restoredSent c publish).nextMessageType ≠ some .pubcomp := by
  have absent : (c.record (key .pubrel c.mqttVersion publish.msgId)).isSome = false := by
    apply Bool.eq_false_iff.mpr
    intro stored
    have versioned : (key .pubrel c.mqttVersion publish.msgId).v5 = true := by
      rw [restored.mqttVersion]
      rfl
    rw [restored.keys _ stored] at versioned
    cases versioned
  simp only [MQTTPersistence.restoredSent, absent, Bool.false_eq_true, if_false]
  exact MQTTProtocol.createMessage_nextMessageType_ne _ _ _ _

theorem restoreKey (restored : Restored store cleansession c) (k : PersistenceKey) :
    Restored store cleansession (Session.restoringClients (MQTTPersistence.restoreKey c k)) := by
  unfold MQTTPersistence.restoreKey
  split
  · exact restored
  next inflight =>
    have other : k.stem ≠ .command := fun stem => inflight (.inl stem)
    split
    · exact restored
    · split
      · exact restored
      · split
        next =>
          refine ⟨restored.settings, restored.keys, restored.commands, ?_, restored.outbound⟩
          intro m mem
          rcases List.mem_append.mp mem with old | new
          · exact restored.inbound m old
          · rw [List.mem_singleton.mp new]
            exact Nat.le_of_eq restored.mqttVersion.symm
        next publish _ _ =>
          refine ⟨restored.settings, restored.keys, restored.commands, restored.inbound, ?_⟩
          intro m mem
          rcases List.mem_cons.mp ((insertInOrder_perm _ _).mem_iff.mp mem) with rfl | old
          · exact restored.restoredSent publish
          · exact restored.outbound m old
        · split
          · exact restored
          · exact restored.removeRecord other
        · exact restored.removeRecord other

end Restored

theorem restart_restored (store : Store311) (cleansession : Bool) (keys : List PersistenceKey) :
    Restored store cleansession (Session.restart
      (Session.create mqttVersion5 cleansession (some store.records)) keys) := by
  apply Session.restart_keeps
  · exact fun _ k restored => restored.restoreKey k
  · intro c restored
    refine ⟨restored.settings, restored.keys, restored.commands, restored.inbound, ?_⟩
    exact fun m mem => restored.outbound m ((wrapMsgID_perm _).mem_iff.mp mem)
  · refine ⟨rfl, store.unversioned, fun _ _ => rfl, ?_, ?_⟩
    · intro m mem
      cases mem
    · intro m mem
      cases mem

end Restoring

/-! ## A connection on which every write completes -/

/-- The connection is open and idle, and these messages are kept. -/
structure Ready (inbound : List Messages) (c : Clients) : Prop where
  connected : c.connected = true
  good : c.good = true
  idle : c.net = ⟨false, []⟩
  inbound : c.inboundMsgs = inbound

namespace Ready

variable {inbound : List Messages} {c : Clients}

theorem send_publish (ready : Ready inbound c) (publish : Publish) (dup : Bool) (qos : Nat)
    (retained : Bool) :
    (MQTTPacket.send_publish c publish dup qos retained).1 = .complete ∧
      Ready inbound (MQTTPacket.send_publish c publish dup qos retained).2 := by
  rcases send_publish_result c publish dup qos retained with ⟨persistence, sent⟩
  have idle : Socket.putdatas c.net = (.complete, c.net) := by
    rw [ready.idle]
    rfl
  rw [sent, idle]
  exact ⟨rfl, ready.connected, ready.good, ready.idle, ready.inbound⟩

theorem send_ack (ready : Ready inbound c) (mqttVersion : Nat) (type : PacketType) (msgid : Nat) :
    (MQTTPacket.send_ack c mqttVersion type msgid).1 = .complete ∧
      Ready inbound (MQTTPacket.send_ack c mqttVersion type msgid).2 := by
  rcases send_ack_result c mqttVersion type msgid with ⟨persistence, sent⟩
  have idle : Socket.putdatas c.net = (.complete, c.net) := by
    rw [ready.idle]
    rfl
  rw [sent, idle]
  exact ⟨rfl, ready.connected, ready.good, ready.idle, ready.inbound⟩

theorem retryMessage (ready : Ready inbound c) (m : Messages) :
    (MQTTProtocol.retryMessage c m).1 = true ∧
      Ready inbound (MQTTProtocol.retryMessage c m).2 := by
  have published := ready.send_publish (MQTTProtocol.retryPublish m) true m.qos m.retain
  have released := ready.send_ack m.mqttVersion .pubrel m.msgid
  unfold MQTTProtocol.retryMessage
  split
  · generalize MQTTPacket.send_publish c (MQTTProtocol.retryPublish m) true m.qos m.retain = sent
      at published ⊢
    rcases sent with ⟨rc, after⟩
    rcases published with ⟨rfl, after⟩
    exact ⟨rfl, after.connected, after.good, after.idle, after.inbound⟩
  · split
    · generalize MQTTPacket.send_ack c m.mqttVersion .pubrel m.msgid = sent at released ⊢
      rcases sent with ⟨rc, after⟩
      rcases released with ⟨rfl, after⟩
      exact ⟨rfl, after.connected, after.good, after.idle, after.inbound⟩
    · exact ⟨rfl, ready⟩

theorem retryLoop (ready : Ready inbound c) (now : Nat) (messages : List Messages) :
    Ready inbound (MQTTProtocol.retryLoop now true c messages) := by
  induction messages generalizing c with
  | nil => exact ready
  | cons m rest ih =>
      have counted : Ready inbound (MQTTProtocol.countSent c true) :=
        ⟨ready.connected, ready.good, ready.idle, ready.inbound⟩
      have sends : (c.connected && c.good && Socket.noPendingWrites c.net) = true := by
        simp [ready.connected, ready.good, ready.idle, Socket.noPendingWrites]
      have sent := counted.retryMessage m
      simp only [MQTTProtocol.retryLoop, sends, Bool.true_or, if_true]
      generalize MQTTProtocol.retryMessage (MQTTProtocol.countSent c true) m = result at sent ⊢
      rcases result with ⟨continues, after⟩
      rcases sent with ⟨rfl, after⟩
      exact ih after

end Ready

/-- A connection to a server that has kept the session. -/
theorem connect_ready {c : Clients} (closed : c.connected = false)
    (idle : c.net.pendingWrites = false) (keeps : c.cleansession = false)
    (clean : c.cleanstart = false) :
    Ready c.inboundMsgs (Session.step c { action := .connect true }) := by
  have connected : Session.step c { action := .connect true } =
      MQTTAsync.completeConnection (Session.provide c { action := .connect true }) true := by
    simp [Session.step, Session.act, Session.provide, closed]
  rw [connected]
  simp only [MQTTAsync.completeConnection, Session.provide, keeps, clean, idle, Bool.or_self,
    Bool.not_true, Bool.and_false, Bool.false_eq_true, if_false]
  split
  · simp only [MQTTProtocol.retry, MQTTProtocol.retries, Socket.noPendingWrites, Bool.not_true,
      Bool.not_false, Bool.false_and, Bool.false_eq_true, if_false, if_true]
    apply Ready.retryLoop
    exact ⟨rfl, rfl, rfl, rfl⟩
  · exact ⟨rfl, rfl, rfl, rfl⟩

/-- A connection to a server that has no session discards that of the client. -/
theorem connect_cleaned {c : Clients} (closed : c.connected = false)
    (idle : c.net.pendingWrites = false) (version : c.mqttVersion = mqttVersion5) :
    Session.step c { action := .connect false } =
      MQTTAsync.cleanSession { c with
        clock := 0, net := ⟨false, []⟩, moreToTry := false,
        connected := true, good := true, trace := .connected :: c.trace } := by
  have connected : Session.step c { action := .connect false } =
      MQTTAsync.completeConnection (Session.provide c { action := .connect false }) false := by
    simp [Session.step, Session.act, Session.provide, closed]
  have old : mqttVersion311 ≤ mqttVersion5 := by decide
  rw [connected]
  simp [MQTTAsync.completeConnection, Session.provide, version, old, idle, MQTTAsync.cleanSession]

/-! ## The obligations -/

/-- A PUBREL for a message of MQTT 5 gives nothing to the application. -/
theorem pubrel_gives_nothing {c : Clients} (versioned : ∀ m ∈ c.inboundMsgs,
    mqttVersion5 ≤ m.mqttVersion) {input : Session.Input} {msgId : Nat}
    (pubrel : input.action = .receive (.pubrel msgId)) (connected : c.connected = true)
    (publish : Publish) : ¬Gives c (Session.step c input) publish := by
  rintro ⟨given, events, trace, isGiven, _⟩
  have received : Session.step c input =
      Session.receive (Session.provide c input) (.pubrel msgId) := by
    simp [Session.step, pubrel, Session.act, Session.provide, connected]
  have handles := @handles_receive (Session.provide c input) (.pubrel msgId)
  rw [← received] at handles
  have acknowledged : ∃ event, (∀ publish, event ≠ .processed publish) ∧
      (Session.step c input).trace = event :: .received .pubrel msgId :: c.trace := by
    cases handles with
    | pubrelUnexpected _ acknowledges =>
        rcases acknowledges.trace with ⟨rc, after⟩ | after
        · exact ⟨_, fun _ => Event.noConfusion, after⟩
        · exact ⟨_, fun _ => Event.noConfusion, after⟩
    | @pubrel _ m _ found _ acknowledges =>
        rcases List.mem_map.mp (findMessage_mem found).1 with ⟨old, isOld, rfl⟩
        have versioned : mqttVersion5 ≤ old.untouched.mqttVersion := versioned old isOld
        simp only [versioned, if_true] at acknowledges
        rcases acknowledges.trace with ⟨rc, after⟩ | after
        · exact ⟨_, fun _ => Event.noConfusion, after⟩
        · exact ⟨_, fun _ => Event.noConfusion, after⟩
  rcases acknowledged with ⟨event, other, after⟩
  rw [after] at trace
  have only : events = [event, .received .pubrel msgId] := by
    exact List.append_cancel_right (trace.symm.trans rfl)
  rw [only] at isGiven
  simp [Ne.symm (other given)] at isGiven

theorem send_publish_record (c : Clients) (publish : Publish) (dup : Bool) (qos : Nat)
    (retained : Bool) {k : PersistenceKey} (other : k.stem ≠ .publishSent) :
    (MQTTPacket.send_publish c publish dup qos retained).2.record k = c.record k := by
  by_cases qos0 : qos = 0
  · subst qos0
    rfl
  · have sent := congrFun (congrArg Exchange.record
      (exchange_send_publish c publish dup qos retained qos0)) k
    apply sent.trans
    rw [Exchange.sendPublish_record, if_neg]
    · rfl
    · rintro ⟨_, rfl⟩
      exact other rfl

/-- A command is taken at once when nothing is in flight. -/
theorem canProcess_of_idle {r : Reader} (connected : r.c.connected = true)
    (idle : r.c.net.pendingWrites = false) (empty : r.c.outboundMsgs = [])
    (room : 0 < r.maxInflightMessages) (command : RestoredCommand) :
    r.canProcess command = true := by
  rcases command with ⟨_, _, _ | message⟩ <;>
    simp [Reader.canProcess, Socket.noPendingWrites, connected, idle, empty, room, maxMsgId]

/-- The record of a command of MQTT 3.1.1 survives its processing. -/
theorem processCommand_record {r : Reader} (version : r.c.mqttVersion = mqttVersion5)
    {command : RestoredCommand} {rest : List RestoredCommand}
    (first : r.commands = command :: rest) (stem : command.key.stem = .command)
    (unversioned : command.key.v5 = false) :
    r.processCommand.c.record command.key = r.c.record command.key := by
  have kept : (Reader.unpersistCommand r.c command.key.number).record command.key =
      r.c.record command.key := by
    rw [Reader.unpersistCommand, Clients.record_removeRecords, if_neg]
    intro mem
    rw [List.mem_singleton.mp mem, version] at unversioned
    cases unversioned
  have other : command.key.stem ≠ .publishSent := by simp [stem]
  have started : ∀ (c : Clients) (publish : Publish) (qos : Nat) (retained : Bool),
      (MQTTProtocol.startPublish c publish qos retained).2.record command.key =
        c.record command.key := by
    intro c publish qos retained
    unfold MQTTProtocol.startPublish
    split
    · exact (send_publish_record _ _ _ _ _ other).trans rfl
    · exact send_publish_record _ _ _ _ _ other
  simp only [Reader.processCommand, first]
  split
  · rfl
  · split
    · exact (started _ _ _ _).trans kept
    · exact kept
    · exact kept

/-! ## Which stores are restored with their obligations -/

section Created

variable (store : Store311) (settings : CreateSettings) (keys : List PersistenceKey)

theorem create_restored :
    Restored store settings.cleansession (create store settings keys).c :=
  restart_restored store settings.cleansession keys

/-- The client is not connected yet, and its socket is idle. -/
theorem create_closed : Closed (create store settings keys).c :=
  Session.restart_closed _ keys

/-- A restored command was read from a record of MQTT 3.1.1. -/
theorem create_commands {command : RestoredCommand}
    (mem : command ∈ (create store settings keys).commands) :
    ∃ number, command.key = key .command mqttVersion311 number ∧
      store.record .command number = some (.command command.token command.message) := by
  rcases List.mem_filterMap.mp mem with ⟨⟨stem, v5, number⟩, isKey, read⟩
  have isCommand : stem = .command := by
    simpa using (List.mem_filter.mp ((List.perm_insertionSort _ _).mem_iff.mp isKey)).2
  subst isCommand
  split at read
  next token message stored =>
    rcases Option.some.inj read with rfl
    have kept := (create_restored store settings keys).commands ⟨.command, v5, number⟩ rfl
    have inStore := kept.symm.trans stored
    have unversioned : v5 = false :=
      store.unversioned _ (congrArg Option.isSome inStore)
    subst unversioned
    exact ⟨number, rfl, inStore⟩
  · cases read

/-- Every command record is read. -/
theorem create_reads {number token : Nat} {message : Option Session.Message}
    (stored : store.record .command number = some (.command token message)) :
    ⟨key .command mqttVersion311 number, token, message⟩ ∈
      (create store settings keys).commands := by
  have kept : (create store settings keys).c.record (key .command mqttVersion311 number) =
      some (.command token message) :=
    ((create_restored store settings keys).commands _ rfl).trans stored
  refine List.mem_filterMap.mpr ⟨key .command mqttVersion311 number, ?_, ?_⟩
  · refine (List.perm_insertionSort _ _).mem_iff.mpr (List.mem_filter.mpr ⟨?_, ?_⟩)
    · apply (Clients.mem_recordKeys _ _).mpr
      change ((create store settings keys).c.record _).isSome = true
      rw [kept]
      rfl
    · rfl
  · change (match (create store settings keys).c.record (key .command mqttVersion311 number) with
      | some (.command token message) => _
      | _ => _) = _
    rw [kept]

end Created

section Obligations

variable {store : Store311}

/-- No message awaits PUBCOMP. -/
theorem released_of_keeps {settings : CreateSettings} {keys : List PersistenceKey}
    (keeps : Keeps store (create store settings keys)) (id : Nat) (publish : Publish)
    (stored : store.record .publishSent id = some (.publish publish)) (qos : publish.qos = 2) :
    store.record .pubrel id = none := by
  by_contra sent
  rcases keeps.released id publish stored qos (Option.isSome_iff_ne_none.mpr sent) with
    ⟨m, mem, _, awaits⟩
  exact (create_restored store settings keys).outbound m mem awaits

/-- The PUBREL of a restored message gives nothing to the application. -/
theorem received_of_keeps {maxInflightMessages : Nat} {keys : List PersistenceKey}
    (keeps : Keeps store (create store ⟨false, maxInflightMessages⟩ keys)) (id : Nat)
    (publish : Publish) :
    store.record .publishReceived id ≠ some (.publish publish) := by
  intro stored
  have restored := create_restored store ⟨false, maxInflightMessages⟩ keys
  have closed := create_closed store ⟨false, maxInflightMessages⟩ keys
  have ready := connect_ready closed.1 closed.2
    (congrArg Paho.Settings.cleansession restored.settings)
    (congrArg Paho.Settings.cleanstart restored.settings)
  have given := keeps.received id publish stored [.session { action := .connect true }]
    ready.connected ready.inbound { action := .receive (.pubrel publish.msgId) } rfl
  refine pubrel_gives_nothing ?_ rfl ready.connected publish given
  intro m mem
  exact restored.inbound m (ready.inbound ▸ mem)

/-- The first restored command keeps its record when it is processed after a connection. -/
theorem commands_of_keeps {cleansession : Bool} {keys : List PersistenceKey}
    (keeps : Keeps store (create store ⟨cleansession, 10⟩ keys)) (number token : Nat)
    (message : Option Session.Message) :
    store.record .command number ≠ some (.command token message) := by
  intro stored
  have restored := create_restored store ⟨cleansession, 10⟩ keys
  have closed := create_closed store ⟨cleansession, 10⟩ keys
  have isRead := create_reads store ⟨cleansession, 10⟩ keys stored
  have source := @create_commands store ⟨cleansession, 10⟩ keys
  have removed := keeps.commands [.session { action := .connect false }]
  have bound : (create store ⟨cleansession, 10⟩ keys).maxInflightMessages = 10 := rfl
  generalize create store ⟨cleansession, 10⟩ keys = r at *
  have connected := connect_cleaned closed.1 closed.2 restored.mqttVersion
  rcases first : r.commands with _ | ⟨command, rest⟩
  · rw [first] at isRead
    cases isRead
  · have isHead : command ∈ r.commands := first ▸ List.mem_cons_self
    rcases source isHead with ⟨number, isKey, inStore⟩
    have stem : command.key.stem = .command := congrArg PersistenceKey.stem isKey
    have unversioned : command.key.v5 = false := congrArg PersistenceKey.v5 isKey
    have keptRecord : (Session.step r.c { action := .connect false }).record command.key =
        some (.command command.token command.message) := by
      have cleaned := congrFun (congrArg (fun c => c.exchange.record) connected) command.key
      simp only [exchange_cleanSession, Exchange.clean_record, isInflight, stem] at cleaned
      exact cleaned.trans ((restored.commands _ stem).trans (isKey ▸ inStore))
    have canProcess : Reader.canProcess { r with
        c := Session.step r.c { action := .connect false } } command = true := by
      apply canProcess_of_idle
      · rw [connected]
        rfl
      · rw [connected]
        rfl
      · rw [connected]
        rfl
      · exact Nat.lt_of_lt_of_eq (by decide) bound.symm
    have processed := removed command isHead (by simp [Machine.run, step, first])
      { action := .retry false } canProcess
    have version : (Session.step r.c { action := .connect false }).mqttVersion = mqttVersion5 := by
      rw [connected]
      exact restored.mqttVersion
    have survives := @processCommand_record
      { r with
        c := Session.provide (Session.step r.c { action := .connect false })
          { action := .retry false } }
      version command rest first stem unversioned
    cases keptRecord.symm.trans (survives.symm.trans processed)

/-- The client keeps the obligations of those stores only that have none. -/
theorem keepsObligations_iff (store : Store311) : KeepsObligations store ↔ store.NoObligations := by
  constructor
  · intro keeps
    refine ⟨?_, ?_, ?_⟩
    · exact released_of_keeps (keeps ⟨false, 10⟩ _ (List.Perm.refl _))
    · exact received_of_keeps (keeps ⟨false, 10⟩ _ (List.Perm.refl _))
    · exact commands_of_keeps (keeps ⟨false, 10⟩ _ (List.Perm.refl _))
  · intro none settings keys perm
    refine ⟨?_, ?_, ?_⟩
    · intro id publish stored qos sent
      rw [none.released id publish stored qos] at sent
      cases sent
    · exact fun id publish stored => absurd stored (none.received id publish)
    · intro inputs after command mem
      rcases create_commands store settings keys mem with ⟨number, _, stored⟩
      exact absurd stored (none.commands number _ _)

/-- A session under MQTT 3.1.1 that ends before the PUBREL of a received message. -/
def interrupted : Store311 :=
  written false
    [{ action := .connect false },
      { action := .receive (.publish false ⟨[116], [1], 2, false, []⟩ 1) }]

/-- The message is never given to the application. -/
theorem not_keepsObligations : ¬∀ store, KeepsObligations store := by
  intro keeps
  have stored : interrupted.record .publishReceived 1 = some (.publish
      (Session.publishPacket mqttVersion311 ⟨[116], [1], 2, false, []⟩ false 1)) := by
    decide
  exact received_of_keeps (keeps interrupted ⟨false, 10⟩ _ (List.Perm.refl _)) 1 _ stored

end Obligations

end Upgrade

end Paho
