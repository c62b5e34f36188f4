import Paho.Async.Handle
import Paho.Codec.CommandRoundTrip
import Paho.Codec.QueueRecords
import Paho.Library.NumberedRecords
import Mathlib.Data.List.Sort

/-!
# Commands and messages under sequence numbers

The commands that wait to be processed, the messages that wait for the application, and the
records of both, as bytes under the sequence numbers of `MQTTAsyncUtils.c` and
`MQTTPersistence.c`. The functions are those for one client, as far as they deal with the
numbers and the records; operations on the store succeed.
-/

namespace Paho

/-- The types of commands. -/
inductive CommandType where
  | publish
  | subscribe
  | unsubscribe
  | connect
  | disconnect
  deriving DecidableEq, Repr

/-- The type of a command with these details. -/
def CommandRecord.Details.commandType : CommandRecord.Details → CommandType
  | .pub _ => .publish
  | .sub _ => .subscribe
  | .unsub _ => .unsubscribe

/-- A command in `MQTTAsync_commands`. `record` is what `MQTTAsync_persistCommand` has put for it,
if it has; the command itself is in the record. -/
structure WaitingCommand where
  type : CommandType
  seqno : Nat
  not_restored : Bool
  record : Option Bytes
  deriving DecidableEq, Repr

/-- `MQTTPersistence_qEntry`. -/
structure WaitingMessage where
  entry : QueueRecord.Entry
  seqno : Nat
  deriving DecidableEq

/-- The records, by their keys. -/
abbrev RecordStore := AList fun _ : PersistenceKey => Bytes

/-- The two libraries. -/
inductive Library where
  | mqttAsync
  | mqttClient
  deriving DecidableEq, Repr

/-- What a client is created with. -/
structure BacklogSettings where
  library : Library
  version : Nat
  /-- Whether there is a callback `beforeWrite`. It returns 0 and changes nothing. -/
  beforeWrite : Bool
  persistQoS0 : Bool
  deriving DecidableEq, Repr

/-- The parts of a client that sequence numbers concern. -/
structure Backlog where
  settings : BacklogSettings
  connected : Bool
  commands : List WaitingCommand
  command_seqno : Nat
  messageQueue : List WaitingMessage
  qentry_seqno : Nat
  store : RecordStore

namespace Backlog

/-- A key of the client's version. -/
def key (b : Backlog) (stem : Stem) (seqno : Nat) : PersistenceKey :=
  { stem := stem, v5 := decide (mqttVersion5 ≤ b.settings.version), number := seqno }

/-- The records of a stem, by their numbers. -/
def records (b : Backlog) (stem : Stem) (seqno : Nat) : Option Bytes :=
  b.store.lookup (b.key stem seqno)

section Commands

/-- A call of the application that queues a command. -/
inductive Request where
  | subscribe (token : Int32) (topics : Counted (CString × Int32))
      (response : Option CommandRecord.ResponseOptions)
  | unsubscribe (token : Int32) (topics : Counted CString)
      (response : Option CommandRecord.ResponseOptions)
  | send (token : Int32) (destinationName : CString) (payload : Counted UInt8)
      (qos retained : Int32) (response : Option CommandRecord.ResponseOptions)

/-- The command that is queued. -/
def Request.command (version : Nat) : Request → Option CommandRecord.Command
  | .subscribe token topics response => CommandRecord.subscribeMany version token topics response
  | .unsubscribe token topics response =>
      some (CommandRecord.unsubscribeMany version token topics response)
  | .send token destinationName payload qos retained response =>
      some (CommandRecord.send version token destinationName payload qos retained response)

/-- Whether `MQTTAsync_addCommand` leaves the command without a record. -/
def Request.unstored (persistQoS0 : Bool) : Request → Bool
  | .send _ _ _ qos _ _ => !persistQoS0 && qos == 0
  | _ => false

/-- `MQTTAsync_unpersistCommand`. -/
def unpersistCommand (b : Backlog) (command : WaitingCommand) : Backlog :=
  { b with store := b.store.erase (b.key .command command.seqno) }

/-- `MQTTAsync_addCommand` for a CONNECT or an internal DISCONNECT. -/
def addFirst (b : Backlog) (type : CommandType) : Backlog :=
  match b.commands with
  | first :: _ =>
      if first.type = .connect ∨ first.type = .disconnect then b
      else { b with commands := ⟨type, 0, false, none⟩ :: b.commands }
  | [] => { b with commands := [⟨type, 0, false, none⟩] }

/-- `MQTTAsync_addCommand` for a DISCONNECT of the application, which `MQTTAsync_persistCommand`
gives a number and no record. -/
def addDisconnect (b : Backlog) : Backlog :=
  { b with
    commands := b.commands ++ [⟨.disconnect, 0, false, none⟩]
    command_seqno := nextSeqno b.command_seqno }

/-- `MQTTAsync_addCommand` up to the deletion of the oldest message. It has no outcome when the
properties overflow their buffer. -/
def addCommand (b : Backlog) (request : Request) : Backlog :=
  match request.command b.settings.version with
  | none => b
  | some command =>
      let type := command.details.commandType
      if request.unstored b.settings.persistQoS0 then
        { b with commands := b.commands ++ [⟨type, 0, false, none⟩] }
      else
        match CommandRecord.persistCommand b.settings.version command with
        | none => b
        | some record =>
            let seqno := nextSeqno b.command_seqno
            { b with
              commands := b.commands ++
                [⟨type, seqno, decide (type = .publish), some record⟩]
              command_seqno := seqno
              store := b.store.insert (b.key .command seqno) record }

/-- The deletion of the oldest message in `MQTTAsync_addCommand`. -/
def deleteOldest (b : Backlog) : Backlog :=
  match b.commands.find? fun command => command.type = .publish with
  | none => b
  | some first_publish =>
      unpersistCommand { b with commands := b.commands.erase first_publish } first_publish

/-- `MQTTAsync_processCommand`, when the first command can be processed. The process ends when a
command cannot be read back. -/
def processCommand (b : Backlog) : Backlog :=
  match b.commands with
  | [] => b
  | command :: rest =>
      let readable :=
        match b.records .command command.seqno with
        | none => false
        | some record =>
            (CommandRecord.restoreCommand record b.settings.version
              (CommandRecord.restoreCommand record b.settings.version none)).isSome
      if command.not_restored && !readable then b
      else unpersistCommand { b with commands := rest } command

/-- A command as `MQTTAsync_restoreCommands` restores it. -/
def restoredCommand (version : Nat) (seqno : Nat) (record : Bytes) : Option WaitingCommand :=
  (CommandRecord.restoreCommand record version none).map fun qcommand =>
    { type := qcommand.command.details.commandType
      seqno := seqno
      not_restored := true
      record := some record }

/-- `MQTTAsync_restoreCommands`, with the keys from `pkeys`. -/
def restoreCommands (b : Backlog) (keys : List PersistenceKey) : Backlog :=
  let sorted := keys.mergeSort fun key other => key.number ≤ other.number
  let commands := (sorted.filter fun key => key.stem = .command).filterMap fun key =>
    (b.store.lookup key).bind
      (restoredCommand (if key.v5 then mqttVersion5 else mqttVersion311) key.number)
  { b with
    commands := commands
    command_seqno := commands.foldl (fun seqno command => max seqno command.seqno) 0 }

end Commands

section Messages

/-- A PUBLISH as `MQTTPacket_publish` returns it. -/
structure ReceivedPublish where
  topic : Bytes
  payload : Counted UInt8
  dup : Bool
  qos : Nat
  retain : Bool
  msgId : Nat
  properties : MQTTProperties
  wellTyped : ∀ prop ∈ properties, prop.WellTyped
  representable : MQTTProperties.Representable properties

/-- The entry that `Protocol_processPublication` makes. -/
def ReceivedPublish.entry (version : Nat) (publish : ReceivedPublish) : QueueRecord.Entry :=
  { msg :=
      { payloadlen := Int32.ofNat publish.payload.val.length
        payload := publish.payload.val
        qos := Int32.ofNat publish.qos
        retained := if publish.retain then 1 else 0
        dup := if publish.qos ≠ 2 ∧ publish.dup then 1 else 0
        msgid := Int32.ofNat publish.msgId
        properties := if mqttVersion5 ≤ version then publish.properties else [] }
    topicName := publish.topic
    topicLen := Int32.ofNat publish.topic.length }

/-- `MQTTPersistence_unpersistQueueEntry`. -/
def unpersistQueueEntry (b : Backlog) (qe : WaitingMessage) : Backlog :=
  { b with store := b.store.erase (b.key .queue qe.seqno) }

/-- `rc` in `MQTTPersistence_persistQueueEntry` before the put: the number of bytes that
`MQTTProperties_write` has written, or the result of `beforeWrite`. -/
def putResult (b : Backlog) (entry : QueueRecord.Entry) : Nat :=
  if b.settings.beforeWrite then 0
  else if mqttVersion5 ≤ b.settings.version then
    (MQTTProperties.write entry.msg.properties).length
  else 0

/-- `MQTTPersistence_persistQueueEntry` for an entry at the end of the queue. -/
def persistQueueEntry (b : Backlog) (entry : QueueRecord.Entry) : Backlog :=
  let seqno := nextSeqno b.qentry_seqno
  { b with
    messageQueue := b.messageQueue ++ [⟨entry, seqno⟩]
    qentry_seqno := seqno
    store :=
      if b.putResult entry = 0 then
        b.store.insert (b.key .queue seqno) (QueueRecord.write b.settings.version entry)
      else b.store }

/-- Whether `Protocol_processPublication` gives the message to the application at once;
`accepts` is the answer of `messageArrived`. -/
def givenAtOnce (b : Backlog) (accepts : Bool) : Bool :=
  b.settings.library == .mqttAsync && b.messageQueue.isEmpty && b.connected && accepts

/-- `Protocol_processPublication`. -/
def processPublication (b : Backlog) (publish : ReceivedPublish) (accepts : Bool) : Backlog :=
  if b.givenAtOnce accepts then b
  else b.persistQueueEntry (publish.entry b.settings.version)

/-- The first message is given to the application: by the receiving thread, whose callback may
refuse it, or by `MQTTClient_deliverMessage`. -/
def deliverMessage (b : Backlog) (accepts : Bool) : Backlog :=
  match b.messageQueue with
  | [] => b
  | qe :: rest =>
      if accepts then unpersistQueueEntry { b with messageQueue := rest } qe else b

/-- A message as `MQTTPersistence_restoreMessageQueue` restores it. -/
def restoredMessage (version : Nat) (seqno : Nat) (record : Bytes) : Option WaitingMessage :=
  (QueueRecord.read version record).map fun (entry, _) => ⟨entry, seqno⟩

/-- `MQTTPersistence_restoreMessageQueue`, with the keys from `pkeys`. -/
def restoreMessageQueue (b : Backlog) (keys : List PersistenceKey) : Backlog :=
  let entries := (keys.filter fun key => key.stem = .queue).filterMap fun key =>
    (b.store.lookup key).bind
      (restoredMessage (if key.v5 then mqttVersion5 else mqttVersion311) key.number)
  { b with
    messageQueue := Numbered.insertAll WaitingMessage.seqno entries
    qentry_seqno := entries.foldl (fun seqno qe => max seqno qe.seqno) 0 }

/-- `MQTTClient_cleanSession`: `MQTTPersistence_clear` and `MQTTClient_emptyMessageQueue`. -/
def cleanSession (b : Backlog) : Backlog :=
  { b with messageQueue := [], store := ∅ }

end Messages

/-- What happens to a client. -/
inductive Input where
  | add (request : Request)
  | connect
  | disconnect (internal : Bool)
  | deleteOldest
  | process
  | arrive (publish : ReceivedPublish) (accepts : Bool)
  | deliver (accepts : Bool)
  | setConnected (connected : Bool)
  | clean
  /-- The process ends, and the client is created anew. `pkeys` returns the keys in some order. -/
  | restart (keys : List PersistenceKey)
  /-- The same with `restoreMessages` set to 0. -/
  | restartEmpty

/-- `MQTTAsync_createWithOptions` or `MQTTClient_createWithOptions`. -/
def restart (b : Backlog) (keys : List PersistenceKey) : Backlog :=
  let keys := if keys.Perm b.store.keys then keys else b.store.keys
  let b := { b with connected := false }
  match b.settings.library with
  | .mqttAsync => (b.restoreCommands keys).restoreMessageQueue keys
  | .mqttClient => b.restoreMessageQueue keys

/-- The keys that `MQTTAsync_unpersistCommandsAndMessages` removes. -/
def isBacklogKey (key : PersistenceKey) : Bool :=
  key.stem = .command ∨ key.stem = .queue

/-- A step. The two libraries have different functions. -/
def step (b : Backlog) (input : Input) : Backlog :=
  match b.settings.library, input with
  | .mqttAsync, .add request => b.addCommand request
  | .mqttAsync, .connect => b.addFirst .connect
  | .mqttAsync, .disconnect internal =>
      if internal then b.addFirst .disconnect else b.addDisconnect
  | .mqttAsync, .deleteOldest => b.deleteOldest
  | .mqttAsync, .process => b.processCommand
  | .mqttClient, .clean => b.cleanSession
  | .mqttAsync, .restartEmpty =>
      { b with
        connected := false
        commands := []
        command_seqno := 0
        messageQueue := []
        qentry_seqno := 0
        store := (b.store.keys.filter isBacklogKey).foldl (fun store key => store.erase key)
          b.store }
  | _, .arrive publish accepts => b.processPublication publish accepts
  | _, .deliver accepts => b.deliverMessage accepts
  | _, .setConnected connected => { b with connected := connected }
  | _, .restart keys => b.restart keys
  | _, _ => b

/-- A new client with an empty store. -/
def create (settings : BacklogSettings) : Backlog :=
  { settings := settings
    connected := false
    commands := []
    command_seqno := 0
    messageQueue := []
    qentry_seqno := 0
    store := ∅ }

end Backlog

end Paho
