import Paho.Async.Handle
import Mathlib.Data.List.Sort

/-!
# The queue of commands

`MQTTAsync_send` puts a publication in the queue of commands and its record in the store;
`MQTTAsync_processCommand` takes the first command off the queue again. The functions are those
of `MQTTAsync.c` and `MQTTAsyncUtils.c` for the commands of one client.
-/

namespace Paho

namespace MQTTAsyncs

/-- Whether `MQTTAsync_send` returns at once because the client is not connected. -/
def refusesDisconnected (s : MQTTAsyncs) : Bool :=
  !s.c.connected &&
    match s.createOptions with
    | none => true
    | some options =>
        !options.sendWhileDisconnected ||
          (!s.shouldBeConnected && !options.allowDisconnectedSendAtAnyTime)

/-- Whether `MQTTAsync_send` returns `MQTTASYNC_MAX_BUFFERED_MESSAGES`. -/
def refusesBuffered (s : MQTTAsyncs) : Bool :=
  match s.createOptions with
  | none => false
  | some options =>
      !options.deleteOldestMessages &&
        decide ((options.maxBufferedMessages : Int) ≤ s.noBufferedMessages)

/-- The tokens that `MQTTAsync_assignMsgId` does not assign again. -/
def usedMsgIds (s : MQTTAsyncs) : List Nat :=
  s.commands.map QueuedCommand.token ++ ids s.c.outboundMsgs ++ s.responses

/-- `MQTTAsync_assignMsgId`: the same search as `MQTTProtocol_assignMsgId`. -/
def assignMsgId (s : MQTTAsyncs) : Option (Nat × MQTTAsyncs) :=
  match MQTTProtocol.searchMsgId (usedMsgIds s) s.c.msgID (maxMsgId + 1)
      (MQTTProtocol.nextMsgId s.c.msgID) with
  | none => none
  | some msgid =>
      some (msgid, if msgid ≠ 0 then { s with c := { s.c with msgID := msgid } } else s)

/-- `MQTTAsync_send` up to its call of `MQTTAsync_addCommand`. -/
def send (s : MQTTAsyncs) (message : Session.Message) : MQTTAsyncs :=
  if refusesDisconnected s then s
  else if 2 < message.qos then s
  else if message.qos = 0 then
    if refusesBuffered s then s else { s with sending := .adding 0 (.publish message) }
  else
    match assignMsgId s with
    | none => s
    | some (msgid, s) =>
        if msgid = 0 then s
        else if refusesBuffered s then s
        else { s with sending := .adding msgid (.publish message) }

/-- `MQTTAsync_subscribeMany` and `MQTTAsync_unsubscribeMany` up to their call of
`MQTTAsync_addCommand`. -/
def subscribe (s : MQTTAsyncs) : MQTTAsyncs :=
  if !s.c.connected then s
  else
    match assignMsgId s with
    | none => s
    | some (msgid, s) => if msgid = 0 then s else { s with sending := .adding msgid .subscribe }

/-- The key of the record of a command. -/
def commandKey (s : MQTTAsyncs) (seqno : Nat) : PersistenceKey :=
  MQTTPersistence.key .command s.c.mqttVersion seqno

/-- Whether `MQTTAsync_addCommand` calls `MQTTAsync_persistCommand`. -/
def callsPersistCommand (s : MQTTAsyncs) : Command → Bool
  | .publish message =>
      s.c.persistence.isSome &&
      (message.qos != 0 || (s.createOptions.map (·.persistQoS0)).getD true)
  | _ => s.c.persistence.isSome

/-- `MQTTAsync_persistCommand`, and the record of the put. DISCONNECT commands use up a sequence
number without being stored. -/
def persistCommand (s : MQTTAsyncs) (token : Nat) (command : Command) :
    MQTTAsyncs × QueuedCommand :=
  let seqno := nextSeqno s.commandSeqno
  let s := { s with commandSeqno := seqno }
  match command with
  | .publish message =>
      let s := { s with c := s.c.putRecord (commandKey s seqno) (.command token (some message)) }
      (s.log (.accepted token message), ⟨command, token, seqno, true⟩)
  | .subscribe =>
      ({ s with c := s.c.putRecord (commandKey s seqno) (.command token none) },
        ⟨command, token, seqno, false⟩)
  | _ => (s, ⟨command, token, 0, false⟩)

/-- `MQTTAsync_addCommand` for a command at the head of the queue: ignored when the first command
is a CONNECT or DISCONNECT already. -/
def addFirst (s : MQTTAsyncs) (command : Command) : MQTTAsyncs :=
  match s.commands with
  | [] => { s with commands := [⟨command, 0, 0, false⟩] }
  | first :: rest =>
      if first.command.isConnection then s
      else { s with commands := ⟨command, 0, 0, false⟩ :: first :: rest }

/-- `MQTTAsync_addCommand` up to the put of the command. -/
def addCommand (s : MQTTAsyncs) (token : Nat) (command : Command) : MQTTAsyncs :=
  if command.atHead then { addFirst s command with sending := .none }
  else
    let (s, queued) :=
      if callsPersistCommand s command then persistCommand s token command
      else (s, ⟨command, token, 0, false⟩)
    { s with
      commands := s.commands ++ [queued]
      sending :=
        match command with
        | .publish _ => .added
        | _ => .none }

/-- `MQTTAsync_unpersistCommand`. The record under the sequence number of the command goes, also
when the command was never stored. -/
def unpersistCommand (s : MQTTAsyncs) (queued : QueuedCommand) : MQTTAsyncs :=
  { s with c := s.c.removeRecords [commandKey s queued.seqno] }

/-- Whether the buffer is full when a publication has been added. -/
def bufferFull (s : MQTTAsyncs) : Bool :=
  match s.createOptions with
  | none => false
  | some options => decide ((options.maxBufferedMessages : Int) ≤ s.noBufferedMessages)

/-- The last part of `MQTTAsync_addCommand` for a publication: when the buffer is full, the oldest
publication in the queue is deleted. -/
def checkBuffer (s : MQTTAsyncs) : MQTTAsyncs :=
  let s := { s with sending := .none }
  if bufferFull s then
    match s.commands.find? fun queued => queued.command.isPublish with
    | none => s
    | some oldest => unpersistCommand { s with commands := s.commands.erase oldest } oldest
  else { s with noBufferedMessages := s.noBufferedMessages + 1 }

/-- Whether the first command can be processed now. -/
def canProcess (s : MQTTAsyncs) (command : Command) : Bool :=
  command.isConnection ||
    (s.c.connected && Socket.noPendingWrites s.c.net &&
      !decide (maxMsgId - 1 ≤ s.c.outboundMsgs.length) &&
      match command with
      | .publish message =>
          message.qos == 0 || decide (s.c.outboundMsgs.length < s.maxInflightMessages)
      | _ => decide (s.c.outboundMsgs.length < s.maxInflightMessages))

/-- `MQTTAsync_disconnect_internal`. -/
def disconnectInternal (s : MQTTAsyncs) : MQTTAsyncs :=
  addFirst s (.disconnect true)

/-- The message of a PUBLISH command, read back from the store when it is only there. -/
def restoreCommand (s : MQTTAsyncs) (queued : QueuedCommand) (message : Session.Message) :
    Option Session.Message :=
  if queued.notRestored then
    match s.c.record (commandKey s queued.seqno) with
    | some (.command _ restored) => restored
    | _ => none
  else some message

/-- `MQTTAsync_processCommand` up to the removal of the record of the command; other commands
than PUBLISH have no further effect on the store. A command whose message cannot be read back
is lost. -/
def processCommand (s : MQTTAsyncs) (expired : Bool) : MQTTAsyncs :=
  match s.commands with
  | [] => s
  | queued :: rest =>
      if !canProcess s queued.command then s
      else
        let after := { s with commands := rest }
        let after := if s.c.persistence.isSome then unpersistCommand after queued else after
        match queued.command with
        | .publish message =>
            let after := { after with noBufferedMessages := s.noBufferedMessages - 1 }
            match restoreCommand s queued message with
            | some message => { after with phase := .publishing queued.token message }
            | none => after
        | .subscribe =>
            match Socket.putdatas after.c.net with
            | (.socketError, net) =>
                disconnectInternal { after with c := { after.c with net := net } }
            | (_, net) =>
                { after with
                  c := { after.c with net := net }
                  responses := after.responses ++ [queued.token] }
        | .connect => after
        | .disconnect internal =>
            if after.c.connected && (after.c.outboundMsgs.isEmpty || internal || expired) then
              { after with c := MQTTAsync.closeSession after.c }
            else after

/-- The rest of `MQTTAsync_processCommand` for a PUBLISH: the message is put in flight, its
record is put in the store and the packet is written. -/
def startPublish (s : MQTTAsyncs) (token : Nat) (message : Session.Message) : MQTTAsyncs :=
  let publish := Session.publishPacket s.c.mqttVersion message false token
  let (rc, c) := MQTTProtocol.startPublish s.c publish message.qos message.retained
  let s := { s with c := c, phase := .idle }
  match rc with
  | .socketError => disconnectInternal s
  | .interrupted => { s with responses := s.responses ++ [token] }
  | .complete => if message.qos = 0 then s else { s with responses := s.responses ++ [token] }

/-- `MQTTAsync_restoreCommands`: the commands of the store, in the order of their sequence
numbers. -/
def restoreCommands (s : MQTTAsyncs) : MQTTAsyncs :=
  let keys := (s.c.recordKeys.filter fun key => key.stem = .command).insertionSort
    fun key other => key.number ≤ other.number
  let commands := keys.filterMap fun key =>
    match s.c.record key with
    | some (.command token (some message)) => some ⟨.publish message, token, key.number, true⟩
    | some (.command token none) => some ⟨.subscribe, token, key.number, true⟩
    | _ => none
  { s with
    commands := commands
    commandSeqno := commands.foldl (fun seqno queued => max seqno queued.seqno) s.commandSeqno
    noBufferedMessages := (commands.filter fun queued => queued.command.isPublish).length }

end MQTTAsyncs

end Paho
