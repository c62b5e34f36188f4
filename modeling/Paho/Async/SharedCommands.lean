import Paho.Library.Run
import Paho.Packet.Types
import Mathlib.Data.List.Pairwise
import Mathlib.Logic.Function.Basic

/-!
# The list of commands of all clients

`MQTTAsync_commands` is one list for every client of the process. `MQTTAsync_addCommand` puts a
command in it, `MQTTAsync_processCommand` takes one out, and `MQTTAsync_restoreCommands` appends
those of a client that is created. What a command carries beyond its type is of no concern here.
-/

namespace Paho

namespace SharedCommands

/-- The commands that have records. -/
inductive Operation where
  | subscribe
  | unsubscribe
  | publish (qos : Int)
  deriving DecidableEq, Repr

/-- The types of commands. -/
inductive Kind where
  | connect
  | disconnect (internal : Bool)
  | operation (operation : Operation)
  deriving DecidableEq, Repr

namespace Kind

/-- Whether a command is a CONNECT or an internal DISCONNECT. -/
def atHead : Kind → Bool
  | connect => true
  | disconnect internal => internal
  | operation _ => false

/-- Whether a command is a CONNECT or a DISCONNECT. -/
def isConnection : Kind → Bool
  | operation _ => false
  | _ => true

/-- Whether a command is a PUBLISH. -/
def isPublish : Kind → Bool
  | operation (.publish _) => true
  | _ => false

theorem isConnection_of_atHead {kind : Kind} (head : kind.atHead = true) :
    kind.isConnection = true := by
  cases kind with
  | operation _ => cases head
  | _ => rfl

end Kind

/-- `MQTTAsync_queuedCommand`. -/
structure QueuedCommand (Client Content : Type) where
  client : Client
  kind : Kind
  content : Content
  deriving DecidableEq

/-- What `MQTTAsync_processCommand` reads of a client. -/
structure Status where
  connected : Bool
  /-- `connect_state` is not `NOT_IN_PROGRESS`. -/
  inProgress : Bool
  noPendingWrites : Bool
  /-- The length of `outboundMsgs`. -/
  outboundMsgs : Nat
  maxInflightMessages : Int
  deriving DecidableEq, Repr

/-- The members of `MQTTAsync_createOptions` about the buffer. -/
structure CreateOptions where
  struct_version : Nat
  maxBufferedMessages : Int
  deleteOldestMessages : Bool
  deriving DecidableEq, Repr

/-- The results of `MQTTAsync_addCommand`. -/
inductive ReturnCode where
  | success
  | commandIgnored
  deriving DecidableEq, Repr

/-- The list of commands and the clients' counters. `restored`, `added` and `taken` record what
happened: how many messages a client was created with, and which commands were appended and taken,
oldest first. -/
structure Commands (Client Content : Type) where
  clients : List Client
  createOptions : Client → Option CreateOptions
  commands : List (QueuedCommand Client Content)
  noBufferedMessages : Client → Int
  restored : Client → Nat
  added : List (QueuedCommand Client Content)
  taken : List (QueuedCommand Client Content)

variable {Client Content : Type} [DecidableEq Client]

/-- Whether a command is a PUBLISH of a client. -/
def publishOf (client : Client) (command : QueuedCommand Client Content) : Bool :=
  decide (command.client = client) && command.kind.isPublish

namespace Commands

/-- The search for a CONNECT or DISCONNECT of a client in `MQTTAsync_addCommand`, over the elements
that it visits. -/
def findConnection (client : Client) :
    List (QueuedCommand Client Content) → Option (QueuedCommand Client Content)
  | [] => none
  | cur_cmd :: visited =>
      if !cur_cmd.kind.isConnection then none
      else if cur_cmd.client = client then some cur_cmd
      else findConnection client visited

/-- The end of `MQTTAsync_addCommand` for a PUBLISH: the oldest one of the client is deleted when
the buffer is full. -/
def checkBuffer (s : Commands Client Content) (client : Client) : Commands Client Content :=
  let full :=
    match s.createOptions client with
    | none => false
    | some options => decide (options.maxBufferedMessages ≤ s.noBufferedMessages client)
  if full then { s with commands := s.commands.eraseP (publishOf client) }
  else
    { s with
      noBufferedMessages :=
        Function.update s.noBufferedMessages client (s.noBufferedMessages client + 1) }

/-- `MQTTAsync_addCommand`. The search begins at the first element and goes on to `prev`, which the
first element does not have. -/
def addCommand (s : Commands Client Content) (command : QueuedCommand Client Content) :
    Commands Client Content × ReturnCode :=
  if command.kind.atHead then
    match findConnection command.client (s.commands.take 1) with
    | some _ => (s, .commandIgnored)
    | none => ({ s with commands := command :: s.commands }, .success)
  else
    let s :=
      { s with
        commands := s.commands ++ [command]
        added := s.added ++ [command] }
    (if command.kind.isPublish then checkBuffer s command.client else s, .success)

/-- Whether a command need not wait, by the state of its client. -/
def canProcess (status : Status) : Kind → Bool
  | .connect | .disconnect _ => true
  | .operation operation =>
      let flowControl :=
        match operation with
        | .publish qos => decide (0 < qos)
        | _ => true
      status.connected && !status.inProgress && status.noPendingWrites &&
        !decide (maxMsgId - 1 ≤ status.outboundMsgs) &&
        !(flowControl && decide (status.maxInflightMessages ≤ status.outboundMsgs))

/-- The search in `MQTTAsync_processCommand`, with `ignored_clients`: the command that is found,
and the list without it. -/
def detachCommand (status : Client → Status) :
    List Client → List (QueuedCommand Client Content) →
      Option (QueuedCommand Client Content × List (QueuedCommand Client Content))
  | _, [] => none
  | ignored_clients, cmd :: rest =>
      if cmd.client ∈ ignored_clients then
        (detachCommand status ignored_clients rest).map fun found => (found.1, cmd :: found.2)
      else if canProcess (status cmd.client) cmd.kind then some (cmd, rest)
      else
        (detachCommand status (ignored_clients ++ [cmd.client]) rest).map fun found =>
          (found.1, cmd :: found.2)

/-- `MQTTAsync_processCommand` up to the sending of the command. -/
def processCommand (s : Commands Client Content) (status : Client → Status) :
    Commands Client Content :=
  match detachCommand status [] s.commands with
  | none => s
  | some (command, rest) =>
      { s with
        commands := rest
        noBufferedMessages :=
          if command.kind.isPublish then
            Function.update s.noBufferedMessages command.client
              (s.noBufferedMessages command.client - 1)
          else s.noBufferedMessages
        taken := s.taken ++ [command] }

/-- `MQTTAsync_restoreCommands` for a client that is created. -/
def create (s : Commands Client Content) (client : Client)
    (createOptions : Option CreateOptions) (stored : List (Operation × Content)) :
    Commands Client Content :=
  let restored := stored.map fun record => ⟨client, .operation record.1, record.2⟩
  let publications := restored.countP (publishOf client)
  { s with
    clients := client :: s.clients
    createOptions := Function.update s.createOptions client createOptions
    commands := s.commands ++ restored
    noBufferedMessages := Function.update s.noBufferedMessages client publications
    restored := Function.update s.restored client publications
    added := s.added ++ restored }

/-- No client yet. -/
def empty : Commands Client Content :=
  { clients := []
    createOptions := fun _ => none
    commands := []
    noBufferedMessages := fun _ => 0
    restored := fun _ => 0
    added := []
    taken := [] }

/-- The calls that change the list. The states of the clients are those at the time of the call. -/
inductive Input (Client Content : Type) where
  | create (client : Client) (createOptions : Option CreateOptions)
      (stored : List (Operation × Content))
  | add (command : QueuedCommand Client Content)
  | process (status : Client → Status)

/-- One call. A client is created once, and only clients that were created add commands. -/
def step (s : Commands Client Content) : Input Client Content → Commands Client Content
  | .create client createOptions stored =>
      if client ∈ s.clients then s else s.create client createOptions stored
  | .add command => if command.client ∈ s.clients then (s.addCommand command).1 else s
  | .process status => s.processCommand status

end Commands

end SharedCommands

end Paho
