import Paho.Library.Run
import Paho.Packet.Types

/-!
# Connection attempts

Which server a client tries next, with which transport and which protocol version:
`MQTTClient_connectAll` and `MQTTClient_connectURI` of the synchronous client, and
`MQTTAsync_processCommand`, `MQTTAsync_checkConn` and `nextOrClose` of the asynchronous one, in
the build with `OPENSSL`. How each attempt ends is chosen by the environment.
-/

namespace Paho

/-- `MQTTVERSION_DEFAULT`: try 3.1.1, then 3.1. -/
def mqttVersionDefault : Nat := 0

namespace Connect

abbrev URI := List Char

/-- `URI_TCP`. -/
def uriTcp : URI := "tcp://".toList

/-- `URI_MQTT`. -/
def uriMqtt : URI := "mqtt://".toList

/-- `URI_WS`. -/
def uriWs : URI := "ws://".toList

/-- `URI_SSL`. -/
def uriSsl : URI := "ssl://".toList

/-- `URI_MQTTS`. -/
def uriMqtts : URI := "mqtts://".toList

/-- `URI_WSS`. -/
def uriWss : URI := "wss://".toList

/-- The fields `ssl` and `websocket` of a client. -/
@[ext]
structure Flags where
  ssl : Bool
  websocket : Bool
  deriving DecidableEq, Repr

/-- A server address without its scheme, and the flags of the client. -/
@[ext]
structure Selection where
  host : URI
  flags : Flags
  deriving DecidableEq, Repr

/--
The chain of `strncmp` tests on a `serverURI`, which sets flags of the client and never clears
one. `mqttLength` is how far the branch of `URI_MQTT` advances.
-/
def selectScheme (mqttLength : Nat) (flags : Flags) (serverURI : URI) : Selection :=
  if uriTcp.isPrefixOf serverURI then ⟨serverURI.drop uriTcp.length, flags⟩
  else if uriMqtt.isPrefixOf serverURI then ⟨serverURI.drop mqttLength, flags⟩
  else if uriWs.isPrefixOf serverURI then
    ⟨serverURI.drop uriWs.length, { flags with websocket := true }⟩
  else if uriSsl.isPrefixOf serverURI then
    ⟨serverURI.drop uriSsl.length, { flags with ssl := true }⟩
  else if uriMqtts.isPrefixOf serverURI then
    ⟨serverURI.drop uriMqtts.length, { flags with ssl := true }⟩
  else if uriWss.isPrefixOf serverURI then
    ⟨serverURI.drop uriWss.length, { ssl := true, websocket := true }⟩
  else ⟨serverURI, flags⟩

/-- What the asynchronous client and both create functions make of a `serverURI`. -/
def select (flags : Flags) (serverURI : URI) : Selection :=
  selectScheme uriMqtt.length flags serverURI

/-- What `MQTTClient_connectAll` makes of one of `serverURIs`. -/
def selectInConnectAll (flags : Flags) (serverURI : URI) : Selection :=
  selectScheme uriTcp.length flags serverURI

/-- The fields of a client that connection attempts read or write. -/
structure Client where
  serverURI : URI
  /-- The copy of the asynchronous client. -/
  serverURIs : List URI
  /-- `c->MQTTVersion`. -/
  mqttVersion : Nat
  flags : Flags
  deriving DecidableEq, Repr

/-- The client made by `MQTTClient_createWithOptions` or `MQTTAsync_createWithOptions`. -/
def createWithOptions (serverURI : URI) (mqttVersion : Nat) : Client :=
  { serverURI := (select ⟨false, false⟩ serverURI).host
    serverURIs := []
    mqttVersion := mqttVersion
    flags := (select ⟨false, false⟩ serverURI).flags }

/-- The connect options that matter for the attempts; `ssl` tells whether SSL options are given. -/
structure Options where
  serverURIs : List URI
  mqttVersion : Nat
  ssl : Bool
  deriving DecidableEq, Repr

/-- A call of `MQTTProtocol_connect`, made for the entry `currentURI` of the server URIs. -/
structure Attempt where
  currentURI : Nat
  /-- Whether there is such an entry; else the client uses the URI it was created with. -/
  listed : Bool
  serverURI : URI
  selection : Selection
  mqttVersion : Nat
  deriving DecidableEq, Repr

/-- How an attempt ends. -/
inductive Outcome where
  /-- The server accepts the connection. -/
  | connected
  /-- `MQTTProtocol_connect` fails; `proxy`: `connect_state` stays `PROXY_CONNECT_IN_PROGRESS`. -/
  | failsAtOnce (proxy : Bool)
  /-- The connection is begun, and fails before the CONNACK. -/
  | failsLater
  deriving DecidableEq, Repr

/-- The outcomes of the attempts, in the order in which these are made. -/
abbrev Pattern := Nat → Outcome

namespace Pattern

/-- The outcomes that are left after `count` attempts. -/
def after (pattern : Pattern) (count : Nat) : Pattern :=
  fun index => pattern (index + count)

@[simp]
theorem after_apply (pattern : Pattern) (count index : Nat) :
    pattern.after count index = pattern (index + count) :=
  rfl

end Pattern

/-! ## The synchronous client -/

namespace Sync

/-- What a call leaves: the client, the attempts made, and whether the last one succeeded. -/
structure Result where
  client : Client
  attempts : List Attempt
  connected : Bool
  deriving DecidableEq, Repr

/--
`MQTTClient_connectURI`; `attempt` is the attempt with a protocol version. With
`MQTTVERSION_DEFAULT`, 3.1 is tried when 3.1.1 fails.
-/
def connectURI (mqttVersion : Nat) (attempt : Nat → Attempt) (pattern : Pattern) :
    List Attempt × Bool :=
  if mqttVersion = mqttVersionDefault then
    if pattern 0 = .connected then ([attempt mqttVersion311], true)
    else
      ([attempt mqttVersion311, attempt mqttVersion31], decide (pattern 1 = .connected))
  else ([attempt mqttVersion], decide (pattern 0 = .connected))

/-- The loop of `MQTTClient_connectAll`, from the entry `currentURI` on. -/
def connectLoop (mqttVersion : Nat) (client : Client) (currentURI : Nat) :
    List URI → Pattern → Result
  | [], _ => ⟨client, [], false⟩
  | serverURI :: serverURIs, pattern =>
      let selection := selectInConnectAll client.flags serverURI
      let client := { client with flags := selection.flags }
      let tried := connectURI mqttVersion
        (fun version => ⟨currentURI, true, serverURI, selection, version⟩) pattern
      if tried.2 then ⟨client, tried.1, true⟩
      else
        let rest := connectLoop mqttVersion client (currentURI + 1) serverURIs
          (pattern.after tried.1.length)
        { rest with attempts := tried.1 ++ rest.attempts }

/-- `MQTTClient_connectAll`. A client with the flag `ssl` needs SSL options. -/
def connectAll (client : Client) (options : Options) (pattern : Pattern) : Result :=
  if client.flags.ssl && !options.ssl then ⟨client, [], false⟩
  else
    let client := { client with mqttVersion := options.mqttVersion }
    if options.serverURIs = [] then
      let tried := connectURI options.mqttVersion
        (fun version => ⟨0, false, client.serverURI, ⟨client.serverURI, client.flags⟩, version⟩)
        pattern
      ⟨client, tried.1, tried.2⟩
    else connectLoop options.mqttVersion client 0 options.serverURIs pattern

end Sync

/-! ## The asynchronous client -/

namespace Async

/-- `details.conn` of a CONNECT command. -/
structure Conn where
  currentURI : Nat
  mqttVersion : Nat
  deriving DecidableEq, Repr

/-- `connect_state` and `connected`. -/
inductive Phase where
  | notConnected
  | inProgress
  | connected
  deriving DecidableEq, Repr

structure State where
  client : Client
  /-- The CONNECT of this client in `MQTTAsync_commands`. -/
  command : Option Conn
  /-- The CONNECT command that was taken last. -/
  connect : Conn
  phase : Phase
  /-- The attempts made so far. -/
  attempts : List Attempt
  /-- The reports of the result of a connect: `onSuccess` or `onFailure`. -/
  reports : List Bool
  deriving DecidableEq, Repr

/-- `MQTTAsync_checkConn`: whether there are more connect options. -/
def checkConn (client : Client) (conn : Conn) (wasConnected : Bool) : Bool :=
  decide (conn.currentURI + 1 < client.serverURIs.length) ||
    (!wasConnected && decide (conn.mqttVersion = mqttVersion31) &&
      decide (client.mqttVersion = mqttVersionDefault))

/-- The protocol version of the next attempt, as `MQTTAsync_processCommand` steps it down. -/
def stepDown (client : Client) (conn : Conn) : Conn :=
  if client.mqttVersion = mqttVersionDefault then
    if conn.mqttVersion = mqttVersionDefault then { conn with mqttVersion := mqttVersion311 }
    else if conn.mqttVersion = mqttVersion311 then { conn with mqttVersion := mqttVersion31 }
    else conn
  else { conn with mqttVersion := client.mqttVersion }

/-- The server URI that `MQTTAsync_processCommand` uses, with the flags it leaves. -/
def selectServer (client : Client) (conn : Conn) : URI × Selection :=
  match client.serverURIs[conn.currentURI]? with
  | some serverURI => (serverURI, select client.flags serverURI)
  | none => (client.serverURI, ⟨client.serverURI, client.flags⟩)

/-- The call of `MQTTProtocol_connect` that `MQTTAsync_processCommand` makes. -/
def attemptFor (client : Client) (conn : Conn) : Attempt :=
  { currentURI := conn.currentURI
    listed := decide (conn.currentURI < client.serverURIs.length)
    serverURI := (selectServer client conn).1
    selection := (selectServer client conn).2
    mqttVersion := (stepDown client conn).mqttVersion }

/-- How `MQTTAsync_processCommand` changes a CONNECT that failed, when there is more to try. -/
def afterFailedCommand (client : Client) (conn : Conn) : Conn :=
  if client.mqttVersion = mqttVersionDefault then
    if conn.mqttVersion = mqttVersion31 then ⟨conn.currentURI + 1, mqttVersionDefault⟩ else conn
  else { conn with currentURI := conn.currentURI + 1 }

/-- How `nextOrClose` changes the CONNECT, when there is more to try. -/
def afterLostConnection (client : Client) (conn : Conn) (wasConnected : Bool) : Conn :=
  if client.mqttVersion = mqttVersionDefault then
    if !wasConnected || conn.mqttVersion = mqttVersion31 then
      ⟨conn.currentURI + 1, mqttVersionDefault⟩
    else conn
  else { conn with currentURI := conn.currentURI + 1 }

/-- `MQTTAsync_connecting`: the address used when the TCP connection is there, if it is in range. -/
def connectingServer (state : State) : Option URI :=
  if state.client.serverURIs = [] then some state.client.serverURI
  else (state.client.serverURIs[state.connect.currentURI]?).map fun serverURI =>
    (select state.client.flags serverURI).host

/-- `MQTTAsync_addCommand` for a CONNECT: a second one of the client is ignored. -/
def addCommand (state : State) (conn : Conn) : State :=
  { state with command := some (state.command.getD conn) }

/-- `MQTTAsync_connect`, called with valid options. -/
def connect (state : State) (options : Options) : State :=
  if state.client.flags.ssl && !options.ssl then state
  else
    addCommand
      { state with
        client := { state.client with
          serverURIs := options.serverURIs, mqttVersion := options.mqttVersion } }
      ⟨0, mqttVersionDefault⟩

/-- `MQTTAsync_reconnect`, and the timer of the automatic reconnect. -/
def reconnect (state : State) : State :=
  addCommand state
    (if state.client.mqttVersion = mqttVersionDefault then
      { state.connect with mqttVersion := mqttVersionDefault }
    else state.connect)

/-- `MQTTAsync_processCommand` when `MQTTProtocol_connect` failed. -/
def commandFailed (state : State) (conn : Conn) (proxy : Bool) : State :=
  let state := { state with phase := if proxy then .inProgress else .notConnected }
  if checkConn state.client conn false then
    addCommand state (afterFailedCommand state.client conn)
  else { state with connect := conn, reports := state.reports ++ [false] }

/--
`MQTTAsync_processCommand` for a CONNECT; `result` is what `MQTTProtocol_connect` makes of the
attempt, if one is made: `none` for a connection in progress.
-/
def processCommand (state : State) (result : Option Bool) : State :=
  match state.command with
  | none => state
  | some conn =>
      let state := { state with command := none }
      if state.phase = .notConnected then
        let state' := { state with
          client := { state.client with flags := (selectServer state.client conn).2.flags }
          attempts := state.attempts ++ [attemptFor state.client conn] }
        let conn := stepDown state.client conn
        match result with
        | none => { state' with connect := conn, phase := .inProgress }
        | some proxy => commandFailed state' conn proxy
      else { state with connect := conn }

/-- `nextOrClose`. -/
def nextOrClose (state : State) : State :=
  let wasConnected := decide (state.phase = .connected)
  let closed := { state with phase := .notConnected }
  if checkConn state.client state.connect wasConnected && state.command.isNone then
    addCommand closed (afterLostConnection state.client state.connect wasConnected)
  else { closed with reports := state.reports ++ [false] }

/-- What happens to the client. -/
inductive Input where
  | connect (options : Options)
  | reconnect
  /-- The send thread takes the CONNECT of the client. -/
  | processCommand (result : Option Bool)
  /-- The CONNACK of the server accepts the connection. -/
  | accepted
  /-- The connection, or the attempt in progress, fails or times out. -/
  | lost
  /-- A DISCONNECT of the application closes the session. -/
  | disconnected
  deriving DecidableEq, Repr

def step (state : State) : Input → State
  | .connect options => connect state options
  | .reconnect => reconnect state
  | .processCommand result => processCommand state result
  | .accepted =>
      if state.phase = .inProgress then
        { state with phase := .connected, reports := state.reports ++ [true] }
      else state
  | .lost => if state.phase = .notConnected then state else nextOrClose state
  | .disconnected => { state with phase := .notConnected }

/-- What happens to the client while an attempt ends with an outcome. -/
def inputs : Outcome → List Input
  | .connected => [.processCommand none, .accepted]
  -- a CONNECT that is put back is taken once more, and the state is left when the time is over
  | .failsAtOnce true => [.processCommand (some true), .processCommand none, .lost]
  | .failsAtOnce false => [.processCommand (some false)]
  | .failsLater => [.processCommand none, .lost]

/-- The attempts for the CONNECT in the list, `count` at most, until no CONNECT is put back. -/
def attemptAll : Nat → State → Pattern → State
  | 0, state, _ => state
  | count + 1, state, pattern =>
      if state.command.isSome then
        attemptAll count (Machine.run step state (inputs (pattern 0))) (pattern.after 1)
      else state

/-- A client that is not connected and has no CONNECT in the list. -/
def idle (client : Client) (connect : Conn) : State :=
  { client := client, command := none, connect := connect, phase := .notConnected
    attempts := [], reports := [] }

end Async

end Connect

end Paho
