import Paho.Library.Run

/-!
# Establishing a connection

`MQTTProtocol_connect` and `MQTTAsync_connecting` build up a connection in layers: TCP, a proxy,
TLS, a WebSocket, and MQTT. The results of the functions for the layers are chosen by the
environment, and each call of one is logged for the socket it is made on.
-/

namespace Paho

namespace Establishing

/-- `SOCKET_ERROR`. -/
def socketError : Int := -1

/-- `TCPSOCKET_INTERRUPTED`. -/
def tcpSocketInterrupted : Int := -22

/-- `SSL_FATAL`. -/
def sslFatal : Int := -3

/-- `EINPROGRESS` or `EWOULDBLOCK`. -/
def inProgress (rc : Int) : Bool :=
  rc = 115 || rc = 11

/-- `connect_state`. -/
inductive ConnectState where
  | notInProgress
  | tcpInProgress
  | sslInProgress
  | websocketInProgress
  | waitForConnack
  | proxyConnectInProgress
  deriving DecidableEq, Repr

/-- The layers that a connection is to have: the flags `ssl` and `websocket` of the client, and
whether `net` has an `http_proxy` and an `https_proxy`. -/
structure Layers where
  ssl : Bool
  websocket : Bool
  http_proxy : Bool
  https_proxy : Bool
  deriving DecidableEq, Repr

/-- The calls for the layers, with their results. -/
inductive Event where
  /-- `Socket_new`: 0, or an error, which `EINPROGRESS` and `EWOULDBLOCK` are. -/
  | socketNew (rc : Int)
  /-- `getsockopt` has no error for a connection that was in progress. -/
  | tcpComplete
  | proxyConnect (rc : Int)
  | setSocketForSSL (rc : Int)
  | sslConnect (rc : Int)
  | webSocketConnect (rc : Int)
  | webSocketUpgrade (rc : Int)
  | sendConnect (rc : Int)
  deriving DecidableEq, Repr

/-- What `WebSocket_connect` can end with. -/
inductive WebSocketRequest where
  | sent
  | failed
  | noMemory
  deriving DecidableEq, Repr

/-- The result of `WebSocket_connect`. -/
def WebSocketRequest.rc : WebSocketRequest → Int
  | .sent => 1
  | .failed => socketError
  | .noMemory => -99

/-- The results of the functions for the layers, where they are called. -/
structure Answers where
  /-- `MQTTProtocol_setHTTPProxy`. -/
  setHTTPProxy : Int
  socketNew : Int
  /-- `getsockopt`, and the error it gives. -/
  error : Int
  proxyConnect : Int
  setSocketForSSL : Int
  sslConnect : Int
  webSocketConnect : WebSocketRequest
  webSocketUpgrade : Int
  sendConnect : Int
  deriving DecidableEq, Repr

/-- What a function returns, with the state it leaves and the calls that it has made. -/
structure Progress where
  rc : Int
  connect_state : ConnectState
  calls : List Event
  deriving DecidableEq, Repr

/-- Make a call. -/
def Progress.call (p : Progress) (event : Event) (rc : Int) : Progress :=
  { p with rc := rc, calls := p.calls ++ [event] }

variable (layers : Layers) (answers : Answers)

/-- The proxy and TLS, when `MQTTProtocol_connect` has a TCP connection. -/
def protocolSecure (p : Progress) : Progress :=
  if layers.ssl then
    let p :=
      if layers.https_proxy then
        { p with connect_state := .proxyConnectInProgress }.call
          (.proxyConnect answers.proxyConnect) answers.proxyConnect
      else p
    if p.rc ≠ 0 then { p with rc := socketError }
    else
      let p := p.call (.setSocketForSSL answers.setSocketForSSL) 0
      if answers.setSocketForSSL ≠ 1 then { p with rc := socketError }
      else
        let p := p.call (.sslConnect answers.sslConnect) answers.sslConnect
        if p.rc = tcpSocketInterrupted then { p with connect_state := .sslInProgress } else p
  else if layers.http_proxy then
    { p with connect_state := .proxyConnectInProgress }.call
      (.proxyConnect answers.proxyConnect) answers.proxyConnect
  else p

/-- `MQTTProtocol_connect`, for a client whose `connect_state` is `NOT_IN_PROGRESS`. -/
def protocolConnect : Progress :=
  if answers.setHTTPProxy ≠ 0 then ⟨answers.setHTTPProxy, .notInProgress, []⟩
  else
    let p : Progress := ⟨answers.socketNew, .notInProgress, [.socketNew answers.socketNew]⟩
    if inProgress p.rc then { p with connect_state := .tcpInProgress }
    else if p.rc ≠ 0 then p
    else
      let p := protocolSecure layers answers p
      let p :=
        if layers.websocket then
          let p := p.call (.webSocketConnect answers.webSocketConnect.rc)
            answers.webSocketConnect.rc
          if p.rc = tcpSocketInterrupted then { p with connect_state := .websocketInProgress }
          else p
        else p
      if p.rc ≠ 0 then p
      else
        let p := p.call (.sendConnect answers.sendConnect) answers.sendConnect
        { p with connect_state := if p.rc = 0 then .waitForConnack else .notInProgress }

/-- The request for the upgrade, or the CONNECT packet. -/
def connectingNext (p : Progress) : Progress :=
  if layers.websocket then
    { p with connect_state := .websocketInProgress }.call
      (.webSocketConnect answers.webSocketConnect.rc) answers.webSocketConnect.rc
  else
    { p with connect_state := .waitForConnack }.call (.sendConnect answers.sendConnect)
      answers.sendConnect

/-- The proxy of `MQTTAsync_connecting`. -/
def connectingProxy (proxy : Bool) (p : Progress) : Progress :=
  if proxy then
    { p with connect_state := .proxyConnectInProgress }.call
      (.proxyConnect answers.proxyConnect) answers.proxyConnect
  else p

/-- `MQTTAsync_connecting` when the TCP connection was in progress. -/
def connectingTCP : Progress :=
  if answers.error ≠ 0 then ⟨answers.error, .tcpInProgress, []⟩
  else
    let p : Progress := ⟨0, .tcpInProgress, [.tcpComplete]⟩
    if layers.ssl then
      let p := connectingProxy answers layers.https_proxy p
      if layers.https_proxy && p.rc = socketError then p
      else
        let p := p.call (.setSocketForSSL answers.setSocketForSSL) answers.setSocketForSSL
        if p.rc = 0 then { p with rc := socketError }
        else
          let p := p.call (.sslConnect answers.sslConnect) answers.sslConnect
          if p.rc = tcpSocketInterrupted then { p with rc := 0, connect_state := .sslInProgress }
          else if p.rc = sslFatal then { p with rc := socketError }
          else if p.rc = 1 then
            let p := connectingNext layers answers p
            if layers.websocket || p.rc = socketError then p else { p with rc := 0 }
          else p
    else
      let p := connectingProxy answers layers.http_proxy p
      if layers.http_proxy && p.rc = socketError then p else connectingNext layers answers p

/-- `MQTTAsync_connecting` up to its `exit`. -/
def connecting : ConnectState → Progress
  | .tcpInProgress => connectingTCP layers answers
  | .sslInProgress =>
      let p : Progress :=
        ⟨answers.sslConnect, .sslInProgress, [.sslConnect answers.sslConnect]⟩
      if p.rc ≠ 1 then p else connectingNext layers answers p
  | .websocketInProgress =>
      let p : Progress :=
        ⟨answers.webSocketUpgrade, .websocketInProgress,
          [.webSocketUpgrade answers.webSocketUpgrade]⟩
      if p.rc = socketError ∨ p.rc = tcpSocketInterrupted then p
      else
        { p with connect_state := .waitForConnack }.call (.sendConnect answers.sendConnect)
          answers.sendConnect
  | connect_state => ⟨socketError, connect_state, []⟩

/-- Whether `MQTTAsync_connecting` calls `nextOrClose`. -/
def givesUp (p : Progress) : Bool :=
  p.rc ≠ 0 && p.rc ≠ tcpSocketInterrupted && p.connect_state ≠ .sslInProgress &&
    p.connect_state ≠ .websocketInProgress || p.rc = sslFatal

/-- The fields of a client that a connection changes, and the calls that were made for its socket.
-/
structure Client where
  connect_state : ConnectState
  connected : Bool
  layers : Layers
  calls : List Event
  deriving DecidableEq, Repr

/-- What happens to a client. -/
inductive Input where
  /-- `MQTTAsync_processCommand` for a CONNECT, with these flags of the client. -/
  | processCommand (layers : Layers) (answers : Answers)
  /-- `MQTTAsync_cycle` when the socket is ready. -/
  | cycle (answers : Answers)
  /-- `MQTTAsync_completeConnection`, and what is done about its result. -/
  | connack (rc : Int)
  /-- `MQTTAsync_closeOnly`, for a timeout, a lost connection or a disconnect. -/
  | close
  deriving DecidableEq, Repr

namespace Client

/-- A client without a connection. -/
def create (layers : Layers) : Client :=
  ⟨.notInProgress, false, layers, []⟩

/-- `MQTTAsync_closeOnly`. -/
def closeOnly (c : Client) : Client :=
  { c with connect_state := .notInProgress, connected := false, calls := [] }

/-- What an input does to a client. -/
def step (c : Client) : Input → Client
  | .processCommand layers answers =>
      if c.connect_state ≠ .notInProgress ∨ c.connected then c
      else
        let p := protocolConnect layers answers
        { c with connect_state := p.connect_state, layers := layers, calls := p.calls }
  | .cycle answers =>
      if c.connect_state = .tcpInProgress ∨ c.connect_state = .sslInProgress ∨
          c.connect_state = .websocketInProgress then
        let p := connecting c.layers answers c.connect_state
        if givesUp p then c.closeOnly
        else { c with connect_state := p.connect_state, calls := c.calls ++ p.calls }
      else c
  | .connack rc =>
      if c.connect_state = .waitForConnack then
        if rc = 0 then { c with connect_state := .notInProgress, connected := true }
        else c.closeOnly
      else c
  | .close => c.closeOnly

end Client

/-! ## The layers are complete before CONNECT -/

/-- No CONNECT is sent. -/
def NoConnect (calls : List Event) : Prop :=
  ∀ rc, .sendConnect rc ∉ calls

/-- The TCP connection is there, and that through the proxy. -/
structure Opened (layers : Layers) (calls : List Event) : Prop where
  tcp : .socketNew 0 ∈ calls ∨ .tcpComplete ∈ calls
  proxy : (if layers.ssl then layers.https_proxy else layers.http_proxy) = true →
    ∃ rc, rc ≠ socketError ∧ .proxyConnect rc ∈ calls

/-- The last call was for TLS, and it was successful; or TLS is not wanted. -/
def Secured (layers : Layers) (calls : List Event) : Prop :=
  layers.ssl = true → ∃ before, calls = before ++ [.sslConnect 1]

/-- A request for the upgrade was made over what is to be below it, and has not been answered. -/
def Requested (layers : Layers) (calls : List Event) : Prop :=
  ∃ before request waits, calls = before ++ .webSocketConnect request :: waits ∧
    Secured layers before ∧
    ∀ call ∈ waits, call = .webSocketUpgrade socketError ∨
      call = .webSocketUpgrade tcpSocketInterrupted

/-- All layers for MQTT are there. When `Socket_new` had connected at once, a result 0 of
`SSLSocket_connect` is taken for a success. -/
structure Complete (layers : Layers) (calls : List Event) : Prop where
  opened : Opened layers calls
  secured : layers.websocket = false → Secured layers calls ∨
    .socketNew 0 ∈ calls ∧ ∃ before, calls = before ++ [.sslConnect 0]
  upgraded : layers.websocket = true → ∃ before rc, calls = before ++ [.webSocketUpgrade rc] ∧
    rc ≠ socketError ∧ rc ≠ tcpSocketInterrupted ∧ Requested layers before

/-- CONNECT is the last call, when the layers are complete, or it is not sent. -/
def Safe (layers : Layers) (calls : List Event) : Prop :=
  NoConnect calls ∨
    ∃ before rc, calls = before ++ [.sendConnect rc] ∧ NoConnect before ∧ Complete layers before

/-- What is the case in a state. -/
def Reached (layers : Layers) (calls : List Event) : ConnectState → Prop
  | .notInProgress => Safe layers calls
  | .tcpInProgress => NoConnect calls
  | .proxyConnectInProgress => NoConnect calls
  | .sslInProgress => NoConnect calls ∧ Opened layers calls ∧ layers.ssl = true
  | .websocketInProgress =>
      NoConnect calls ∧ Opened layers calls ∧ Requested layers calls ∧ layers.websocket = true
  | .waitForConnack => ∃ before rc, calls = before ++ [.sendConnect rc] ∧ NoConnect before ∧
      Complete layers before

section Steps

variable {layers : Layers} {answers : Answers} {calls more : List Event}

theorem NoConnect.append (none : NoConnect calls) (none' : NoConnect more) :
    NoConnect (calls ++ more) := by
  intro rc mem
  rcases List.mem_append.mp mem with mem | mem
  · exact none rc mem
  · exact none' rc mem

theorem Opened.append (opened : Opened layers calls) (more : List Event) :
    Opened layers (calls ++ more) where
  tcp := opened.tcp.imp (List.mem_append_left _) (List.mem_append_left _)
  proxy wanted := by
    rcases opened.proxy wanted with ⟨rc, good, mem⟩
    exact ⟨rc, good, List.mem_append_left _ mem⟩

theorem Reached.safe {connect_state : ConnectState} (reached : Reached layers calls connect_state) :
    Safe layers calls := by
  cases connect_state with
  | notInProgress => exact reached
  | tcpInProgress => exact .inl reached
  | proxyConnectInProgress => exact .inl reached
  | sslInProgress => exact .inl reached.1
  | websocketInProgress => exact .inl reached.1
  | waitForConnack => exact .inr reached

/-- The request for the upgrade or CONNECT, when what is below it is complete. -/
theorem reached_connectingNext {p : Progress} (none : NoConnect (calls ++ p.calls))
    (opened : Opened layers (calls ++ p.calls)) (secured : Secured layers (calls ++ p.calls)) :
    Reached layers (calls ++ (connectingNext layers answers p).calls)
      (connectingNext layers answers p).connect_state := by
  unfold connectingNext
  cases websocket : layers.websocket with
  | true =>
      rw [if_pos rfl]
      change Reached layers (calls ++ (p.calls ++ [_])) .websocketInProgress
      rw [← List.append_assoc]
      refine ⟨none.append (by simp [NoConnect]), opened.append _, ?_, websocket⟩
      exact ⟨calls ++ p.calls, _, [], rfl, secured, nofun⟩
  | false =>
      rw [if_neg Bool.false_ne_true]
      change Reached layers (calls ++ (p.calls ++ [_])) .waitForConnack
      rw [← List.append_assoc]
      refine ⟨calls ++ p.calls, _, rfl, none, opened, fun _ => .inl secured, fun isTrue => ?_⟩
      rw [websocket] at isTrue
      cases isTrue

/-- After the proxy of `MQTTAsync_connecting`. -/
structure Proxied (proxy : Bool) (p : Progress) : Prop where
  none : NoConnect p.calls
  tcp : .tcpComplete ∈ p.calls
  connect_state : p.connect_state = .tcpInProgress ∨ p.connect_state = .proxyConnectInProgress
  proxy : ¬(proxy && p.rc = socketError) = true → proxy = true →
    ∃ rc, rc ≠ socketError ∧ .proxyConnect rc ∈ p.calls

theorem proxied_connectingProxy (answers : Answers) (proxy : Bool) :
    Proxied proxy (connectingProxy answers proxy ⟨0, .tcpInProgress, [.tcpComplete]⟩) := by
  cases proxy with
  | false => exact ⟨by simp [connectingProxy, NoConnect], List.mem_cons_self, .inl rfl, nofun⟩
  | true =>
      refine ⟨by simp [connectingProxy, Progress.call, NoConnect], List.mem_cons_self, .inr rfl, ?_⟩
      intro good _
      refine ⟨answers.proxyConnect,
        fun isError => good ?_, by simp [connectingProxy, Progress.call]⟩
      rw [Bool.true_and]
      exact decide_eq_true isError

theorem Proxied.opened {proxy : Bool} {p : Progress} (proxied : Proxied proxy p)
    (isProxy : (if layers.ssl then layers.https_proxy else layers.http_proxy) = proxy)
    (goesOn : ¬(proxy && p.rc = socketError) = true) : Opened layers (calls ++ p.calls) := by
  refine ⟨.inr (List.mem_append_right _ proxied.tcp), fun wanted => ?_⟩
  rw [isProxy] at wanted
  rcases proxied.proxy goesOn wanted with ⟨rc, good, mem⟩
  exact ⟨rc, good, List.mem_append_right _ mem⟩

/-- A state in which no CONNECT has been sent and TLS and the WebSocket are not begun. -/
theorem reached_of_early {connect_state : ConnectState} (none : NoConnect calls)
    (early : connect_state = .tcpInProgress ∨ connect_state = .proxyConnectInProgress) :
    Reached layers calls connect_state := by
  rcases early with rfl | rfl
  · exact none
  · exact none

theorem reached_connectingTCP (none : NoConnect calls) :
    Reached layers (calls ++ (connectingTCP layers answers).calls)
      (connectingTCP layers answers).connect_state := by
  unfold connectingTCP
  by_cases failed : answers.error ≠ 0
  · rw [if_pos failed]
    exact none.append (by simp [NoConnect])
  rw [if_neg failed]
  dsimp only
  cases ssl : layers.ssl with
  | false =>
      rw [if_neg Bool.false_ne_true]
      have proxied := proxied_connectingProxy answers layers.http_proxy
      generalize connectingProxy answers layers.http_proxy ⟨0, .tcpInProgress, [.tcpComplete]⟩ = p
        at proxied
      have none' := none.append proxied.none
      by_cases ends : (layers.http_proxy && decide (p.rc = socketError)) = true
      · rw [if_pos ends]
        exact reached_of_early none' proxied.connect_state
      · rw [if_neg ends]
        refine reached_connectingNext none' (proxied.opened ?_ ends) fun isTrue => ?_
        · rw [ssl]
          rfl
        · rw [ssl] at isTrue
          cases isTrue
  | true =>
      rw [if_pos rfl]
      have proxied := proxied_connectingProxy answers layers.https_proxy
      generalize connectingProxy answers layers.https_proxy ⟨0, .tcpInProgress, [.tcpComplete]⟩ = p
        at proxied
      have none' := none.append proxied.none
      by_cases ends : (layers.https_proxy && decide (p.rc = socketError)) = true
      · rw [if_pos ends]
        exact reached_of_early none' proxied.connect_state
      rw [if_neg ends]
      have opened : Opened layers (calls ++ p.calls) := by
        apply proxied.opened _ ends
        rw [ssl]
        rfl
      let q := p.call (.setSocketForSSL answers.setSocketForSSL) answers.setSocketForSSL
      let r := q.call (.sslConnect answers.sslConnect) answers.sslConnect
      have isQ : calls ++ q.calls = calls ++ p.calls ++
          [.setSocketForSSL answers.setSocketForSSL] := (List.append_assoc ..).symm
      have isR : calls ++ r.calls = calls ++ q.calls ++ [.sslConnect answers.sslConnect] :=
        (List.append_assoc ..).symm
      have noneQ : NoConnect (calls ++ q.calls) := by
        rw [isQ]
        exact none'.append (by simp [NoConnect])
      have noneR : NoConnect (calls ++ r.calls) := by
        rw [isR]
        exact noneQ.append (by simp [NoConnect])
      have openedR : Opened layers (calls ++ r.calls) := by
        rw [isR, isQ]
        exact (opened.append _).append _
      change Reached layers
        (calls ++ Progress.calls (if q.rc = 0 then { q with rc := socketError }
          else if r.rc = tcpSocketInterrupted then _
          else if r.rc = sslFatal then { r with rc := socketError } else if r.rc = 1 then _ else r))
        (Progress.connect_state (if q.rc = 0 then { q with rc := socketError }
          else if r.rc = tcpSocketInterrupted then _
          else if r.rc = sslFatal then { r with rc := socketError } else if r.rc = 1 then _ else r))
      split_ifs with unset interrupted fatal secure ended
      · exact reached_of_early noneQ proxied.connect_state
      · exact ⟨noneR, openedR, ssl⟩
      · exact reached_of_early noneR proxied.connect_state
      · refine reached_connectingNext noneR openedR fun _ => ?_
        have isOne : answers.sslConnect = 1 := secure
        exact ⟨calls ++ q.calls, by rw [isR, isOne]⟩
      · refine reached_connectingNext noneR openedR fun _ => ?_
        have isOne : answers.sslConnect = 1 := secure
        exact ⟨calls ++ q.calls, by rw [isR, isOne]⟩
      · exact reached_of_early noneR proxied.connect_state

theorem reached_connecting {connect_state : ConnectState}
    (reached : Reached layers calls connect_state)
    (connecting' : connect_state = .tcpInProgress ∨ connect_state = .sslInProgress ∨
      connect_state = .websocketInProgress) :
    Reached layers (calls ++ (connecting layers answers connect_state).calls)
      (connecting layers answers connect_state).connect_state := by
  rcases connecting' with rfl | rfl | rfl
  · exact reached_connectingTCP reached
  · rcases reached with ⟨none, opened, ssl⟩
    change Reached layers (calls ++ Progress.calls (if answers.sslConnect ≠ 1 then _ else _))
      (Progress.connect_state (if answers.sslConnect ≠ 1 then _ else _))
    have none' : NoConnect (calls ++ [.sslConnect answers.sslConnect]) :=
      none.append (by simp [NoConnect])
    by_cases good : answers.sslConnect = 1
    · rw [if_neg (not_not.mpr good)]
      refine reached_connectingNext none' (opened.append _) fun _ => ?_
      exact ⟨calls, by rw [good]⟩
    · rw [if_pos good]
      exact ⟨none', opened.append _, ssl⟩
  · rcases reached with ⟨none, opened, requested, websocket⟩
    have none' : NoConnect (calls ++ [.webSocketUpgrade answers.webSocketUpgrade]) :=
      none.append (by simp [NoConnect])
    change Reached layers (calls ++ Progress.calls (if answers.webSocketUpgrade = socketError ∨
        answers.webSocketUpgrade = tcpSocketInterrupted then _ else _))
      (Progress.connect_state (if answers.webSocketUpgrade = socketError ∨
        answers.webSocketUpgrade = tcpSocketInterrupted then _ else _))
    by_cases waits : answers.webSocketUpgrade = socketError ∨
        answers.webSocketUpgrade = tcpSocketInterrupted
    · rw [if_pos waits]
      refine ⟨none', opened.append _, ?_, websocket⟩
      rcases requested with ⟨before, request, waited, rfl, secured, all⟩
      refine ⟨before, request, waited ++ [.webSocketUpgrade answers.webSocketUpgrade], ?_, secured,
        ?_⟩
      · simp
      · intro call mem
        rcases List.mem_append.mp mem with mem | mem
        · exact all call mem
        · rw [List.mem_singleton.mp mem]
          exact waits.imp (congrArg _) (congrArg _)
    · rw [if_neg waits]
      change Reached layers (calls ++ ([_] ++ [_])) .waitForConnack
      rw [← List.append_assoc]
      refine ⟨_, _, rfl, none', opened.append _, fun isFalse => ?_, fun _ => ?_⟩
      · rw [websocket] at isFalse
        cases isFalse
      · exact ⟨calls, _, rfl, (not_or.mp waits).1, (not_or.mp waits).2, requested⟩

/-- What `MQTTProtocol_connect` has when it comes to the WebSocket. -/
structure Prepared (layers : Layers) (p : Progress) : Prop where
  none : NoConnect p.calls
  connect_state : p.connect_state = .notInProgress ∨ p.connect_state = .proxyConnectInProgress ∨
    p.connect_state = .sslInProgress ∧ Opened layers p.calls ∧ layers.ssl = true
  good : p.rc = 0 → Opened layers p.calls ∧ (Secured layers p.calls ∨
    .socketNew 0 ∈ p.calls ∧ ∃ before, p.calls = before ++ [.sslConnect 0])

theorem Prepared.failed {p : Progress} (none : NoConnect p.calls)
    (early : p.connect_state = .notInProgress ∨ p.connect_state = .proxyConnectInProgress)
    (error : p.rc ≠ 0) : Prepared layers p :=
  ⟨none, early.imp_right .inl, fun good => absurd good error⟩

theorem prepared_protocolSecure (layers : Layers) (answers : Answers) :
    Prepared layers (protocolSecure layers answers ⟨0, .notInProgress, [.socketNew 0]⟩) := by
  unfold protocolSecure
  cases ssl : layers.ssl with
  | false =>
      rw [if_neg Bool.false_ne_true]
      have unsecured : ∀ calls, Secured layers calls := fun calls isTrue => by
        rw [ssl] at isTrue
        cases isTrue
      cases proxy : layers.http_proxy with
      | false =>
          rw [if_neg Bool.false_ne_true]
          refine ⟨by simp [NoConnect], .inl rfl, fun _ => ⟨⟨.inl List.mem_cons_self, ?_⟩,
            .inl (unsecured _)⟩⟩
          simp [ssl, proxy]
      | true =>
          rw [if_pos rfl]
          refine ⟨by simp [Progress.call, NoConnect], .inr (.inl rfl), fun good =>
            ⟨⟨.inl List.mem_cons_self, fun _ => ⟨0, by decide, ?_⟩⟩, .inl (unsecured _)⟩⟩
          have isZero : answers.proxyConnect = 0 := good
          simp [Progress.call, isZero]
  | true =>
      rw [if_pos rfl]
      dsimp only
      generalize isProxied : (if layers.https_proxy = true then _ else _) = p
      have proxied : NoConnect p.calls ∧ .socketNew 0 ∈ p.calls ∧
          (p.connect_state = .notInProgress ∨ p.connect_state = .proxyConnectInProgress) ∧
          (p.rc = 0 → layers.https_proxy = true → ∃ rc, rc ≠ socketError ∧
            .proxyConnect rc ∈ p.calls) := by
        subst isProxied
        split
        · refine ⟨by simp [Progress.call, NoConnect], List.mem_cons_self, .inr rfl,
            fun good _ => ?_⟩
          refine ⟨0, by decide, ?_⟩
          have isZero : answers.proxyConnect = 0 := good
          simp [Progress.call, isZero]
        next none => exact ⟨by simp [NoConnect], List.mem_cons_self, .inl rfl, fun _ wanted =>
            absurd wanted none⟩
      rcases proxied with ⟨none, tcp, early, proxy⟩
      let q := p.call (.setSocketForSSL answers.setSocketForSSL) 0
      let r := q.call (.sslConnect answers.sslConnect) answers.sslConnect
      have noneQ : NoConnect q.calls := none.append (by simp [NoConnect])
      have noneR : NoConnect r.calls := noneQ.append (by simp [NoConnect])
      change Prepared layers (if p.rc ≠ 0 then { p with rc := socketError }
        else if answers.setSocketForSSL ≠ 1 then { q with rc := socketError }
        else if r.rc = tcpSocketInterrupted then { r with connect_state := .sslInProgress } else r)
      split_ifs with failed unset interrupted
      · exact .failed none early (show socketError ≠ 0 by decide)
      · exact .failed noneQ early (show socketError ≠ 0 by decide)
      · have opened : Opened layers r.calls := by
          have first : Opened layers p.calls := ⟨.inl tcp, fun wanted => proxy (not_not.mp failed)
            (by simpa [ssl] using wanted)⟩
          exact (first.append _).append _
        refine ⟨noneR, .inr (.inr ⟨rfl, opened, ssl⟩), fun good => ?_⟩
        have isZero : r.rc = 0 := good
        rw [isZero] at interrupted
        cases interrupted
      · have opened : Opened layers r.calls := by
          have first : Opened layers p.calls := ⟨.inl tcp, fun wanted => proxy (not_not.mp failed)
            (by simpa [ssl] using wanted)⟩
          exact (first.append _).append _
        refine ⟨noneR, early.imp_right .inl, fun good => ⟨opened, .inr ⟨?_, q.calls, ?_⟩⟩⟩
        · exact List.mem_append_left _ (List.mem_append_left _ tcp)
        · have isZero : answers.sslConnect = 0 := good
          change q.calls ++ [.sslConnect answers.sslConnect] = _
          rw [isZero]

theorem reached_protocolConnect (layers : Layers) (answers : Answers) :
    Reached layers (protocolConnect layers answers).calls
      (protocolConnect layers answers).connect_state := by
  unfold protocolConnect
  by_cases unset : answers.setHTTPProxy ≠ 0
  · rw [if_pos unset]
    exact .inl nofun
  rw [if_neg unset]
  dsimp only
  by_cases pending : inProgress answers.socketNew = true
  · rw [if_pos pending]
    exact fun rc => by simp
  rw [if_neg pending]
  by_cases failed : answers.socketNew ≠ 0
  · rw [if_pos failed]
    exact .inl fun rc => by simp
  rw [if_neg failed, not_not.mp failed]
  have prepared := prepared_protocolSecure layers answers
  generalize protocolSecure layers answers ⟨0, .notInProgress, [.socketNew 0]⟩ = p at prepared
  cases websocket : layers.websocket with
  | true =>
      rw [if_pos rfl]
      let q := p.call (.webSocketConnect answers.webSocketConnect.rc) answers.webSocketConnect.rc
      have result : q.rc ≠ 0 ∧ q.rc ≠ tcpSocketInterrupted := by
        change answers.webSocketConnect.rc ≠ 0 ∧ answers.webSocketConnect.rc ≠ tcpSocketInterrupted
        cases answers.webSocketConnect
        · decide
        · decide
        · decide
      change Reached layers (Progress.calls (if Progress.rc (if q.rc = tcpSocketInterrupted then _
          else q) ≠ 0 then _ else _)) (Progress.connect_state (if Progress.rc
          (if q.rc = tcpSocketInterrupted then _ else q) ≠ 0 then _ else _))
      rw [if_neg result.2, if_pos result.1]
      have none : NoConnect q.calls := prepared.none.append (by simp [NoConnect])
      change Reached layers q.calls p.connect_state
      rcases prepared.connect_state with same | same | ⟨same, opened, ssl⟩
      · rw [same]
        exact .inl none
      · rw [same]
        exact none
      · rw [same]
        exact ⟨none, opened.append _, ssl⟩
  | false =>
      rw [if_neg Bool.false_ne_true]
      by_cases good : p.rc = 0
      · rw [if_neg (not_not.mpr good)]
        have complete : Complete layers p.calls := by
          refine ⟨(prepared.good good).1, fun _ => (prepared.good good).2, fun isTrue => ?_⟩
          rw [websocket] at isTrue
          cases isTrue
        have sent : ∃ before rc, p.calls ++ [.sendConnect answers.sendConnect] =
            before ++ [.sendConnect rc] ∧ NoConnect before ∧ Complete layers before :=
          ⟨p.calls, _, rfl, prepared.none, complete⟩
        change Reached layers (p.calls ++ [_]) (if answers.sendConnect = 0 then _ else _)
        split
        · exact sent
        · exact .inr sent
      · rw [if_pos good]
        rcases prepared.connect_state with same | same | ⟨same, opened, ssl⟩
        · rw [same]
          exact .inl prepared.none
        · rw [same]
          exact prepared.none
        · rw [same]
          exact ⟨prepared.none, opened, ssl⟩

theorem step_reached {c : Client} (reached : Reached c.layers c.calls c.connect_state)
    (input : Input) :
    Reached (c.step input).layers (c.step input).calls (c.step input).connect_state := by
  have closed : Reached c.closeOnly.layers c.closeOnly.calls c.closeOnly.connect_state := .inl nofun
  cases input with
  | processCommand layers answers =>
      unfold Client.step
      dsimp only
      split
      · exact reached
      · exact reached_protocolConnect layers answers
  | cycle answers =>
      unfold Client.step
      dsimp only
      split
      next isConnecting =>
        split
        · exact closed
        · exact reached_connecting reached isConnecting
      · exact reached
  | connack rc =>
      unfold Client.step
      dsimp only
      split
      next waiting =>
        split
        · rw [waiting] at reached
          exact .inr reached
        · exact closed
      · exact reached
  | close => exact closed

end Steps

end Establishing

end Paho
