import Paho.Protocol.Session

/-!
# A store that fails

The session with a store whose `put` may fail, and with a `beforeWrite` callback that may refuse a
record. What these return is assigned to the variable that the result of the write is assigned to
next; a put of `MQTTPacket_Factory` is reported in `*error`, which the handler of the packet
overwrites.
-/

namespace Paho

namespace FailingStore

/-- What `beforeWrite` and `put` return for a record. `put` is not called when `beforeWrite` returns
an error. -/
structure PutResult where
  beforeWrite : Int := 0
  put : Int := 0
  deriving DecidableEq, Repr

/-- What is returned for the record. -/
def PutResult.rc (result : PutResult) : Int :=
  if result.beforeWrite ≠ 0 then result.beforeWrite else result.put

/-- What the client does: it has a record put into the store, or it gives a packet to the socket. -/
inductive Entry where
  | put (stem : Stem) (msgId : Nat) (rc : Int)
  | given (type : PacketType) (qos msgId : Nat)
  deriving DecidableEq, Repr

/-- The session, the results of the next puts (when none is left, they succeed), what has been done,
newest first, and what the last call returned. -/
structure Client where
  c : Clients
  puts : List PutResult
  log : List Entry
  rc : Int
  deriving DecidableEq

/-- The completion codes as the source has them. -/
def code : CompletionCode → Int
  | .complete => 0
  | .interrupted => -22
  | .socketError => -1

namespace Client

/-- The stem of the key in `MQTTPersistence_putPacket`. -/
def stem (htype : PacketType) (scr : Nat) : Stem :=
  if scr = 0 then if htype = .pubrel then .pubrel else .publishSent else .publishReceived

/-- `MQTTPersistence_putPacket`. -/
def putPacket (s : Client) (record : Record) (htype : PacketType) (msgId scr mqttVersion : Nat) :
    Int × Client :=
  match s.c.persistence with
  | none => (0, s)
  | some _ =>
      let rc := (s.puts.headD {}).rc
      (rc,
        { s with
          c :=
            if rc = 0 then MQTTPersistence.putPacket s.c record htype msgId scr mqttVersion else s.c
          puts := s.puts.tail
          log := .put (stem htype scr) msgId rc :: s.log })

/-- `WebSocket_putdatas` for a packet. -/
def putdatas (s : Client) (type : PacketType) (qos msgId : Nat) (event : CompletionCode → Event) :
    CompletionCode × Client :=
  let (rc, c) := MQTTPacket.write s.c event
  (rc, { s with c := c, log := .given type qos msgId :: s.log })

/-- `MQTTPacket_send_ack`, with `MQTTPacket_send`. -/
def send_ack (s : Client) (mqttVersion : Nat) (type : PacketType) (msgid : Nat) :
    CompletionCode × Client :=
  -- `rc` is assigned twice
  let s := if type = .pubrel then (putPacket s (.pubrel msgid) type msgid 0 mqttVersion).2 else s
  putdatas s type 0 msgid (.sentAck type msgid)

/-- `MQTTPacket_send_publish`, with `MQTTPacket_sends`. -/
def send_publish (s : Client) (publish : Publish) (dup : Bool) (qos : Nat) (retained : Bool) :
    CompletionCode × Client :=
  -- `rc` is assigned twice
  let s :=
    if qos = 0 then s
    else
      (putPacket s (.publish { publish with dup := dup, qos := qos, retain := retained }) .publish
        publish.msgId 0 publish.mqttVersion).2
  putdatas s .publish qos publish.msgId (.sentPublish publish.msgId dup)

/-- `MQTTProtocol_queueAck`. -/
def queueAck (s : Client) (ackType : PacketType) (msgId : Nat) : CompletionCode × Client :=
  (.complete, { s with c := (MQTTProtocol.queueAck s.c ackType msgId).2 })

/-- Send an acknowledgement, or queue it while the socket has a pending write. -/
def acknowledge (s : Client) (mqttVersion : Nat) (ackType : PacketType) (msgId : Nat) :
    CompletionCode × Client :=
  if Socket.noPendingWrites s.c.net then send_ack s mqttVersion ackType msgId
  else queueAck s ackType msgId

/-- The loop of `MQTTProtocol_writeAvailable`. -/
def sendQueuedAcks (s : Client) : List AckRequest → Client
  | [] => s
  | ackReq :: rest =>
      match send_ack s s.c.mqttVersion ackReq.ackType ackReq.messageId with
      | (.complete, s) => sendQueuedAcks s rest
      | (_, s) => s

/-- `MQTTProtocol_writeAvailable`. -/
def writeAvailable (s : Client) : Client :=
  let s := sendQueuedAcks s s.c.outboundQueue
  { s with c := { s.c with outboundQueue := [] } }

/-- `MQTTProtocol_startPublish`. -/
def startPublish (s : Client) (publish : Publish) (qos : Nat) (retained : Bool) :
    CompletionCode × Client :=
  if 0 < qos then
    let m := MQTTProtocol.createMessage publish qos retained s.c.clock
    let s :=
      { s with
        c :=
          { s.c with
            outboundMsgs := s.c.outboundMsgs ++ [m]
            trace := .started m.msgid qos :: s.c.trace } }
    send_publish s { publish with properties := m.properties } false qos retained
  else send_publish s publish false qos retained

/-- Publish a message. The result of `MQTTProtocol_startPublish` is what
`MQTTAsync_processCommand` tests for `MQTTASYNC_PERSISTENCE_ERROR`. -/
def publish (s : Client) (message : Session.Message) : Client :=
  if 2 < message.qos then s
  else if message.qos = 0 then
    let (rc, s) :=
      startPublish s (Session.publishPacket s.c.mqttVersion message false 0) 0 message.retained
    { s with rc := code rc }
  else
    match MQTTProtocol.assignMsgId s.c with
    | none => s
    | some (msgId, c) =>
        if msgId = 0 then { s with c := c }
        else
          let (rc, s) :=
            startPublish { s with c := c } (Session.publishPacket c.mqttVersion message false msgId)
              message.qos message.retained
          { s with rc := code rc }

/-- What `MQTTPacket_Factory` does with a PUBLISH after parsing it: `*error` and the client. -/
def persistReceived (s : Client) (publish : Publish) : Int × Client :=
  if publish.qos = 2 then
    putPacket s (.publish publish) .publish publish.msgId 1 publish.mqttVersion
  else (0, s)

/-- `MQTTProtocol_handlePublishes`. -/
def handlePublishes (s : Client) (publish : Publish) : CompletionCode × Client :=
  let s := { s with c := s.c.log (.receivedPublish publish) }
  match publish.qos with
  | 0 => (.complete, { s with c := MQTTProtocol.processPublication s.c publish })
  | 1 =>
      acknowledge { s with c := MQTTProtocol.processPublication s.c publish } publish.mqttVersion
        .puback publish.msgId
  | 2 =>
      let m := MQTTProtocol.receivedMessage publish
      let alreadyReceived := (findMessage s.c.inboundMsgs m.msgid).isSome
      let c :=
        if mqttVersion5 ≤ m.mqttVersion ∧ alreadyReceived = false then
          MQTTProtocol.processPublication
            (MQTTProtocol.storeInbound s.c { m with publish := none })
              (MQTTProtocol.publicationOf m)
        else MQTTProtocol.storeInbound s.c m
      acknowledge { s with c := c } publish.mqttVersion .pubrec publish.msgId
  | _ => (.complete, s)

/-- `MQTTProtocol_handlePubrecs`. -/
def handlePubrecs (s : Client) (msgId rc : Nat) : CompletionCode × Client :=
  let s := { s with c := s.c.log (.received .pubrec msgId) }
  match findMessage s.c.outboundMsgs msgId with
  | none => acknowledge s s.c.mqttVersion .pubrel msgId
  | some m =>
      if m.qos ≠ 2 then acknowledge s s.c.mqttVersion .pubrel msgId
      else if m.nextMessageType ≠ some .pubrec then acknowledge s s.c.mqttVersion .pubrel msgId
      else if mqttVersion5 ≤ s.c.mqttVersion ∧ reasonCodeUnspecifiedError ≤ rc then
        let c := MQTTPersistence.remove s.c .publishSent msgId
        (.complete,
          { s with c := { c with outboundMsgs := removeMessage c.outboundMsgs msgId } })
      else
        let c :=
          { s.c with
            outboundMsgs := updateMessage s.c.outboundMsgs msgId fun m =>
              { m with nextMessageType := some .pubcomp, lastTouch := s.c.clock } }
        acknowledge { s with c := c } c.mqttVersion .pubrel msgId

/-- `MQTTProtocol_handlePubrels`. -/
def handlePubrels (s : Client) (msgId : Nat) : CompletionCode × Client :=
  let s := { s with c := s.c.log (.received .pubrel msgId) }
  match findMessage s.c.inboundMsgs msgId with
  | none => acknowledge s s.c.mqttVersion .pubcomp msgId
  | some m =>
      if m.qos ≠ 2 then acknowledge s s.c.mqttVersion .pubcomp msgId
      else if m.nextMessageType ≠ some .pubrel then acknowledge s s.c.mqttVersion .pubcomp msgId
      else
        acknowledge { s with c := MQTTProtocol.releaseInbound s.c m msgId } s.c.mqttVersion .pubcomp
          msgId

/-- `MQTTAsync_cycle` with a packet of an exchange: `*rc` is `*error` of `MQTTPacket_Factory` first
and then what the handler returns. -/
def receive (s : Client) : Session.Packet → Client
  | .publish dup message msgId =>
      let publish := Session.publishPacket s.c.mqttVersion message dup msgId
      let (error, s) := persistReceived s publish
      let s := { s with rc := error }
      let (rc, s) := handlePublishes s publish
      { s with rc := code rc }
  | .puback msgId =>
      let (rc, c) := MQTTProtocol.handlePubacks s.c msgId
      { s with c := c, rc := code rc }
  | .pubrec msgId reason =>
      let (rc, s) := handlePubrecs s msgId reason
      { s with rc := code rc }
  | .pubrel msgId =>
      let (rc, s) := handlePubrels s msgId
      { s with rc := code rc }
  | .pubcomp msgId =>
      let (rc, c) := MQTTProtocol.handlePubcomps s.c msgId
      { s with c := c, rc := code rc }

/-- Close the session after a packet was not written. -/
def giveUp (s : Client) : Client :=
  { s with c := MQTTProtocol.closeSession { s.c with good := false } }

/-- The body of the loop of `MQTTProtocol_retries` for a message that is due. -/
def retryMessage (s : Client) (m : Messages) : Bool × Client :=
  if m.qos = 1 ∨ (m.qos = 2 ∧ m.nextMessageType = some .pubrec) then
    match send_publish s (MQTTProtocol.retryPublish m) true m.qos m.retain with
    | (.socketError, s) => (false, giveUp s)
    | (_, s) => (true, { s with c := MQTTProtocol.touch s.c .publish m.msgid })
  else if m.qos ≠ 0 ∧ m.nextMessageType = some .pubcomp then
    match send_ack s m.mqttVersion .pubrel m.msgid with
    | (.complete, s) => (true, { s with c := MQTTProtocol.touch s.c .pubrel m.msgid })
    | (_, s) => (false, giveUp s)
  else (true, s)

/-- The loop of `MQTTProtocol_retries`. -/
def retryLoop (now : Nat) (regardless : Bool) (s : Client) : List Messages → Client
  | [] => s
  | m :: rest =>
      if s.c.connected && s.c.good && Socket.noPendingWrites s.c.net then
        if regardless || decide ((now : Int) - m.lastTouch > max s.c.retryInterval 10 * 1000) then
          match retryMessage { s with c := MQTTProtocol.countSent s.c regardless } m with
          | (true, s) => retryLoop now regardless s rest
          | (false, s) => s
        else retryLoop now regardless s rest
      else s

/-- `MQTTProtocol_retries`. -/
def retries (now : Nat) (s : Client) (regardless : Bool) : Client :=
  if !regardless && decide (s.c.retryInterval ≤ 0) && s.c.connectSent == s.c.connectCount then s
  else if regardless then
    let s := { s with c := { s.c with connectCount := s.c.outboundMsgs.length } }
    retryLoop now true s s.c.outboundMsgs
  else retryLoop now (decide (s.c.connectSent < s.c.connectCount)) s s.c.outboundMsgs

/-- `MQTTProtocol_retry`, for one client. -/
def retry (now : Nat) (doRetry regardless : Bool) (s : Client) : Client :=
  if !s.c.connected then s
  else if !s.c.good then { s with c := MQTTProtocol.closeSession s.c }
  else if !Socket.noPendingWrites s.c.net then s
  else if doRetry then retries now s regardless
  else s

/-- `MQTTAsync_completeConnection` with a successful CONNACK. -/
def completeConnection (s : Client) (sessionPresent : Bool) : Client :=
  let c := { s.c with connected := true, good := true, trace := .connected :: s.c.trace }
  let c :=
    if c.cleansession || c.cleanstart then MQTTAsync.cleanSession c
    else if decide (mqttVersion311 ≤ c.mqttVersion) && !sessionPresent then MQTTAsync.cleanSession c
    else c
  if 0 < c.outboundMsgs.length then
    let c := { c with outboundMsgs := c.outboundMsgs.map fun m => { m with lastTouch := 0 } }
    retry 0 true true { s with c := c }
  else { s with c := c }

/-- The effect of an action. -/
def act (s : Client) : Session.Action → Client
  | .publish message => if s.c.connected then publish s message else s
  | .receive packet => if s.c.connected then receive s packet else s
  | .retry doRetry => retry s.c.clock doRetry false s
  | .continueWrite succeeded =>
      if s.c.net.pendingWrites then
        let s := { s with c := { s.c with net := { s.c.net with pendingWrites := false } } }
        if succeeded then writeAvailable s else s
      else s
  | .connectionLost => { s with c := Session.act s.c .connectionLost }
  | .connect sessionPresent => if s.c.connected then s else completeConnection s sessionPresent
  | .restart keys => { s with c := Session.restart s.c keys }

end Client

/-- An input of the session, and what the store answers while it is carried out. -/
structure Input where
  input : Session.Input
  puts : List PutResult := []
  deriving DecidableEq, Repr

/-- One step. Only calls that send or receive a packet return a code. -/
def step (s : Client) (input : Input) : Client :=
  Client.act { s with c := Session.provide s.c input.input, puts := input.puts, rc := 0 }
    input.input.action

/-- A client with a store, before anything has been done. -/
def start (c : Clients) : Client where
  c := c
  puts := []
  log := []
  rc := 0

/-! ## Writing ahead -/

/-- The stem of the record that a packet needs. A PUBREC acknowledges a PUBLISH of QoS 2. -/
def needs (type : PacketType) (qos : Nat) : Option Stem :=
  match type with
  | .publish => if qos = 0 then none else some .publishSent
  | .pubrel => some .pubrel
  | .pubrec => some .publishReceived
  | _ => none

/-- What the last put of a record has returned. -/
def lastPut (stem : Stem) (msgId : Nat) : List Entry → Option Int
  | [] => none
  | .put other id rc :: log => if other = stem ∧ id = msgId then some rc else lastPut stem msgId log
  | .given _ _ _ :: log => lastPut stem msgId log

/-- Every packet that needs a record was given to the socket after a put of it that succeeded. -/
def WrittenAhead : List Entry → Prop
  | [] => True
  | .put _ _ _ :: log => WrittenAhead log
  | .given type qos msgId :: log =>
      (∀ stem ∈ needs type qos, lastPut stem msgId log = some 0) ∧ WrittenAhead log

/-- The messages whose records have this stem. -/
def messages (c : Clients) : Stem → List Messages
  | .publishReceived => c.inboundMsgs
  | _ => c.outboundMsgs

/-- The store has a record of this stem and id. -/
def Recorded (c : Clients) (stem : Stem) (msgId : Nat) : Prop :=
  ∃ v5, (c.record ⟨stem, v5, msgId⟩).isSome = true

/-- What a call owes to the store: packets are given to the socket behind their records, and a put
that fails is returned and leaves no message without its record. -/
structure Honours (s s' : Client) : Prop where
  ahead : WrittenAhead s'.log
  reported : ∀ new stem msgId rc, s'.log = new ++ s.log → .put stem msgId rc ∈ new → rc ≠ 0 →
    s'.rc = rc
  recorded : ∀ new stem msgId rc, s'.log = new ++ s.log → .put stem msgId rc ∈ new → rc ≠ 0 →
    msgId ∈ ids (messages s'.c stem) → Recorded s'.c stem msgId

/-- All puts that were made have succeeded. -/
def Succeeded (log : List Entry) : Prop :=
  ∀ stem msgId rc, .put stem msgId rc ∈ log → rc = 0

section Logs

variable {log log' log'' : List Entry} {stem : Stem} {msgId : Nat}

/-- A PUBLISH of this id was to be put into the store. -/
def Filed (log : List Entry) (msgId : Nat) : Prop :=
  ∃ rc, .put .publishReceived msgId rc ∈ log

/-- How the log grows, except when a PUBLISH is received: a packet of the sender is given to the
socket right behind the put of its record, whatever that has returned. -/
inductive Grows (log : List Entry) : List Entry → Prop
  | refl : Grows log log
  | sent {log' : List Entry} {type : PacketType} {qos msgId : Nat} {stem : Stem} (rc : Int)
      (grows : Grows log log') (isRecord : needs type qos = some stem) :
      Grows log (.given type qos msgId :: .put stem msgId rc :: log')
  | plain {log' : List Entry} {type : PacketType} {qos msgId : Nat} (grows : Grows log log')
      (noRecord : needs type qos = none) : Grows log (.given type qos msgId :: log')
  | pubrec {log' : List Entry} {qos msgId : Nat} (grows : Grows log log')
      (filed : Filed log' msgId) : Grows log (.given .pubrec qos msgId :: log')

namespace Grows

theorem trans (first : Grows log log') (second : Grows log' log'') : Grows log log'' := by
  induction second with
  | refl => exact first
  | sent rc _ isRecord ih => exact .sent rc ih isRecord
  | plain _ noRecord ih => exact .plain ih noRecord
  | pubrec _ filed ih => exact .pubrec ih filed

theorem suffix (grows : Grows log log') : log <:+ log' := by
  induction grows with
  | refl => exact List.suffix_rfl
  | sent rc _ _ ih =>
      exact (ih.trans (List.suffix_cons ..)).trans (List.suffix_cons ..)
  | plain _ _ ih => exact ih.trans (List.suffix_cons ..)
  | pubrec _ _ ih => exact ih.trans (List.suffix_cons ..)

/-- What is written ahead has no put that fails. -/
theorem succeeded (grows : Grows log log') (ahead : WrittenAhead log') (before : Succeeded log) :
    Succeeded log' := by
  induction grows with
  | refl => exact before
  | @sent log' type qos msgId stem rc _ isRecord ih =>
      have isZero : lastPut stem msgId (.put stem msgId rc :: log') = some 0 :=
        ahead.1 stem isRecord
      rw [lastPut, if_pos ⟨rfl, rfl⟩] at isZero
      injection isZero with isZero
      intro other id code mem
      rcases List.mem_cons.mp mem with impossible | mem
      · cases impossible
      · rcases List.mem_cons.mp mem with same | mem
        · cases same
          exact isZero
        · exact ih ahead.2 other id code mem
  | plain _ _ ih =>
      intro other id code mem
      exact ih ahead.2 other id code ((List.mem_cons.mp mem).resolve_left (by simp))
  | pubrec _ _ ih =>
      intro other id code mem
      exact ih ahead.2 other id code ((List.mem_cons.mp mem).resolve_left (by simp))

end Grows

/-- The last put of a record is one of its puts. -/
theorem lastPut_of_succeeded (succeeded : Succeeded log) {rc : Int}
    (mem : .put stem msgId rc ∈ log) : lastPut stem msgId log = some 0 := by
  induction log with
  | nil => cases mem
  | cons entry log ih =>
      have rest : Succeeded log := fun stem id rc mem =>
        succeeded stem id rc (List.mem_cons_of_mem _ mem)
      cases entry with
      | put other id code =>
          rw [lastPut]
          split
          next same => rw [succeeded other id code List.mem_cons_self]
          next different =>
            rcases List.mem_cons.mp mem with same | mem
            · cases same
              exact absurd ⟨rfl, rfl⟩ different
            · exact ih rest mem
      | given type qos id =>
          rw [lastPut]
          exact ih rest ((List.mem_cons.mp mem).resolve_left (by simp))

/-- As long as no put fails, the log is written ahead. -/
theorem Grows.writtenAhead (grows : Grows log log') (succeeded : Succeeded log')
    (before : WrittenAhead log) : WrittenAhead log' := by
  induction grows with
  | refl => exact before
  | @sent log' type qos msgId stem rc _ isRecord ih =>
      have rest : Succeeded log' := fun stem id rc mem =>
        succeeded stem id rc (List.mem_cons_of_mem _ (List.mem_cons_of_mem _ mem))
      have isZero := succeeded stem msgId rc (List.mem_cons_of_mem _ List.mem_cons_self)
      refine ⟨?_, ih rest⟩
      intro other isOther
      rw [isRecord] at isOther
      cases isOther
      rw [lastPut, if_pos ⟨rfl, rfl⟩, isZero]
  | plain _ noRecord ih =>
      refine ⟨?_, ih fun stem id rc mem => succeeded stem id rc (List.mem_cons_of_mem _ mem)⟩
      intro other isOther
      rw [noRecord] at isOther
      cases isOther
  | @pubrec log' qos msgId _ filed ih =>
      have rest : Succeeded log' := fun stem id rc mem =>
        succeeded stem id rc (List.mem_cons_of_mem _ mem)
      refine ⟨?_, ih rest⟩
      intro other isOther
      cases isOther
      rcases filed with ⟨rc, mem⟩
      exact lastPut_of_succeeded rest mem

end Logs

end FailingStore

end Paho
