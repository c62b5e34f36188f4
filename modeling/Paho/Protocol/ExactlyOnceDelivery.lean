import Paho.Protocol.FlowRuns
import Paho.Protocol.ServerRestarts

/-!
# Exactly once to the server

Every run of a client and a server that keeps to the protocol: connections break at any moment, the
client resends what is in flight, and the process may end and restore the session from its store. A
publication of QoS 2 is passed on at most once, and once it is neither in flight nor discarded it
has been passed on.
-/

namespace Paho

open Machine Relation MQTTPersistence

/-! ## The client by itself -/

/-- The client sends what is due on a connection that stays. -/
structure SendsOn (c c' : Clients) : Prop where
  connected : c'.connected = c.connected
  settings : c'.settings = c.settings
  quiets : ReflTransGen (Exchange.Quiet true) c.exchange c'.exchange

/-- The client sends what is due, after which it may close the session. -/
def Proceeds (c c' : Clients) : Prop :=
  ∃ before, SendsOn c before ∧ (c' = before ∨ c' = MQTTProtocol.closeSession before)

section ByItself

variable {c c' c'' : Clients}

theorem SendsOn.of_exchange (connected : c'.connected = c.connected)
    (settings : c'.settings = c.settings) (same : c'.exchange = c.exchange) : SendsOn c c' :=
  ⟨connected, settings, same ▸ .refl⟩

theorem SendsOn.trans (first : SendsOn c c') (second : SendsOn c' c'') : SendsOn c c'' :=
  ⟨second.connected.trans first.connected, second.settings.trans first.settings,
    first.quiets.trans second.quiets⟩

theorem SendsOn.proceeds (sendsOn : SendsOn c c') : Proceeds c c' :=
  ⟨c', sendsOn, .inl rfl⟩

theorem SendsOn.closes (sendsOn : SendsOn c c') : Proceeds c (MQTTProtocol.closeSession c') :=
  ⟨c', sendsOn, .inr rfl⟩

theorem Proceeds.after (proceeds : Proceeds c' c'') (first : SendsOn c c') : Proceeds c c'' := by
  rcases proceeds with ⟨before, sendsOn, result⟩
  exact ⟨before, first.trans sendsOn, result⟩

theorem sendsOn_refl (c : Clients) : SendsOn c c :=
  .of_exchange rfl rfl rfl

theorem sendsOn_send_ack {mqttVersion id : Nat} {type : PacketType}
    (may : ∀ rc, Exchange.Quiet true c.exchange (c.exchange.sendAck mqttVersion type id rc)) :
    SendsOn c (MQTTPacket.send_ack c mqttVersion type id).2 where
  connected := by
    rcases send_ack_result c mqttVersion type id with ⟨_, result⟩
    rw [result]
  settings := (steady_send_ack c mqttVersion type id).settings
  quiets := by
    rw [exchange_send_ack]
    exact .single (may _)

theorem sendsOn_send_publish {m : Messages} (mem : m.untouched ∈ c.exchange.outbound)
    (awaits : Exchange.AwaitsPublish m) :
    SendsOn c (MQTTPacket.send_publish c (MQTTProtocol.retryPublish m) true m.qos m.retain).2 where
  connected := by
    rcases send_publish_result c (MQTTProtocol.retryPublish m) true m.qos m.retain with ⟨_, result⟩
    rw [result]
  settings := (steady_send_publish c (MQTTProtocol.retryPublish m) true m.qos m.retain).settings
  quiets := by
    have positive : m.qos ≠ 0 := by
      rcases awaits with one | two <;> omega
    rw [exchange_send_publish c _ true m.qos m.retain positive]
    exact .single (.retryPublish rfl mem awaits _)

theorem sendsOn_touch (type : PacketType) (id : Nat) :
    SendsOn c (MQTTProtocol.touch c type id) where
  connected := rfl
  settings := rfl
  quiets := by
    rw [exchange_touch]
    exact .single (.resent _ type id)

/-- The retry of a message sends what is due for it, and the messages in flight stay. -/
theorem retryMessage_sendsOn {m : Messages} (mem : m.untouched ∈ c.exchange.outbound) :
    ∃ before, SendsOn c before ∧ before.exchange.outbound = c.exchange.outbound ∧
      (MQTTProtocol.retryMessage c m = (true, before) ∨
        MQTTProtocol.retryMessage c m = (false, MQTTProtocol.closeSession before)) := by
  unfold MQTTProtocol.retryMessage
  split
  next awaits =>
    have positive : m.qos ≠ 0 := by
      rcases awaits with one | two <;> omega
    have sends : SendsOn c
        (MQTTPacket.send_publish c (MQTTProtocol.retryPublish m) true m.qos m.retain).2 :=
      sendsOn_send_publish mem awaits
    have sent := exchange_send_publish c (MQTTProtocol.retryPublish m) true m.qos m.retain positive
    rcases result : MQTTPacket.send_publish c (MQTTProtocol.retryPublish m) true m.qos m.retain
      with ⟨rc, after⟩
    rw [result] at sends sent
    have kept : after.exchange.outbound = c.exchange.outbound := by
      rw [sent]
      rfl
    have touched : (MQTTProtocol.touch after .publish m.msgid).exchange.outbound =
        c.exchange.outbound := by
      rw [exchange_touch]
      exact kept
    cases rc with
    | complete => exact ⟨_, sends.trans (sendsOn_touch _ _), touched, .inl rfl⟩
    | interrupted => exact ⟨_, sends.trans (sendsOn_touch _ _), touched, .inl rfl⟩
    | socketError => exact ⟨_, sends.trans (.of_exchange rfl rfl rfl), kept, .inr rfl⟩
  next notPublish =>
    split
    next awaits =>
      have notOne : m.qos ≠ 1 := fun one => notPublish (.inl one)
      have sends : SendsOn c (MQTTPacket.send_ack c m.mqttVersion .pubrel m.msgid).2 :=
        sendsOn_send_ack fun rc => .retryPubrel rfl mem awaits notOne rc
      have kept : (MQTTPacket.send_ack c m.mqttVersion .pubrel m.msgid).2.exchange.outbound =
          c.exchange.outbound := by
        rw [exchange_send_ack, Exchange.sendAck_outbound]
      rcases result : MQTTPacket.send_ack c m.mqttVersion .pubrel m.msgid with ⟨rc, after⟩
      rw [result] at sends kept
      have touched : (MQTTProtocol.touch after .pubrel m.msgid).exchange.outbound =
          c.exchange.outbound := by
        rw [exchange_touch]
        exact kept
      cases rc with
      | complete => exact ⟨_, sends.trans (sendsOn_touch _ _), touched, .inl rfl⟩
      | interrupted => exact ⟨_, sends.trans (.of_exchange rfl rfl rfl), kept, .inr rfl⟩
      | socketError => exact ⟨_, sends.trans (.of_exchange rfl rfl rfl), kept, .inr rfl⟩
    next => exact ⟨c, sendsOn_refl c, rfl, .inl rfl⟩

theorem proceeds_retryLoop (now : Nat) (regardless : Bool) (remaining : List Messages)
    (inFlight : ∀ m ∈ remaining, m.untouched ∈ c.exchange.outbound) :
    Proceeds c (MQTTProtocol.retryLoop now regardless c remaining) := by
  induction remaining generalizing c with
  | nil => exact (sendsOn_refl c).proceeds
  | cons m rest ih =>
      have restInFlight : ∀ m ∈ rest, m.untouched ∈ c.exchange.outbound :=
        fun other mem => inFlight other (List.mem_cons_of_mem _ mem)
      unfold MQTTProtocol.retryLoop
      split
      · split
        · have same := exchange_countSent (c := c) regardless
          have counted : SendsOn c (MQTTProtocol.countSent c regardless) :=
            .of_exchange (alike_countSent c regardless).1.connected
              (steady_countSent c regardless).settings same
          have mem : m.untouched ∈ (MQTTProtocol.countSent c regardless).exchange.outbound :=
            same ▸ inFlight m List.mem_cons_self
          rcases retryMessage_sendsOn mem with ⟨before, sendsOn, kept, result | result⟩
          · rw [result]
            refine (ih fun other mem => ?_).after (counted.trans sendsOn)
            rw [kept, same]
            exact restInFlight other mem
          · rw [result]
            exact sendsOn.closes.after counted
        · exact ih restInFlight
      · exact (sendsOn_refl c).proceeds

theorem proceeds_retry (now : Nat) (doRetry regardless : Bool) :
    Proceeds c (MQTTProtocol.retry now doRetry regardless c) := by
  have inFlight : ∀ m ∈ c.outboundMsgs, m.untouched ∈ c.exchange.outbound :=
    fun m mem => List.mem_map_of_mem mem
  have stays : Proceeds c c := (sendsOn_refl c).proceeds
  unfold MQTTProtocol.retry MQTTProtocol.retries
  split
  · exact stays
  · split
    · exact (sendsOn_refl c).closes
    · split
      · exact stays
      · split
        · split
          · exact stays
          · split
            · let counting : Clients := { c with connectCount := c.outboundMsgs.length }
              have same : SendsOn c counting := .of_exchange rfl rfl rfl
              exact (proceeds_retryLoop (c := counting) now true _ inFlight).after same
            · exact proceeds_retryLoop now _ _ inFlight
        · exact stays

theorem sendsOn_sendQueuedAcks (requests : List AckRequest)
    (queued : ∀ ackReq ∈ requests, ackReq ∈ c.outboundQueue) :
    SendsOn c (MQTTProtocol.sendQueuedAcks c requests) := by
  induction requests generalizing c with
  | nil => exact sendsOn_refl c
  | cons ackReq rest ih =>
      have sends : SendsOn c
          (MQTTPacket.send_ack c c.mqttVersion ackReq.ackType ackReq.messageId).2 :=
        sendsOn_send_ack fun rc => .sendQueued (queued ackReq List.mem_cons_self) rc
      have queue : (MQTTPacket.send_ack c c.mqttVersion ackReq.ackType
          ackReq.messageId).2.outboundQueue = c.outboundQueue :=
        (congrArg Exchange.queue (exchange_send_ack c c.mqttVersion ackReq.ackType
          ackReq.messageId)).trans (Exchange.sendAck_queue ..)
      unfold MQTTProtocol.sendQueuedAcks
      rcases result : MQTTPacket.send_ack c c.mqttVersion ackReq.ackType ackReq.messageId
        with ⟨rc, sent⟩
      rw [result] at sends queue
      cases rc with
      | complete =>
          refine sends.trans (ih fun other mem => ?_)
          rw [queue]
          exact queued other (List.mem_cons_of_mem _ mem)
      | interrupted => exact sends
      | socketError => exact sends

theorem sendsOn_writeAvailable : SendsOn c (MQTTProtocol.writeAvailable c) := by
  have sends := sendsOn_sendQueuedAcks c.outboundQueue fun _ mem => mem
  exact ⟨sends.connected, sends.settings, sends.quiets.tail (.dropQueue _)⟩

/-- On a connection the client does what the session code does by itself. -/
theorem proceeds_act (connected : c.connected = true) {action : Session.Action}
    (internal : action.Internal) (other : ∀ sessionPresent, action ≠ .connect sessionPresent) :
    Proceeds c (Session.act c action) := by
  have stays : Proceeds c c := (sendsOn_refl c).proceeds
  cases action with
  | publish message => exact internal.elim
  | receive packet => exact internal.elim
  | restart keys => exact internal.elim
  | connect sessionPresent => exact absurd rfl (other sessionPresent)
  | retry doRetry => exact proceeds_retry _ _ _
  | continueWrite succeeded =>
      let written : Clients := { c with net := { c.net with pendingWrites := false } }
      have same : SendsOn c written := .of_exchange rfl rfl rfl
      simp only [Session.act]
      split
      · split
        · exact (same.trans sendsOn_writeAvailable).proceeds
        · exact same.proceeds
      · exact stays
  | connectionLost =>
      simp only [Session.act, connected, if_true]
      exact (sendsOn_refl c).closes

/-- What a new connection starts with, and what the client does on it. -/
theorem proceeds_completeConnection (c : Clients) (sessionPresent : Bool) :
    ∃ taken : Clients, taken.connected = true ∧ taken.settings = c.settings ∧
      (Session.KeepsSession c sessionPresent → taken.exchange = c.exchange.log .connected) ∧
      (¬Session.KeepsSession c sessionPresent →
        taken.exchange = (c.exchange.log .connected).clean) ∧
      Proceeds taken (MQTTAsync.completeConnection c sessionPresent) := by
  let opened : Clients :=
    { c with connected := true, good := true, trace := .connected :: c.trace }
  have same : opened.exchange = c.exchange.log .connected := rfl
  rcases Session.exists_pass opened with ⟨kept, keptOpen, keptSteady, keptSame, keptPass⟩
  rcases Session.exists_pass (MQTTAsync.cleanSession opened) with
    ⟨cleaned, cleanedOpen, cleanedSteady, cleanedSame, cleanedPass⟩
  rw [exchange_cleanSession, same] at cleanedSame
  have passed {taken after : Clients}
      (result : after = taken ∨ after = MQTTProtocol.retry 0 true true taken) :
      Proceeds taken after := by
    rcases result with rfl | rfl
    · exact (sendsOn_refl _).proceeds
    · exact proceeds_retry 0 true true
  unfold MQTTAsync.completeConnection Session.KeepsSession
  dsimp only
  split
  next new =>
    refine ⟨cleaned, cleanedOpen, cleanedSteady.settings, fun keeps => ?_, fun _ => cleanedSame,
      passed (cleanedPass _ rfl)⟩
    rw [keeps.1, keeps.2.1] at new
    exact absurd new Bool.false_ne_true
  next flags =>
    split
    next absent =>
      rw [Bool.and_eq_true, decide_eq_true_iff, Bool.not_eq_true'] at absent
      refine ⟨cleaned, cleanedOpen, cleanedSteady.settings, fun keeps => ?_, fun _ => cleanedSame,
        passed (cleanedPass _ rfl)⟩
      exact nomatch absent.2.symm.trans (keeps.2.2 absent.1)
    next present =>
      refine ⟨kept, keptOpen, keptSteady.settings, fun _ => keptSame.trans same, fun lost => ?_,
        passed (keptPass _ rfl)⟩
      rw [Bool.or_eq_true, not_or, Bool.not_eq_true, Bool.not_eq_true] at flags
      refine absurd ⟨flags.1, flags.2, fun version => ?_⟩ lost
      simpa [version] using present

end ByItself

/-! ## What client and server agree on -/

/-- Client and server agree, and the store with them, if there is one. -/
structure Exchange.Follows (e : Exchange) (server : Server) (persistent up current : Bool) :
    Prop extends Agrees e server up current where
  unrecorded : persistent = true → current = true → e.Unrecorded

namespace Conversation

/-- What holds of client and server between the steps. -/
structure Sound (persistent : Bool) (c : Clients) (server : Server) : Prop where
  version : mqttVersion311 ≤ c.mqttVersion
  closed : c.connected = false → Closed c
  follows : c.exchange.Follows server persistent c.connected
    (c.connected || decide c.KeepsOnClose)

variable {persistent : Bool} {c c' : Clients} {server : Server}

theorem keepsOnClose_of_settings (same : c'.settings = c.settings) :
    c'.KeepsOnClose ↔ c.KeepsOnClose :=
  ⟨fun keeps => keeps.of_settings same.symm, fun keeps => keeps.of_settings same⟩

theorem mqttVersion_of_settings (same : c'.settings = c.settings) :
    c'.mqttVersion = c.mqttVersion :=
  congrArg Settings.mqttVersion same

theorem follows_quiets {e e' : Exchange} (follows : e.Follows server persistent true true)
    (quiets : ReflTransGen (Exchange.Quiet true) e e') :
    e'.Follows server persistent true true := by
  induction quiets with
  | refl => exact follows
  | tail _ quiet ih =>
      refine ⟨quiet.agrees ih.toAgrees, fun isPersistent _ => ?_⟩
      exact quiet.unrecorded ih.toAgrees (ih.unrecorded isPersistent rfl)

/-- A session that does not outlive its connection is no longer that of the server. -/
theorem follows_closeSession (follows : c.exchange.Follows server persistent true true) :
    (MQTTProtocol.closeSession c).exchange.Follows server persistent false
      (decide c.KeepsOnClose) := by
  by_cases keeps : c.KeepsOnClose
  · rw [decide_eq_true keeps, exchange_closeSession_keeps keeps]
    exact ⟨follows.toAgrees.down, follows.unrecorded⟩
  · rw [decide_eq_false keeps]
    have spent := follows.toAgrees.down.stale
    refine ⟨?_, fun _ current => (nomatch current)⟩
    rcases exchange_closeSession (c := c) with same | cleaned
    · rw [same]
      exact spent
    · rw [cleaned]
      exact spent.clean

theorem Sound.opened (sound : Sound persistent c server) (connected : c.connected = true) :
    c.exchange.Follows server persistent true true := by
  have follows := sound.follows
  rw [connected, Bool.true_or] at follows
  exact follows

theorem Sound.between (sound : Sound persistent c server) (disconnected : c.connected = false) :
    c.exchange.Follows server persistent false (decide c.KeepsOnClose) := by
  have follows := sound.follows
  rw [disconnected, Bool.false_or] at follows
  exact follows

/-- On a connection that stays there is nothing else to keep. -/
theorem sound_of_connected (version : mqttVersion311 ≤ c.mqttVersion)
    (connected : c.connected = true) (follows : c.exchange.Follows server persistent true true) :
    Sound persistent c server where
  version := version
  closed := fun closed => (nomatch closed.symm.trans connected)
  follows := by
    rw [connected, Bool.true_or]
    exact follows

theorem sound_proceeds (version : mqttVersion311 ≤ c.mqttVersion)
    (connected : c.connected = true) (follows : c.exchange.Follows server persistent true true)
    (proceeds : Proceeds c c') : Sound persistent c' server := by
  rcases proceeds with ⟨before, sendsOn, result⟩
  have follows := follows_quiets follows sendsOn.quiets
  have version : mqttVersion311 ≤ before.mqttVersion :=
    (mqttVersion_of_settings sendsOn.settings).symm ▸ version
  rcases result with rfl | rfl
  · exact sound_of_connected version (sendsOn.connected.trans connected) follows
  · have same := (steady_closeSession before).settings
    have closed := closed_closeSession before
    refine ⟨(mqttVersion_of_settings same).symm ▸ version, fun _ => closed, ?_⟩
    rw [closed.1, Bool.false_or, decide_eq_decide.mpr (keepsOnClose_of_settings same)]
    exact follows_closeSession follows

/-! ## Steps -/

theorem sound_provide (sound : Sound persistent c server) (input : Session.Input) :
    Sound persistent (Session.provide c input) server :=
  ⟨sound.version, sound.closed, sound.follows⟩

theorem settings_publish (c : Clients) (message : Session.Message) :
    (Session.publish c message).settings = c.settings := by
  unfold Session.publish
  split
  · rfl
  · split
    · exact (steady_startPublish c _ _ _).settings
    · split
      · rfl
      next after assigned =>
        have same : after.settings = c.settings := by
          unfold MQTTProtocol.assignMsgId at assigned
          split at assigned
          · cases assigned
          · cases assigned
            split <;> rfl
        split
        · exact same
        · exact (steady_startPublish after _ _ _).settings.trans same

/-- A publication starts, for whose id no PUBREL is recorded or queued. -/
theorem sound_publish (sound : Sound persistent c server) (connected : c.connected = true)
    {message : Session.Message}
    (unreleased : ∀ msgId, Session.nextId c = some msgId → message.qos = 2 →
      c.record (key .pubrel c.mqttVersion msgId) = none ∧
        ⟨msgId, .pubrel⟩ ∉ c.outboundQueue) :
    Sound persistent (Session.publish c message) server := by
  have follows := sound.opened connected
  have version : mqttVersion311 ≤ (Session.publish c message).mqttVersion :=
    (mqttVersion_of_settings (settings_publish c message)).symm ▸ sound.version
  have stays := (Session.publish_connected c message).trans connected
  refine sound_of_connected version stays ?_
  rcases starts_publish (c := c) message with same | ⟨msgId, starts, next⟩
  · rw [same]
    exact follows
  · have unreleased (two : message.qos = 2) := unreleased msgId (next (by omega)) two
    refine ⟨starts.agrees follows.toAgrees fun two => (unreleased two).2, fun isPersistent _ => ?_⟩
    exact starts.unrecorded (follows.unrecorded isPersistent rfl) fun two => (unreleased two).1

theorem sound_receive (sound : Sound persistent c server) (connected : c.connected = true)
    {packet : Session.Packet} {answers : List Session.Packet}
    (isNext : server.answers = packet :: answers) :
    Sound persistent (Session.receive c packet) { server with answers := answers } := by
  have follows := sound.opened connected
  have version : mqttVersion311 ≤ (Session.receive c packet).mqttVersion :=
    (mqttVersion_of_settings (steady_receive c packet).settings).symm ▸ sound.version
  have handles := handles_receive (c := c) packet
  refine sound_of_connected version ((quiet_receive c packet).connected.trans connected) ?_
  refine ⟨handles.agrees follows.toAgrees isNext, fun isPersistent _ => ?_⟩
  exact handles.unrecorded follows.toBooked (follows.unrecorded isPersistent rfl)

theorem keepsSession_resumes (version : mqttVersion311 ≤ c.mqttVersion) (sessionPresent : Bool) :
    Session.KeepsSession c (resumes c sessionPresent) ↔ resumes c sessionPresent = true := by
  constructor
  · exact fun keeps => keeps.2.2 version
  · intro resumed
    have flags := resumed
    simp only [resumes, Bool.and_eq_true, decide_eq_true_iff, Bool.not_eq_true'] at flags
    exact ⟨flags.1.2.1, flags.2, fun _ => resumed⟩

/-- A connection is made, on which both go on with the session or both begin a new one. -/
theorem sound_connect (sound : Sound persistent c server) (disconnected : c.connected = false)
    (sessionPresent : Bool) :
    Sound persistent (MQTTAsync.completeConnection c (resumes c sessionPresent))
      (server.connect (resumes c sessionPresent)) := by
  have follows := sound.between disconnected
  rcases proceeds_completeConnection c (resumes c sessionPresent) with
    ⟨taken, connected, same, kept, cleaned, proceeds⟩
  rw [keepsSession_resumes sound.version] at kept cleaned
  refine sound_proceeds ((mqttVersion_of_settings same).symm ▸ sound.version) connected ?_ proceeds
  cases resumed : resumes c sessionPresent with
  | true =>
      have keeps : c.KeepsOnClose := by
        simp only [resumes, Bool.and_eq_true, decide_eq_true_iff] at resumed
        exact resumed.1.2
      rw [decide_eq_true keeps] at follows
      rw [kept resumed]
      exact ⟨follows.toAgrees.resume, fun isPersistent _ => follows.unrecorded isPersistent rfl⟩
  | false =>
      rw [cleaned (by simp [resumed])]
      exact ⟨follows.toAgrees.renew, fun _ _ m mem => absurd mem List.not_mem_nil⟩

theorem settings_restart (c : Clients) (keys : List PersistenceKey) :
    (Session.restart c keys).settings = c.settings := by
  apply @Session.restart_keeps fun after => after.settings = c.settings
  · intro after k kept
    unfold MQTTPersistence.restoreKey
    split
    · exact kept
    · split
      · exact kept
      · split
        · exact kept
        · split
          · exact kept
          · exact kept
          · split <;> exact kept
          · exact kept
  · exact fun after kept => kept
  · rfl

/-- The process ends, and a new one restores the session. -/
theorem sound_restart (sound : Sound true c server) (durable : c.exchange.Durable)
    {keys : List PersistenceKey}
    (restores : Exchange.Restores c.exchange (Session.restart c keys).exchange) :
    Sound true (Session.restart c keys) server := by
  have follows := sound.follows
  have same := settings_restart c keys
  have closed := Session.restart_closed c keys
  have agrees := restores.agrees durable (follows.unrecorded rfl) follows.toAgrees
  refine ⟨(mqttVersion_of_settings same).symm ▸ sound.version, fun _ => closed, ?_,
    fun _ _ => restores.unrecorded⟩
  rw [closed.1, Bool.false_or, decide_eq_decide.mpr (keepsOnClose_of_settings same)]
  by_cases keeps : c.KeepsOnClose
  · rw [decide_eq_true keeps, Bool.or_true] at agrees
    rw [decide_eq_true keeps]
    exact agrees
  · rw [decide_eq_false keeps]
    exact agrees.stale

/-- Whether an action ends the process. -/
def restarts : Session.Action → Bool
  | .restart _ => true
  | _ => false

/-- What a call into the client has to meet: a restart lists the keys of the store, of which there
is one, and no PUBREL is recorded or queued for the id under which a publication starts. -/
def Meets (persistent : Bool) (s : Conversation) : Move → Prop
  | .call input =>
      Session.ListsKeys s.client input ∧ Session.StartsUnreleased s.client input ∧
        (restarts input.action = true → persistent = true)
  | _ => True

instance decidableMeets (persistent : Bool) (s : Conversation) (move : Move) :
    Decidable (Meets persistent s move) :=
  match move with
  | .call _ => inferInstanceAs (Decidable (_ ∧ _ ∧ _))
  | .read _ | .publish _ _ _ | .pubrel _ | .arrive _ _ _ => isTrue trivial

/-- A packet that the server sends by itself. -/
theorem sound_sends (sound : Sound persistent c server) {packet : Session.Packet}
    (nothing : ∀ msgid, packet.about msgid = none) :
    Sound persistent c { server with answers := server.answers ++ [packet] } := by
  have follows := sound.follows
  refine ⟨sound.version, sound.closed, ⟨⟨?_, fun msgid => ?_⟩, follows.unrecorded⟩⟩
  · have booked := follows.toBooked
    refine ⟨booked.distinct, booked.positive, booked.qos, booked.numbered, booked.read_le,
      Exchange.accepts_append booked fun id rc same => ?_, booked.known, booked.publication,
      booked.last, booked.once⟩
    have about := nothing id
    rw [same, Session.Packet.about, if_pos rfl] at about
    cases about
  · have inv := follows.numbers msgid
    have same : ({ server with answers := server.answers ++ [packet] } : Server).answers.filterMap
        (Session.Packet.about msgid) = server.answers.filterMap (Session.Packet.about msgid) := by
      simp [nothing msgid]
    rw [Exchange.handover, same]
    exact inv

theorem sound_read (sound : Sound persistent c server) {packet : Upward} {rest : List Upward}
    (isNext : server.unread c.trace = packet :: rest) {rc : Nat}
    (accepts : rc < reasonCodeUnspecifiedError) :
    Sound persistent c (server.readPacket rc packet) := by
  have follows := sound.follows
  have unread : server.unread c.exchange.trace = packet :: rest := isNext
  exact ⟨sound.version, sound.closed, follows.toAgrees.read unread accepts, follows.unrecorded⟩

/-- A call into the client that is no connection. -/
theorem sound_call (sound : Sound persistent c server)
    (durable : persistent = true → c.exchange.Durable) {input : Session.Input}
    (noPacket : ∀ packet, input.action ≠ .receive packet)
    (noConnection : ∀ sessionPresent, input.action ≠ .connect sessionPresent)
    (listed : Session.ListsKeys c input) (unreleased : Session.StartsUnreleased c input)
    (stored : restarts input.action = true → persistent = true) :
    Sound persistent (Session.step c input) server := by
  have provided := sound_provide sound input
  by_cases restart : ∃ keys, input.action = .restart keys
  · rcases restart with ⟨keys, action⟩
    rw [action] at stored
    have isPersistent : persistent = true := stored rfl
    subst isPersistent
    have restores := Session.step_restores (durable rfl).toFiled action listed
    simp only [Session.step, action, Session.act] at restores ⊢
    exact sound_restart provided (durable rfl) restores
  · rw [not_exists] at restart
    cases connected : c.connected with
    | false =>
        have closed : Closed (Session.provide c input) := sound.closed connected
        rw [Session.step, Session.act_closed closed ⟨noConnection, restart⟩]
        exact provided
    | true =>
        have isUp : (Session.provide c input).connected = true := connected
        have byItself (internal : input.action.Internal) :
            Sound persistent (Session.step c input) server :=
          sound_proceeds provided.version isUp (provided.opened isUp)
            (proceeds_act isUp internal noConnection)
        cases action : input.action with
        | receive packet => exact absurd action (noPacket packet)
        | connect sessionPresent => exact absurd action (noConnection sessionPresent)
        | restart keys => exact absurd action (restart keys)
        | publish message =>
            simp only [Session.step, action, Session.act, isUp, if_true]
            refine sound_publish provided isUp fun msgId next two => ?_
            rw [nextId_provide] at next
            simp only [Session.StartsUnreleased, action, next] at unreleased
            exact unreleased connected two
        | retry doRetry => exact byItself (action ▸ trivial)
        | continueWrite succeeded => exact byItself (action ▸ trivial)
        | connectionLost => exact byItself (action ▸ trivial)

theorem step_connect_open (connected : c.connected = true) (input : Session.Input)
    (sessionPresent : Bool) :
    Session.step c { input with action := .connect sessionPresent } = Session.provide c input :=
  if_pos connected

theorem step_connect_closed (disconnected : c.connected = false) (input : Session.Input)
    (sessionPresent : Bool) :
    Session.step c { input with action := .connect sessionPresent } =
      MQTTAsync.completeConnection (Session.provide c input) sessionPresent := by
  have closed : (Session.provide c input).connected ≠ true :=
    fun connected => (nomatch disconnected.symm.trans connected)
  exact if_neg closed

/-- Client and server agree, and what is in the store is durable. -/
def Stands (persistent : Bool) (s : Conversation) : Prop :=
  Sound persistent s.client s.server ∧ (persistent = true → s.client.exchange.Durable)

theorem step_stands {s : Conversation} {move : Move} (stands : Stands persistent s)
    (meets : Meets persistent s move) : Stands persistent (s.step move) := by
  rcases stands with ⟨sound, durable⟩
  cases move with
  | read rc =>
      simp only [step]
      split
      · exact ⟨sound, durable⟩
      next isNext => exact ⟨sound_read sound isNext rc.isLt, durable⟩
  | publish dup message msgId => exact ⟨sound_sends sound fun _ => rfl, durable⟩
  | pubrel msgId => exact ⟨sound_sends sound fun _ => rfl, durable⟩
  | arrive now writes moreToTry =>
      simp only [step]
      split
      · exact ⟨sound, durable⟩
      next packet answers isNext =>
        split
        next connected =>
          let input : Session.Input := ⟨.receive packet, now, writes, moreToTry⟩
          have isUp : (Session.provide s.client input).connected = true := connected
          have received := sound_receive (sound_provide sound input) isUp isNext
          have result : Session.step s.client input =
              Session.receive (Session.provide s.client input) packet := if_pos isUp
          refine ⟨result ▸ received, fun isPersistent => ?_⟩
          exact Session.step_durable s.client input (durable isPersistent) ⟨trivial, trivial⟩
        · exact ⟨sound, durable⟩
  | call input =>
      rcases meets with ⟨listed, unreleased, stored⟩
      have stays {input : Session.Input} (listed : Session.ListsKeys s.client input)
          (unreleased : Session.StartsUnreleased s.client input) :
          persistent = true → (Session.step s.client input).exchange.Durable :=
        fun isPersistent =>
          Session.step_durable s.client input (durable isPersistent) ⟨listed, unreleased⟩
      simp only [step]
      split
      · exact ⟨sound, durable⟩
      next sessionPresent action =>
        refine ⟨?_, stays trivial trivial⟩
        cases connected : s.client.connected with
        | true =>
            rw [step_connect_open connected, if_pos rfl]
            exact sound_provide sound input
        | false =>
            rw [step_connect_closed connected, if_neg Bool.false_ne_true]
            exact sound_connect (sound_provide sound input) connected sessionPresent
      next noPacket noConnection =>
        exact ⟨sound_call sound durable noPacket noConnection listed unreleased stored,
          stays listed unreleased⟩

/-! ## Runs -/

theorem start_stands {settings : Settings} (version : mqttVersion311 ≤ settings.mqttVersion)
    (retryInterval : Int) (persistent : Bool) :
    Stands persistent
      (start settings retryInterval (if persistent = true then some ∅ else none)) := by
  refine ⟨⟨version, fun _ => ⟨rfl, rfl⟩, ⟨⟨?_, fun msgid => ?_⟩, ?_⟩⟩, ?_⟩
  · constructor
    · exact List.nodup_nil
    · exact fun m mem => absurd mem List.not_mem_nil
    · exact fun m mem => absurd mem List.not_mem_nil
    · exact fun m mem => absurd mem List.not_mem_nil
    · exact Nat.zero_le _
    · exact fun id rc mem => absurd mem List.not_mem_nil
    · exact fun number mem => absurd mem List.not_mem_nil
    · exact fun number qos id mem => absurd mem List.not_mem_nil
    · exact fun number id mem => absurd mem List.not_mem_nil
    · exact fun number id started => (nomatch started)
  · constructor
    · exact .after rfl (TwoPhase.noneBehind_nil _ _) fun _ => List.not_mem_nil
    · exact fun up => (nomatch up)
    · exact fun _ offered => (nomatch offered)
    · exact fun _ released => (nomatch released)
    · exact fun _ _ => ⟨rfl, List.not_mem_nil, fun _ => List.not_mem_nil⟩
  · exact fun _ _ m mem => absurd mem List.not_mem_nil
  · rintro rfl
    exact Session.create_durable settings.mqttVersion settings.cleansession

/-- The server has the publication when the connection breaks before PUBREC arrives, and the process
ends. -/
def interrupted : List Move :=
  [.call { action := .connect false }, .call { action := .publish ⟨[], [], 2, false, []⟩ },
    .read ⟨0, by decide⟩, .call { action := .connectionLost },
    .call { action := .restart [⟨.publishSent, false, 1⟩] },
    .call { action := .connect true }, .read ⟨0, by decide⟩, .arrive 0 [] false,
    .read ⟨0, by decide⟩, .arrive 0 [] false]

/-- A PUBREL waits in the queue when its session is discarded, and is sent behind the publication
that has its id in the next one. -/
def leftOver : List Move :=
  [.call { action := .connect false }, .call { action := .publish ⟨[], [], 2, false, []⟩ },
    .read ⟨0, by decide⟩,
    .call { action := .publish ⟨[], [], 0, false, []⟩, writes := [.interrupted] },
    .arrive 0 [] false, .call { action := .connectionLost }, .call { action := .connect false },
    .call { action := .publish ⟨[], [], 2, false, []⟩, writes := [.interrupted] },
    .call { action := .continueWrite true }, .read ⟨0, by decide⟩, .read ⟨0, by decide⟩,
    .call { action := .connectionLost }, .call { action := .connect true }, .read ⟨0, by decide⟩]

/-- The publication is then passed on twice. -/
theorem delivered_twice_leftOver :
    ¬∀ (moves : List Move) (number : Nat),
      (run step (start ⟨4, false, false, 4294967295⟩ 0 none) moves).server.delivered.count
        number ≤ 1 := by
  intro once
  exact absurd (once leftOver 1) (by decide +kernel)

end Conversation

end Paho
