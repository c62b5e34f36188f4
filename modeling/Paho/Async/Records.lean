import Paho.Async.Custody
import Paho.Protocol.Restoring

/-!
# What the records of the client hold

The custody of a state of the asynchronous client, and how the operations on the session and on
the store change it. Most of them leave it as it is.
-/

namespace Paho

open MQTTPersistence

namespace Record

/-- The token and the message of a command record. -/
def command? : Record → Option (Nat × Option Session.Message)
  | .command token message => some (token, message)
  | _ => none

/-- The content of the record of a PUBLISH. -/
def publish? : Record → Option Publish
  | .publish packet => some packet.content
  | _ => none

end Record

namespace Exchange

/-- The records of one stem, by the number in their keys. -/
def recordAt (e : Exchange) (stem : Stem) (n : Nat) : Option Record :=
  e.record (key stem e.mqttVersion n)

/-- The publication that an outbound message stands for. -/
def publication (m : Messages) : Publish :=
  (MQTTProtocol.retryPublish m).content

/-- What the store and the lists of the session hold. -/
def held (e : Exchange) : Custody :=
  { mqttVersion := e.mqttVersion
    commandRecord := (Option.bind · Record.command?) ∘ e.recordAt .command
    sentRecord := (Option.bind · Record.publish?) ∘ e.recordAt .publishSent
    receivedRecord := (Option.bind · Record.publish?) ∘ e.recordAt .publishReceived
    commands := []
    inHand := []
    outbound := e.outbound.map publication
    inbound := e.inbound.map MQTTProtocol.publicationOf
    history := [] }

theorem held_outbound_ids (e : Exchange) :
    e.held.outbound.map Publish.msgId = ids e.outbound :=
  List.map_map

theorem held_inbound_ids (e : Exchange) : e.held.inbound.map Publish.msgId = ids e.inbound :=
  List.map_map

section Held

variable {e e' : Exchange}

/-- What is held depends on the records of commands and PUBLISH packets and on the messages. -/
theorem held_congr (version : e'.mqttVersion = e.mqttVersion)
    (record : ∀ stem, stem = .command ∨ stem = .publishSent ∨ stem = .publishReceived →
      e'.recordAt stem = e.recordAt stem)
    (outbound : e'.outbound.map publication = e.outbound.map publication)
    (inbound : e'.inbound.map MQTTProtocol.publicationOf =
      e.inbound.map MQTTProtocol.publicationOf) : e'.held = e.held := by
  unfold held
  rw [version, record _ (.inl rfl), record _ (.inr (.inl rfl)), record _ (.inr (.inr rfl)),
    outbound, inbound]

theorem recordAt_put (persistent : e.persistent = true) (stem : Stem) (n : Nat)
    (record : Record) :
    (e.put (key stem e.mqttVersion n) record).recordAt stem =
      Function.update (e.recordAt stem) n (some record) := by
  funext other
  unfold recordAt
  rw [put_record, put_mqttVersion]
  by_cases same : other = n
  · simp [same, persistent]
  · rw [if_neg fun both => same (key_inj.mp both.2).2, Function.update_of_ne same]

theorem recordAt_put_of_ne {k : PersistenceKey} {stem : Stem} (other : k.stem ≠ stem)
    (record : Record) : (e.put k record).recordAt stem = e.recordAt stem := by
  funext n
  unfold recordAt
  rw [put_record, if_neg]
  · rfl
  · rintro ⟨_, same⟩
    exact other (same ▸ rfl)

theorem recordAt_erase (stem : Stem) (n : Nat) :
    (e.erase [key stem e.mqttVersion n]).recordAt stem =
      Function.update (e.recordAt stem) n none := by
  funext other
  unfold recordAt
  rw [erase_record, erase_mqttVersion]
  by_cases same : other = n
  · simp [same]
  · have different : key stem e.mqttVersion other ∉ [key stem e.mqttVersion n] := by
      rw [List.mem_singleton, key_inj]
      exact fun both => same both.2
    rw [if_neg different, Function.update_of_ne same]

theorem recordAt_erase_of_ne {k : PersistenceKey} {stem : Stem}
    (other : ∀ n, k ≠ key stem e.mqttVersion n) :
    (e.erase [k]).recordAt stem = e.recordAt stem := by
  funext n
  unfold recordAt
  rw [erase_record, if_neg]
  · rfl
  · rw [List.mem_singleton]
    exact fun same => other n same.symm

theorem key_ne_of_stem {k : PersistenceKey} {stem : Stem} (other : k.stem ≠ stem)
    (mqttVersion : Nat) : ∀ n, k ≠ key stem mqttVersion n := by
  rintro n rfl
  exact other rfl

theorem held_log (event : Event) : (e.log event).held = e.held :=
  rfl

theorem held_put_other {k : PersistenceKey} (command : k.stem ≠ .command)
    (sent : k.stem ≠ .publishSent) (received : k.stem ≠ .publishReceived) (record : Record) :
    (e.put k record).held = e.held := by
  apply held_congr (put_mqttVersion e k record)
  · rintro stem (rfl | rfl | rfl)
    · exact recordAt_put_of_ne command record
    · exact recordAt_put_of_ne sent record
    · exact recordAt_put_of_ne received record
  · rfl
  · rfl

theorem held_erase_other {k : PersistenceKey} (command : ∀ n, k ≠ key .command e.mqttVersion n)
    (sent : ∀ n, k ≠ key .publishSent e.mqttVersion n)
    (received : ∀ n, k ≠ key .publishReceived e.mqttVersion n) :
    (e.erase [k]).held = e.held := by
  apply held_congr (erase_mqttVersion e [k])
  · rintro stem (rfl | rfl | rfl)
    · exact recordAt_erase_of_ne command
    · exact recordAt_erase_of_ne sent
    · exact recordAt_erase_of_ne received
  · rfl
  · rfl

theorem held_sendAck (type : PacketType) (msgId : Nat) (rc : CompletionCode) :
    (e.sendAck e.mqttVersion type msgId rc).held = e.held := by
  unfold sendAck putAck
  split
  · rw [held_log]
    exact held_put_other (k := key .pubrel e.mqttVersion msgId) Stem.noConfusion
      Stem.noConfusion Stem.noConfusion _
  · rfl

theorem held_acceptPubrec (msgId : Nat) : (e.acceptPubrec msgId).held = e.held := by
  apply held_congr (acceptPubrec_mqttVersion e msgId) (fun _ _ => rfl)
  · change (updateMessage e.outbound msgId _).map publication = _
    generalize e.outbound = messages
    induction messages with
    | nil => rfl
    | cons m rest ih =>
        unfold updateMessage
        split
        · rfl
        · rw [List.map_cons, List.map_cons, ih]
  · rfl

theorem held_put_command (persistent : e.persistent = true) (n token : Nat)
    (message : Option Session.Message) :
    (e.put (key .command e.mqttVersion n) (.command token message)).held =
      { e.held with
        commandRecord := Function.update e.held.commandRecord n (some (token, message)) } := by
  unfold held
  rw [recordAt_put persistent, recordAt_put_of_ne Stem.noConfusion,
    recordAt_put_of_ne Stem.noConfusion, Function.comp_update]
  rfl

theorem held_erase_command (n : Nat) :
    (e.erase [key .command e.mqttVersion n]).held =
      { e.held with commandRecord := Function.update e.held.commandRecord n none } := by
  unfold held
  rw [recordAt_erase, recordAt_erase_of_ne (key_ne_of_stem Stem.noConfusion _),
    recordAt_erase_of_ne (key_ne_of_stem Stem.noConfusion _), Function.comp_update]
  rfl

theorem held_put_sent (persistent : e.persistent = true) (publish : Publish) :
    (e.put (key .publishSent e.mqttVersion publish.msgId) (.publish publish)).held =
      { e.held with
        sentRecord := Function.update e.held.sentRecord publish.msgId (some publish.content) } := by
  unfold held
  rw [recordAt_put persistent, recordAt_put_of_ne Stem.noConfusion,
    recordAt_put_of_ne Stem.noConfusion, Function.comp_update]
  rfl

theorem held_erase_sent (id : Nat) :
    (e.erase [key .publishSent e.mqttVersion id]).held =
      { e.held with sentRecord := Function.update e.held.sentRecord id none } := by
  unfold held
  rw [recordAt_erase, recordAt_erase_of_ne (key_ne_of_stem Stem.noConfusion _),
    recordAt_erase_of_ne (key_ne_of_stem Stem.noConfusion _), Function.comp_update]
  rfl

theorem held_put_received (persistent : e.persistent = true) (publish : Publish) :
    (e.put (key .publishReceived e.mqttVersion publish.msgId) (.publish publish)).held =
      { e.held with
        receivedRecord :=
          Function.update e.held.receivedRecord publish.msgId (some publish.content) } := by
  unfold held
  rw [recordAt_put persistent, recordAt_put_of_ne Stem.noConfusion,
    recordAt_put_of_ne Stem.noConfusion, Function.comp_update]
  rfl

theorem held_erase_received (id : Nat) :
    (e.erase [key .publishReceived e.mqttVersion id]).held =
      { e.held with receivedRecord := Function.update e.held.receivedRecord id none } := by
  unfold held
  rw [recordAt_erase, recordAt_erase_of_ne (key_ne_of_stem Stem.noConfusion _),
    recordAt_erase_of_ne (key_ne_of_stem Stem.noConfusion _), Function.comp_update]
  rfl

/-- A retry puts a record in the place of one with the same content. -/
theorem held_retryPublish {m : Messages} (persistent : e.persistent = true)
    (version : m.mqttVersion = e.mqttVersion)
    (recorded : e.held.sentRecord m.msgid = some (publication m)) (rc : CompletionCode) :
    (e.sendPublish (MQTTProtocol.retryPublish m) rc).held = e.held := by
  have put := held_put_sent persistent (MQTTProtocol.retryPublish m)
  have same : Function.update e.held.sentRecord (MQTTProtocol.retryPublish m).msgId
      (some (MQTTProtocol.retryPublish m).content) = e.held.sentRecord := by
    rw [Function.update_eq_self_iff]
    exact recorded.symm
  rw [same] at put
  unfold sendPublish
  rw [held_log, show (MQTTProtocol.retryPublish m).mqttVersion = e.mqttVersion from version]
  exact put

theorem publication_createMessage (mqttVersion : Nat) (message : Session.Message)
    (msgId : Nat) :
    publication (MQTTProtocol.createMessage
        (Session.publishPacket mqttVersion message false msgId) message.qos message.retained 0) =
      Session.publishPacket mqttVersion message false msgId := by
  by_cases version : mqttVersion5 ≤ mqttVersion <;>
    simp [publication, MQTTProtocol.retryPublish, Publish.content, MQTTProtocol.createMessage,
      Session.publishPacket, MQTTProtocol.storePublication, version]

theorem held_outbound (outbound : List Messages) :
    { e with outbound := outbound }.held =
      { e.held with outbound := outbound.map publication } :=
  rfl

theorem held_inbound (inbound : List Messages) :
    { e with inbound := inbound }.held =
      { e.held with inbound := inbound.map MQTTProtocol.publicationOf } :=
  rfl

/-- A publication is put in flight. -/
theorem held_start (persistent : e.persistent = true) (message : Session.Message) (msgId : Nat)
    (rc : CompletionCode) :
    let publish := Session.publishPacket e.mqttVersion message false msgId
    ((e.start (MQTTProtocol.createMessage publish message.qos message.retained 0)).sendPublish
        publish rc).held =
      { e.held with
        sentRecord := Function.update e.held.sentRecord msgId (some publish)
        outbound := e.held.outbound ++ [publish] } := by
  intro publish
  let started := e.start (MQTTProtocol.createMessage publish message.qos message.retained 0)
  have put : (started.sendPublish publish rc).held =
      { started.held with
        sentRecord := Function.update started.held.sentRecord msgId (some publish) } :=
    held_put_sent (e := started) persistent publish
  have outbound : started.held.outbound = e.held.outbound ++ [publish] := by
    refine List.map_append.trans ?_
    exact congrArg (fun packet => e.held.outbound ++ [packet])
      (publication_createMessage e.mqttVersion message msgId)
  have outboundHeld : started.held = { e.held with outbound := started.held.outbound } := rfl
  rw [put, outboundHeld, outbound]

/-- A message leaves the list of outbound messages. -/
theorem held_removeOutbound (msgId : Nat) :
    { e with outbound := removeMessage e.outbound msgId }.held =
      { e.held with outbound := e.held.outbound.eraseP (·.msgId == msgId) } := by
  have removed : (removeMessage e.outbound msgId).map publication =
      (e.outbound.map publication).eraseP (·.msgId == msgId) := by
    unfold removeMessage
    rw [List.eraseP_map]
    rfl
  rw [held_outbound, removed]
  rfl

theorem held_removeInbound (msgId : Nat) :
    { e with inbound := removeMessage e.inbound msgId }.held =
      { e.held with inbound := e.held.inbound.eraseP (·.msgId == msgId) } := by
  have removed : (removeMessage e.inbound msgId).map MQTTProtocol.publicationOf =
      (e.inbound.map MQTTProtocol.publicationOf).eraseP (·.msgId == msgId) := by
    unfold removeMessage
    rw [List.eraseP_map]
    rfl
  rw [held_inbound, removed]
  rfl

end Held

end Exchange

end Paho
