import Paho.Protocol.Messages

/-!
# Persistence

The operations of `MQTTPersistence.c` on the records of in-flight messages. The store is a
finite map; its operations succeed. The callbacks `beforeWrite` and `afterRead` are not set.
-/

namespace Paho

theorem lookup_foldl_erase {Value : Type} (keys : List PersistenceKey)
    (store : AList fun _ : PersistenceKey => Value) (other : PersistenceKey) :
    (keys.foldl (fun s key => s.erase key) store).lookup other =
      if other ∈ keys then none else store.lookup other := by
  induction keys generalizing store with
  | nil => simp
  | cons key keys ih =>
      rw [List.foldl_cons, ih]
      by_cases same : other = key
      · subst same
        simp
      · simp [same, AList.lookup_erase_ne]

namespace Clients

/-- The record that the store holds under a key. -/
def record (c : Clients) (key : PersistenceKey) : Option Record :=
  c.persistence.bind (·.lookup key)

/-- `pput`, when there is a store. -/
def putRecord (c : Clients) (key : PersistenceKey) (record : Record) : Clients :=
  { c with
    persistence := c.persistence.map (·.insert key record) }

/-- `premove` of each key in turn, when there is a store. -/
def removeRecords (c : Clients) (keys : List PersistenceKey) : Clients :=
  { c with
    persistence := c.persistence.map fun store => keys.foldl (fun s key => s.erase key) store }

/-- `pkeys`, in the order of the store itself. -/
def recordKeys (c : Clients) : List PersistenceKey :=
  (c.persistence.map AList.keys).getD []

end Clients

namespace MQTTPersistence

/-- The key of a stem and an id: the MQTT 5 form from version 5 on. -/
def key (stem : Stem) (mqttVersion msgId : Nat) : PersistenceKey :=
  { stem := stem, v5 := decide (mqttVersion5 ≤ mqttVersion), number := msgId }

/-- `MQTTPersistence_putPacket`. The direction `scr` is 0 for sending and 1 for receiving. -/
def putPacket (c : Clients) (record : Record) (htype : PacketType) (msgId scr mqttVersion : Nat) :
    Clients :=
  if scr = 0 then
    match htype with
    | .publish => c.putRecord (key .publishSent mqttVersion msgId) record
    | .pubrel => c.putRecord (key .pubrel mqttVersion msgId) record
    | _ => c.putRecord { stem := .publishSent, v5 := false, number := msgId } record
  else
    c.putRecord (key .publishReceived mqttVersion msgId) record

/-- The keys that `MQTTPersistence_remove` removes, in order. Both forms go, whatever version
the caller names. -/
def removedKeys (type : Stem) (msgId : Nat) : List PersistenceKey :=
  if type = .publishSent then
    [⟨.publishSent, true, msgId⟩, ⟨.pubrel, true, msgId⟩,
      ⟨.publishSent, false, msgId⟩, ⟨.pubrel, false, msgId⟩]
  else
    [⟨.publishReceived, true, msgId⟩, ⟨.publishReceived, false, msgId⟩]

/-- `MQTTPersistence_remove`. -/
def remove (c : Clients) (type : Stem) (msgId : Nat) : Clients :=
  c.removeRecords (removedKeys type msgId)

/-- The keys of in-flight messages. -/
def isInflight (key : PersistenceKey) : Bool :=
  match key.stem with
  | .publishSent | .pubrel | .publishReceived => true
  | .command | .queue => false

/-- `MQTTAsync_unpersistInflightMessages`. -/
def unpersistInflightMessages (c : Clients) : Clients :=
  c.removeRecords (c.recordKeys.filter isInflight)

/-- `MQTTPersistence_insertInOrder`: before the first message with a larger id. -/
def insertInOrder (content : Messages) : List Messages → List Messages
  | [] => [content]
  | m :: rest =>
      if content.msgid < m.msgid then content :: m :: rest else m :: insertInOrder content rest

/-- The scan of `MQTTPersistence_wrapMsgID`: the position after the last strictly larger gap
found so far. -/
def wrapPosition (previous position : Nat) (gap : Int) (found : Nat) : List Messages → Nat
  | [] => found
  | m :: rest =>
      let curgap : Int := m.msgid - previous
      if curgap > gap then wrapPosition m.msgid (position + 1) curgap position rest
      else wrapPosition m.msgid (position + 1) gap found rest

/-- `MQTTPersistence_wrapMsgID`: rotate the list to begin after the largest gap. -/
def wrapMsgID (messages : List Messages) : List Messages :=
  match messages with
  | [] => []
  | first :: rest =>
      let last := (first :: rest).getLast (by simp)
      let gap : Int := maxMsgId - last.msgid + first.msgid
      let position := wrapPosition first.msgid 1 gap 0 rest
      (first :: rest).drop position ++ (first :: rest).take position

/-- How one round of the loop of `MQTTPersistence_restorePackets` ends. -/
inductive Restoring where
  /-- `rc` is 0. -/
  | continues (c : Clients)
  /-- `rc` is an error code, and the loop ends. -/
  | failed (c : Clients)
  /-- `goto exit`. -/
  | exits (c : Clients)

/-- The message restored from a record under a publish-received key. -/
def restoredReceived (c : Clients) (publish : Publish) : Messages :=
  let publish := { publish with mqttVersion := c.mqttVersion }
  let msg := MQTTProtocol.createMessage publish publish.qos publish.retain c.clock
  { msg with
    nextMessageType := some .pubrel
    publish := if mqttVersion5 ≤ c.mqttVersion then some ⟨none, none⟩ else msg.publish }

/-- The message restored from a record under a publish-sent key. It awaits PUBCOMP when the
store also holds a PUBREL record of that id, and is due for retry at once. -/
def restoredSent (c : Clients) (publish : Publish) : Messages :=
  let publish := { publish with mqttVersion := c.mqttVersion }
  let msg := MQTTProtocol.createMessage publish publish.qos publish.retain c.clock
  { msg with
    nextMessageType :=
      if (c.record (key .pubrel c.mqttVersion publish.msgId)).isSome then some .pubcomp
      else msg.nextMessageType
    lastTouch := 0 }

/-- One round of the loop of `MQTTPersistence_restorePackets`. -/
def restoreKey (c : Clients) (k : PersistenceKey) : Restoring :=
  if k.stem = .command ∨ k.stem = .queue then .continues c
  else
    match c.record k with
    | none => .failed c
    | some record =>
        if k.v5 = true ∧ c.mqttVersion < mqttVersion5 then .exits c
        else
          match k.stem, record with
          | .publishReceived, .publish publish =>
              .continues { c with inboundMsgs := c.inboundMsgs ++ [restoredReceived c publish] }
          | .publishSent, .publish publish =>
              .continues
                { c with outboundMsgs := insertInOrder (restoredSent c publish) c.outboundMsgs }
          | .pubrel, .pubrel msgId =>
              if (c.record (key .publishSent c.mqttVersion msgId)).isSome then .continues c
              else .continues (c.removeRecords [k])
          | _, _ => .continues (c.removeRecords [k])

/-- The loop of `MQTTPersistence_restorePackets` over the keys that `pkeys` returned. -/
def restoreKeys (c : Clients) : List PersistenceKey → Restoring
  | [] => .continues c
  | k :: keys =>
      match restoreKey c k with
      | .continues c => restoreKeys c keys
      | .failed c => .failed c
      | .exits c => .exits c

/-- `MQTTPersistence_restorePackets`; the first component tells whether `rc` is 0. -/
def restorePackets (c : Clients) (keys : List PersistenceKey) : Bool × Clients :=
  match restoreKeys c keys with
  | .continues c => (true, { c with outboundMsgs := wrapMsgID c.outboundMsgs })
  | .failed c => (false, { c with outboundMsgs := wrapMsgID c.outboundMsgs })
  | .exits c => (false, c)

end MQTTPersistence

end Paho
