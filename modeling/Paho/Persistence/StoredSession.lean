import Paho.Persistence.RecordStore
import Paho.Protocol.Session

/-!
# A session whose store is files

The operations on records in files do to the files what those of `MQTTPersistence` do to a finite
map of records, so that a client gets back the session that it stored.
-/

namespace Paho

open FileStore MQTTPacket PropertyReader

namespace RecordFiles

/-! ## Restoring -/

section Restoring

variable {Dir : Type} [DecidableEq Dir] {base files : FileSystem Dir UInt8} {handle : Path}
  {dir : Dir} {c c' : Clients} {k : PersistenceKey}

/-- A client with a store, and the same client with its records in files. -/
inductive Holds (base : FileSystem Dir UInt8) (handle : Path) (dir : Dir) :
    Clients → Clients → FileSystem Dir UInt8 → Prop
  | mk {c : Clients} {store : Store} {files : FileSystem Dir UInt8}
      (persistent : c.persistence = some store) (stores : Stores base handle dir store files) :
      Holds base handle dir c { c with persistence := none } files

/-- What a round comes to, for the two. -/
inductive SameRound (base : FileSystem Dir UInt8) (handle : Path) (dir : Dir) :
    MQTTPersistence.Restoring → Restoring Dir → Prop
  | continues {c c' : Clients} {files : FileSystem Dir UInt8}
      (holds : Holds base handle dir c c' files) :
      SameRound base handle dir (.continues c) (.continues c' files)
  | failed {c c' : Clients} {files : FileSystem Dir UInt8}
      (holds : Holds base handle dir c c' files) :
      SameRound base handle dir (.failed c) (.failed c' files)
  | exits {c c' : Clients} {files : FileSystem Dir UInt8}
      (holds : Holds base handle dir c c' files) :
      SameRound base handle dir (.exits c) (.exits c' files)

omit [DecidableEq Dir] in
/-- The fields of a client, but for its store, change alike. -/
theorem Holds.inbound (holds : Holds base handle dir c c' files) (messages : List Messages) :
    Holds base handle dir { c with inboundMsgs := messages } { c' with inboundMsgs := messages }
      files := by
  rcases holds with ⟨persistent, stores⟩
  exact @Holds.mk Dir base handle dir { c with inboundMsgs := messages } _ _ persistent stores

omit [DecidableEq Dir] in
theorem Holds.outbound (holds : Holds base handle dir c c' files) (messages : List Messages) :
    Holds base handle dir { c with outboundMsgs := messages } { c' with outboundMsgs := messages }
      files := by
  rcases holds with ⟨persistent, stores⟩
  exact @Holds.mk Dir base handle dir { c with outboundMsgs := messages } _ _ persistent stores

theorem Holds.removeRecord (holds : Holds base handle dir c c' files) (k : PersistenceKey) :
    SameRound base handle dir (.continues (c.removeRecords [k]))
      (removeRecord handle c' files (keyText k)) := by
  rcases holds with ⟨persistent, stores⟩
  rcases stores.remove k with ⟨files', removed, stores'⟩
  rw [RecordFiles.removeRecord, removed]
  refine .continues (@Holds.mk Dir base handle dir (c.removeRecords [k]) _ _ ?_ stores')
  rw [Clients.removeRecords, persistent]
  rfl

theorem currentKey_keyText (inflight : MQTTPersistence.isInflight k = true) :
    (currentKey (keyText k)).1 = k.v5 ∧ ∀ stem,
      hasStem stem false (currentKey (keyText k)).2 = decide (stem = k.stem) := by
  have plain (stem stem' : Stem) :
      hasStem stem false (stemText stem' false) = decide (stem = stem') := by
    cases stem <;> cases stem' <;> rfl
  rcases k with ⟨stem, v5, number⟩
  cases v5 with
  | false => simp [currentKey, hasStem_keyText]
  | true =>
      cases stem with
      | command => cases inflight
      | queue => cases inflight
      | publishSent => simp [currentKey, hasStem_keyText, plain]
      | pubrel => simp [currentKey, hasStem_keyText, plain]
      | publishReceived => simp [currentKey, hasStem_keyText, plain]

section Packs

variable {pack : PublishPacket} {publish : Publish} {cur_key : FileName}

theorem Holds.restoreReceived (holds : Holds base handle dir c c' files) (text : FileName)
    (payloadlen : Int)
    (isKey : hasStem .publishReceived false cur_key = true)
    (same : sessionPublish pack = { publish with mqttVersion := pack.mqttVersion }) :
    ∃ round, restorePack handle c' files text cur_key (.publish pack payloadlen) = some round ∧
      SameRound base handle dir (.continues { c with
        inboundMsgs := c.inboundMsgs ++ [MQTTPersistence.restoredReceived c publish] }) round := by
  have isMsg : MQTTPersistence.restoredReceived c' (sessionPublish pack) =
      MQTTPersistence.restoredReceived c publish := by
    rcases holds with ⟨-, -⟩
    rw [same]
    rfl
  have isList : c'.inboundMsgs = c.inboundMsgs := by rcases holds with ⟨-, -⟩; rfl
  refine ⟨_, ?_, .continues (holds.inbound _)⟩
  rw [restorePack, if_pos isKey, isMsg, isList]

theorem Holds.restoreSent (holds : Holds base handle dir c c' files) (text : FileName)
    (payloadlen : Int)
    (isKey : hasStem .publishSent false cur_key = true)
    (notReceived : hasStem .publishReceived false cur_key = false)
    (same : sessionPublish pack = { publish with mqttVersion := pack.mqttVersion })
    (fits : publish.msgId ≤ maxMsgId) :
    ∃ round, restorePack handle c' files text cur_key (.publish pack payloadlen) = some round ∧
      SameRound base handle dir (.continues { c with
        outboundMsgs := MQTTPersistence.insertInOrder (MQTTPersistence.restoredSent c publish)
          c.outboundMsgs }) round := by
  have sameId : pack.msgId = publish.msgId := congrArg Publish.msgId same
  have isVersion : c'.mqttVersion = c.mqttVersion := by rcases holds with ⟨-, -⟩; rfl
  have isList : c'.outboundMsgs = c.outboundMsgs := by rcases holds with ⟨-, -⟩; rfl
  have isClock : c'.clock = c.clock := by rcases holds with ⟨-, -⟩; rfl
  have contained : pstcontainskey files handle
      (keyText (MQTTPersistence.key .pubrel c.mqttVersion publish.msgId)) =
        (c.record (MQTTPersistence.key .pubrel c.mqttVersion publish.msgId)).isSome := by
    rcases holds with ⟨persistent, stores⟩
    rw [stores.containskey, Clients.record, persistent]
    rfl
  refine ⟨_, ?_, .continues (holds.outbound _)⟩
  have written := @writeKey_eq (MQTTPersistence.key .pubrel c.mqttVersion publish.msgId)
    (maxMsgId_lt fits)
  rw [restorePack, notReceived, if_neg Bool.false_ne_true, if_pos isKey]
  dsimp only
  rw [isVersion, sameId, written]
  dsimp only
  rw [contained, isList, isClock, same]
  unfold MQTTPersistence.restoredSent
  dsimp only
  split
  · rfl
  · rfl

theorem Holds.restorePubrel (holds : Holds base handle dir c c' files) {msgId : Nat}
    (version : Nat) (header : UInt8) (rc : Option Nat) (properties : Option PropertyList)
    (isKey : ∀ stem, hasStem stem false cur_key = decide (stem = k.stem))
    (isPubrel : k.stem = .pubrel) (fits : msgId ≤ maxMsgId) :
    ∃ round, restorePack handle c' files (keyText k) cur_key
        (.server ⟨version, header, .ack (some msgId) rc properties⟩) = some round ∧
      SameRound base handle dir
        (if (c.record (MQTTPersistence.key .publishSent c.mqttVersion msgId)).isSome then
          .continues c else .continues (c.removeRecords [k])) round := by
  have isVersion : c'.mqttVersion = c.mqttVersion := by rcases holds with ⟨-, -⟩; rfl
  have contained : pstcontainskey files handle
      (keyText (MQTTPersistence.key .publishSent c.mqttVersion msgId)) =
        (c.record (MQTTPersistence.key .publishSent c.mqttVersion msgId)).isSome := by
    rcases holds with ⟨persistent, stores⟩
    rw [stores.containskey, Clients.record, persistent]
    rfl
  have written := @writeKey_eq (MQTTPersistence.key .publishSent c.mqttVersion msgId)
    (maxMsgId_lt fits)
  have received : hasStem .publishReceived false cur_key = false := by simp [isKey, isPubrel]
  have sent : hasStem .publishSent false cur_key = false := by simp [isKey, isPubrel]
  have pubrel : hasStem .pubrel false cur_key = true := by simp [isKey, isPubrel]
  rw [restorePack, received, sent, if_neg Bool.false_ne_true, if_neg Bool.false_ne_true,
    if_pos pubrel]
  rw [isVersion, written]
  dsimp only
  rw [contained]
  split
  · exact ⟨_, rfl, .continues holds⟩
  · exact ⟨_, rfl, holds.removeRecord k⟩

end Packs

/-- A round of the loop over the keys. -/
theorem Holds.restoreKey (holds : Holds base handle dir c c' files) (k : PersistenceKey) :
    ∃ round, restoreKey handle c' files (keyText k) = some round ∧
      SameRound base handle dir (MQTTPersistence.restoreKey c k) round := by
  have isVersion : c'.mqttVersion = c.mqttVersion := by rcases holds with ⟨-, -⟩; rfl
  have read : Option.Rel (Encodes k) (c.record k) (pstget files handle (keyText k)) := by
    rcases holds with ⟨persistent, stores⟩
    rw [Clients.record, persistent]
    exact stores.get k
  cases inflight : MQTTPersistence.isInflight k with
  | false =>
      refine ⟨.continues c' files, ?_, ?_⟩
      · rw [RecordFiles.restoreKey, hasStem_keyText, hasStem_keyText, hasStem_keyText,
          hasStem_keyText]
        rcases k with ⟨stem, v5, number⟩
        cases stem <;> cases v5 <;> first | rfl | cases inflight
      · have isEntry : k.stem = .command ∨ k.stem = .queue := by
          rcases k with ⟨stem, v5, number⟩
          cases stem <;> simp_all [MQTTPersistence.isInflight]
        rw [MQTTPersistence.restoreKey, if_pos isEntry]
        exact .continues holds
  | true =>
      have notEntry : ¬(k.stem = .command ∨ k.stem = .queue) := by
        rcases k with ⟨stem, v5, number⟩
        cases stem <;> simp_all [MQTTPersistence.isInflight]
      rcases not_or.mp notEntry with ⟨notCommand, notQueue⟩
      rcases currentKey_keyText inflight with ⟨isV5, isKey⟩
      rw [MQTTPersistence.restoreKey, if_neg notEntry, RecordFiles.restoreKey, hasStem_keyText,
        hasStem_keyText, hasStem_keyText, hasStem_keyText]
      simp only [Ne.symm notCommand, Ne.symm notQueue, false_and, decide_false, Bool.or_self,
        Bool.false_eq_true, if_false]
      generalize c.record k = found at read
      generalize pstget files handle (keyText k) = got at read
      cases read with
      | none => exact ⟨_, rfl, .failed holds⟩
      | @some record buffer encodes =>
          dsimp only
          rw [isV5, isVersion]
          by_cases early : k.v5 = true ∧ c.mqttVersion < mqttVersion5
          · rw [if_pos early, if_pos early]
            exact ⟨_, rfl, .exits holds⟩
          rw [if_neg early, if_neg early]
          cases encodes with
          | @publish publish bytes pack payloadlen stem restored same fits =>
              rw [restored]
              rcases stem with isSent | isReceived
              · rw [isSent]
                exact holds.restoreSent (keyText k) payloadlen (by simp [isKey, isSent])
                  (by simp [isKey, isSent]) same fits
              · rw [isReceived]
                exact holds.restoreReceived (keyText k) payloadlen (by simp [isKey, isReceived])
                  same
          | @pubrel bytes version msgId header rc properties isPubrel restored fits =>
              rw [restored, isPubrel]
              exact holds.restorePubrel version header rc properties isKey isPubrel fits
          | entry record bytes isEntry =>
              rw [inflight] at isEntry
              cases isEntry

/-- The loop over the keys. -/
theorem Holds.restoreKeys (holds : Holds base handle dir c c' files) (keys : List PersistenceKey) :
    ∃ round, restoreKeys handle c' files (keys.map keyText) = some round ∧
      SameRound base handle dir (MQTTPersistence.restoreKeys c keys) round := by
  induction keys generalizing c c' files with
  | nil => exact ⟨_, rfl, .continues holds⟩
  | cons k keys ih =>
      rcases holds.restoreKey k with ⟨round, restored, same⟩
      rw [List.map_cons, RecordFiles.restoreKeys, restored, MQTTPersistence.restoreKeys]
      generalize MQTTPersistence.restoreKey c k = abstract at same
      cases same with
      | continues holds => exact ih holds
      | failed holds => exact ⟨_, rfl, .failed holds⟩
      | exits holds => exact ⟨_, rfl, .exits holds⟩

/-- The session is restored from files as from the records themselves. -/
theorem Holds.restorePackets (holds : Holds base handle dir c c' files) :
    ∃ keys, keys.Perm c.recordKeys ∧
      ∃ restored files', restorePackets handle c' files =
          some ((MQTTPersistence.restorePackets c keys).1, restored, files') ∧
        Holds base handle dir (MQTTPersistence.restorePackets c keys).2 restored files' := by
  have listed : ∃ keys : List PersistenceKey, keys.Perm c.recordKeys ∧
      ∃ nkeys, pstkeys files handle = some (nkeys, keys.map keyText) := by
    rcases holds with ⟨persistent, stores⟩
    rw [Clients.recordKeys, persistent]
    exact stores.keys
  rcases listed with ⟨keys, perm, nkeys, listed⟩
  rcases holds.restoreKeys keys with ⟨round, restored, same⟩
  refine ⟨keys, perm, ?_⟩
  rw [RecordFiles.restorePackets, listed]
  dsimp only
  rw [restored, MQTTPersistence.restorePackets]
  generalize MQTTPersistence.restoreKeys c keys = abstract at same
  have wrapped {c c' : Clients} {files : FileSystem Dir UInt8}
      (holds : Holds base handle dir c c' files) :
      Holds base handle dir { c with outboundMsgs := MQTTPersistence.wrapMsgID c.outboundMsgs }
        { c' with outboundMsgs := MQTTPersistence.wrapMsgID c'.outboundMsgs } files := by
    have isList : c'.outboundMsgs = c.outboundMsgs := by rcases holds with ⟨-, -⟩; rfl
    rw [isList]
    exact holds.outbound _
  cases same with
  | continues holds => exact ⟨_, _, rfl, wrapped holds⟩
  | failed holds => exact ⟨_, _, rfl, wrapped holds⟩
  | exits holds => exact ⟨_, _, rfl, holds⟩

end Restoring

/-! ## Records that are put -/

section Bytes

variable {header : UInt8} {body : Bytes} {pack : PublishPacket} {mqttVersion qos msgId : Nat}
  {dup retained : Bool}

/-- A record with a header, the length and a body is restored from its body. -/
theorem restorePacket_frame (short : body.length < 268435456) (mqttVersion : Nat) :
    restorePacket mqttVersion (header :: (encode body.length ++ body)) =
      storedContent mqttVersion header body := by
  have isShort : (encode body.length).length ≤ 4 := by
    rw [length_encode short]
    exact vbiLen_le body.length
  have fits : 1 * 128 ^ (encode body.length).length ≤ 268435456 := by
    rw [Nat.one_mul]
    exact Nat.pow_le_pow_right (by decide) isShort
  have field := @restoreLength_vbi _ body _ (vbi_encode body.length) 1 0 Nat.one_pos fits 1
  rw [restorePacket, field]
  simp only [Option.bind_some, List.length_append, Nat.zero_add, Nat.mul_one]
  rw [if_pos (by omega)]

theorem dataVersion_five (mqttVersion : Nat) :
    mqttVersion5 ≤ dataVersion (decide (mqttVersion5 ≤ mqttVersion)) ↔
      mqttVersion5 ≤ mqttVersion := by
  by_cases five : mqttVersion5 ≤ mqttVersion
  · simp [dataVersion, five]
  · rw [decide_eq_false five]
    exact iff_of_false (by decide) five

/-- The version only decides whether there are properties. -/
theorem publish_version {version : Nat}
    (same : mqttVersion5 ≤ version ↔ mqttVersion5 ≤ mqttVersion)
    (read : publish mqttVersion header body = some (.pack pack)) :
    publish version header body = some (.pack { pack with mqttVersion := version }) := by
  unfold publish at read ⊢
  dsimp only at read ⊢
  split at read
  · cases read
  next topic topiclen curdata isTopic =>
    split at read
    · cases read
    next msgId rest isId =>
      by_cases five : mqttVersion5 ≤ mqttVersion
      · rw [if_pos five] at read
        rw [if_pos (same.mpr five)]
        split at read
        · cases read
          rfl
        · cases read
        · cases read
      · rw [if_neg five] at read
        rw [if_neg (mt same.mp five)]
        cases read
        rfl

theorem readMsgId_fits {curdata rest : Bytes} (read : readMsgId qos curdata = some (msgId, rest)) :
    msgId ≤ maxMsgId := by
  unfold readMsgId at read
  split at read
  · rcases curdata with _ | ⟨first, _ | ⟨second, curdata⟩⟩
    · cases read
    · cases read
    · cases read
      have := first.toNat_lt
      have := second.toNat_lt
      simp only [maxMsgId]
      omega
  · cases read
    exact Nat.zero_le _

theorem msgId_of_publish (read : publish mqttVersion header body = some (.pack pack)) :
    pack.msgId ≤ maxMsgId := by
  unfold publish at read
  dsimp only at read
  split at read
  · cases read
  split at read
  · cases read
  next msgId rest isId =>
    have fits := readMsgId_fits isId
    split at read
    · split at read
      · cases read
        exact fits
      · cases read
      · cases read
    · cases read
      exact fits

/-- What `MQTTPacket_publish` reads from a body is what is restored from the record with that body,
except for the version. -/
theorem encodes_publish {stem : Stem} {key : Nat}
    (isStem : stem = .publishSent ∨ stem = .publishReceived)
    (isType : (Header.ofByte header).type = publishType) (short : body.length < 268435456)
    (read : publish mqttVersion header body = some (.pack pack)) :
    Encodes (MQTTPersistence.key stem mqttVersion key) (.publish (sessionPublish pack))
      (header :: (encode body.length ++ body)) := by
  have same := dataVersion_five mqttVersion
  have restored := publish_version same read
  apply Encodes.publish isStem
  · rw [restorePacket_frame short, storedContent]
    dsimp only [MQTTPersistence.key]
    rw [if_pos isType, restored]
    rfl
  · rfl
  · exact msgId_of_publish read

theorem readMsgId_writeInt (fits : msgId ≤ maxMsgId) (rest : Bytes) :
    readMsgId 1 (writeInt msgId ++ rest) = some (msgId, rest) :=
  @readMsgId_write 1 msgId (fun _ => fits) rest

/-- The record of a PUBREL. -/
theorem encodes_pubrel (fits : msgId ≤ maxMsgId) (mqttVersion : Nat) (dup : Bool) :
    Encodes (MQTTPersistence.key .pubrel mqttVersion msgId) (.pubrel msgId)
      (Header.byte ⟨pubrelType, dup, 1, false⟩ ::
        (encode (writeInt msgId).length ++ writeInt msgId)) := by
  have isHeader : Header.ofByte (Header.byte ⟨pubrelType, dup, 1, false⟩) =
      ⟨pubrelType, dup, 1, false⟩ :=
    Header.ofByte_byte (show pubrelType < 16 by decide) (show 1 < 4 by decide)
  have high : (UInt8.ofNat (msgId / 256)).toNat = msgId / 256 := by
    simp only [maxMsgId] at fits
    exact Nat.mod_eq_of_lt (by omega)
  have low : (UInt8.ofNat (msgId % 256)).toNat = msgId % 256 := Nat.mod_eq_of_lt (by omega)
  have value : 256 * (msgId / 256) + msgId % 256 = msgId := Nat.div_add_mod msgId 256
  have short : (writeInt msgId).length < 268435456 := by simp [writeInt]
  have isAck (version : Nat) : ∃ rc properties,
      MQTTPacket.ack version pubrelType (writeInt msgId) =
        some (.pack (.ack (some msgId) rc properties)) := by
    have isBytes : writeInt msgId = [UInt8.ofNat (msgId / 256), UInt8.ofNat (msgId % 256)] := rfl
    unfold MQTTPacket.ack
    rw [if_neg (by decide), isBytes]
    dsimp only
    rw [high, low, value, ackTail]
    by_cases five : mqttVersion5 ≤ version
    · rw [if_pos five, if_neg (by simp)]
      exact ⟨_, _, rfl⟩
    · rw [if_neg five]
      exact ⟨_, _, rfl⟩
  rcases isAck (dataVersion (decide (mqttVersion5 ≤ mqttVersion))) with ⟨rc, properties, isAck⟩
  have content := isAck
  rw [← show serverContent (dataVersion (decide (mqttVersion5 ≤ mqttVersion))) pubrelType
    (writeInt msgId) = MQTTPacket.ack _ pubrelType (writeInt msgId) from rfl] at content
  apply Encodes.pubrel rfl
  · rw [restorePacket_frame short, storedContent]
    dsimp only [MQTTPersistence.key]
    rw [serverPacket, isHeader]
    dsimp only
    rw [if_neg (by decide), if_neg (by decide), if_pos (by decide), content]
    rfl
  · exact fits

end Bytes

/-! ## Runs -/

/-- The calls with which a client changes its records, and the end of the process. -/
inductive Call where
  /-- A PUBLISH is sent. -/
  | sendPublish (pack : PublishPacket) (dup : Bool) (qos : Nat) (retained : Bool)
  /-- A PUBREL is sent. -/
  | sendPubrel (mqttVersion msgId : Nat) (dup : Bool)
  /-- `MQTTPacket_Factory` has a PUBLISH. -/
  | receivePublish (mqttVersion : Nat) (header : UInt8) (data : Bytes)
  | remove (type : Stem) (msgId : Nat)
  | unpersistInflightMessages
  /-- A command, or a message in the queue, is put. -/
  | putEntry (k : PersistenceKey) (buffers : List Bytes)
  | removeEntry (k : PersistenceKey)
  /-- `MQTTPersistence_initialize` for a new client with the same identifier. -/
  | restart (mqttVersion : Nat)

/-- A call as the client makes it: with message ids that are ids, with packets that it can send, and
with what a server sends as long as it is not read past its end. -/
def Call.Valid : Call → Prop
  | .sendPublish pack _ qos _ => pack.Sendable qos
  | .sendPubrel _ msgId _ => msgId ≤ maxMsgId
  | .receivePublish mqttVersion header data => (Header.ofByte header).type = publishType ∧
      data.length < 268435456 ∧ publish mqttVersion header data ≠ none
  | .remove _ msgId => msgId ≤ maxMsgId
  | .putEntry k _ => MQTTPersistence.isInflight k = false ∧ k.number < 10 ^ 6
  | .removeEntry k => MQTTPersistence.isInflight k = false ∧ k.number < 10 ^ 6
  | _ => True

/-- A new client. -/
def created (c : Clients) (mqttVersion : Nat) : Clients :=
  { c with
    mqttVersion := mqttVersion
    inboundMsgs := []
    outboundMsgs := [] }

section Perform

variable {Dir : Type} [DecidableEq Dir] (handle : Path) (c : Clients)
  (files : FileSystem Dir UInt8)

/-- A call on the files: whether its return code is 0, the client and the files. -/
def perform : Call → Option (Bool × Clients × FileSystem Dir UInt8)
  | .sendPublish pack dup qos retained =>
      (putSends handle files ⟨publishType, dup, qos, retained⟩ (publishBuffers pack qos)
        pack.mqttVersion).map fun result => (result.1, c, result.2)
  | .sendPubrel mqttVersion msgId dup =>
      (putSend handle files ⟨pubrelType, dup, 1, false⟩ (writeInt msgId) mqttVersion).map
        fun result => (result.1, c, result.2)
  | .receivePublish mqttVersion header data =>
      (publish mqttVersion header data).map fun
        | .pack pack =>
            let result := putReceived handle files header data pack mqttVersion
            (result.1, c, result.2)
        | _ => (true, c, files)
  | .remove type msgId =>
      let result := remove handle files type msgId
      some (result.1, c, result.2)
  | .unpersistInflightMessages =>
      let result := unpersistInflightMessages handle files
      some (result.1, c, result.2)
  | .putEntry k buffers =>
      match writeKey k with
      | some text =>
          let result := pstput files handle text buffers
          some (result.1, c, result.2)
      | none => some (false, c, files)
  | .removeEntry k =>
      let result := removeLoop handle true [k] files
      some (result.1, c, result.2)
  | .restart mqttVersion => restorePackets handle (created c mqttVersion) files

/-- The calls one after the other, with their return codes. -/
def run (c : Clients) (files : FileSystem Dir UInt8) :
    List Call → Option (List Bool × Clients × FileSystem Dir UInt8)
  | [] => some ([], c, files)
  | call :: calls =>
      (perform handle c files call).bind fun (rc, c, files) =>
        (run c files calls).map fun (rcs, result) => (rc :: rcs, result)

end Perform

/-- The calls on the records. What a command or an entry of the queue is, as a record, is left
open. -/
inductive Does (c : Clients) : Call → Bool → Clients → Prop
  | sendPublish {pack : PublishPacket} {dup : Bool} {qos : Nat} {retained : Bool} :
      Does c (.sendPublish pack dup qos retained) true
        (if qos = 0 then c
        else MQTTPersistence.putPacket c
          (.publish (sessionPublish (pack.arriving dup qos retained))) .publish pack.msgId 0
          pack.mqttVersion)
  | sendPubrel {mqttVersion msgId : Nat} {dup : Bool} : Does c (.sendPubrel mqttVersion msgId dup)
      true (MQTTPersistence.putPacket c (.pubrel msgId) .pubrel msgId 0 mqttVersion)
  | received {mqttVersion : Nat} {header : UInt8} {data : Bytes} {pack : PublishPacket}
      (read : publish mqttVersion header data = some (.pack pack)) :
      Does c (.receivePublish mqttVersion header data) true
        (MQTTPacket.persistReceived c (sessionPublish pack))
  | bad {mqttVersion : Nat} {header : UInt8} {data : Bytes}
      (notRead : ∀ pack, publish mqttVersion header data ≠ some (.pack pack)) :
      Does c (.receivePublish mqttVersion header data) true c
  | remove {type : Stem} {msgId : Nat} :
      Does c (.remove type msgId) true (MQTTPersistence.remove c type msgId)
  | unpersistInflightMessages :
      Does c .unpersistInflightMessages true (MQTTPersistence.unpersistInflightMessages c)
  | putEntry {k : PersistenceKey} {buffers : List Bytes} {record : Record} :
      Does c (.putEntry k buffers) true (c.putRecord k record)
  | removeEntry {k : PersistenceKey} : Does c (.removeEntry k) true (c.removeRecords [k])
  | restart {mqttVersion : Nat} {keys : List PersistenceKey} (listed : keys.Perm c.recordKeys) :
      Does c (.restart mqttVersion)
        (MQTTPersistence.restorePackets (created c mqttVersion) keys).1
        (MQTTPersistence.restorePackets (created c mqttVersion) keys).2

section Runs

variable {Dir : Type} [DecidableEq Dir] {base files : FileSystem Dir UInt8} {handle : Path}
  {dir : Dir} {c c' : Clients}

/-- A record is put under its key. -/
theorem Holds.pput (holds : Holds base handle dir c c' files) {k : PersistenceKey}
    {record : Record} {buffers : List Bytes} (fits : k.number < 10 ^ 6)
    (encodes : Encodes k record buffers.flatten) :
    ∃ files', pstput files handle (keyText k) buffers = (true, files') ∧
      Holds base handle dir (c.putRecord k record) c' files' := by
  rcases holds with ⟨persistent, stores⟩
  rcases stores.put fits encodes with ⟨files', put, stores'⟩
  refine ⟨files', put, @Holds.mk Dir base handle dir (c.putRecord k record) _ _ ?_ stores'⟩
  rw [Clients.putRecord, persistent]
  rfl

theorem Holds.premoves (holds : Holds base handle dir c c' files) {keys : List PersistenceKey}
    (fits : ∀ k ∈ keys, k.number < 10 ^ 6) :
    ∃ files', removeLoop handle true keys files = (true, files') ∧
      Holds base handle dir (c.removeRecords keys) c' files' := by
  rcases holds with ⟨persistent, stores⟩
  rcases stores.removeLoop fits with ⟨files', removed, stores'⟩
  refine ⟨files', removed, @Holds.mk Dir base handle dir (c.removeRecords keys) _ _ ?_ stores'⟩
  rw [Clients.removeRecords, persistent]
  rfl

theorem Holds.unpersistInflightMessages (holds : Holds base handle dir c c' files) :
    ∃ files', unpersistInflightMessages handle files = (true, files') ∧
      Holds base handle dir (MQTTPersistence.unpersistInflightMessages c) c' files' := by
  rcases holds with ⟨persistent, stores⟩
  rcases stores.unpersistInflightMessages with ⟨files', removed, stores'⟩
  refine ⟨files', removed, @Holds.mk Dir base handle dir
    (MQTTPersistence.unpersistInflightMessages c) _ _ ?_ stores'⟩
  rw [MQTTPersistence.unpersistInflightMessages, Clients.removeRecords, Clients.recordKeys,
    persistent]
  rfl

omit [DecidableEq Dir] in
theorem Holds.created (holds : Holds base handle dir c c' files) (mqttVersion : Nat) :
    Holds base handle dir (created c mqttVersion) (created c' mqttVersion) files := by
  rcases holds with ⟨persistent, stores⟩
  exact @Holds.mk Dir base handle dir (RecordFiles.created c mqttVersion) _ _ persistent stores

theorem putSends_eq {pack : PublishPacket} {qos : Nat} (sendable : pack.Sendable qos)
    (present : 0 < qos) (dup retained : Bool) :
    ∃ buf0 buffers, putSends handle files ⟨publishType, dup, qos, retained⟩
        (publishBuffers pack qos) pack.mqttVersion =
          some (putPacket handle files buf0 buffers .publish pack.msgId 0 pack.mqttVersion) ∧
      (buf0 :: buffers).flatten = Header.byte ⟨publishType, dup, qos, retained⟩ ::
        (encode (publishBody pack qos).length ++ publishBody pack qos) := by
  have exact := exact_publishBuffers sendable
  have total := (@sends_exact ⟨publishType, dup, qos, retained⟩ _ exact).2
  have whole : ((publishBuffers pack qos).map fun buf => buf.buffer.take buf.buflen) =
      (publishBuffers pack qos).map (·.buffer) := by
    apply List.map_congr_left
    intro buf mem
    rw [show buf.buflen = buf.buffer.length from exact buf mem, List.take_length]
  have third : ((publishBuffers pack qos)[2]?.bind fun buf => bufferId buf.buffer) =
      some pack.msgId := by
    have msgIdFits : pack.msgId ≤ maxMsgId := (sendable.msgIdFits present).2
    rw [publishBuffers, variableBuffer, if_pos (.inl present)]
    simp only [if_pos present, List.singleton_append, List.getElem?_cons_succ,
      List.getElem?_cons_zero, Option.bind_some, bufferId]
    rw [readMsgId_writeInt msgIdFits]
    rfl
  refine ⟨Header.byte ⟨publishType, dup, qos, retained⟩ ::
    encode (totalLength (publishBuffers pack qos)),
    (publishBuffers pack qos).map fun buf => buf.buffer.take buf.buflen, ?_, ?_⟩
  · rw [putSends, if_pos ⟨rfl, Nat.ne_of_gt present⟩,
      if_pos fun buf mem => Nat.le_of_eq (exact buf mem), third]
    rfl
  · rw [whole, total, List.flatten_cons, publishBody, List.flatMap_def]
    rfl

theorem Holds.sendPublish (holds : Holds base handle dir c c' files) {pack : PublishPacket}
    {qos : Nat} (sendable : pack.Sendable qos) (dup retained : Bool) :
    ∃ next next' files', perform handle c' files (.sendPublish pack dup qos retained) =
        some (true, next', files') ∧
      Does c (.sendPublish pack dup qos retained) true next ∧
      Holds base handle dir next next' files' := by
  by_cases present : 0 < qos
  · have msgIdFits : pack.msgId ≤ maxMsgId := (sendable.msgIdFits present).2
    rcases @putSends_eq Dir _ files handle _ _ sendable present dup retained with
      ⟨buf0, buffers, sent, flat⟩
    have isHeader := ofByte_publish sendable.isQoS dup retained
    have encodes : Encodes (MQTTPersistence.key .publishSent pack.mqttVersion pack.msgId)
        (.publish (sessionPublish (pack.arriving dup qos retained))) (buf0 :: buffers).flatten := by
      rw [flat]
      apply encodes_publish (.inl rfl) (congrArg Header.type isHeader)
      · exact (sendPublish_eq sendable dup retained).2
      · exact publish_body sendable dup retained
    rcases holds.pput (maxMsgId_lt msgIdFits) encodes with ⟨files', put, holds'⟩
    have done := @Does.sendPublish c pack dup qos retained
    rw [if_neg (Nat.ne_of_gt present)] at done
    refine ⟨_, c', files', ?_, done, holds'⟩
    rw [RecordFiles.perform, sent, RecordFiles.putPacket, if_pos rfl]
    rw [writeKey_eq (maxMsgId_lt msgIdFits)]
    dsimp only
    rw [put]
    rfl
  · obtain rfl : qos = 0 := Nat.eq_zero_of_not_pos present
    exact ⟨c, c', files, rfl, .sendPublish, holds⟩

theorem Holds.sendPubrel (holds : Holds base handle dir c c' files) {msgId : Nat}
    (fits : msgId ≤ maxMsgId) (mqttVersion : Nat) (dup : Bool) :
    ∃ next next' files', perform handle c' files (.sendPubrel mqttVersion msgId dup) =
        some (true, next', files') ∧
      Does c (.sendPubrel mqttVersion msgId dup) true next ∧
      Holds base handle dir next next' files' := by
  have encodes : Encodes (MQTTPersistence.key .pubrel mqttVersion msgId) (.pubrel msgId)
      ((Header.byte ⟨pubrelType, dup, 1, false⟩ :: encode (writeInt msgId).length) ::
        [writeInt msgId]).flatten := by
    rw [List.flatten_cons, List.flatten_singleton, List.cons_append]
    exact encodes_pubrel fits mqttVersion dup
  rcases holds.pput (maxMsgId_lt fits) encodes with ⟨files', put, holds'⟩
  have isId : bufferId (writeInt msgId) = some msgId := by
    have read := readMsgId_writeInt fits []
    rw [List.append_nil] at read
    rw [bufferId, read]
    rfl
  refine ⟨_, c', files', ?_, .sendPubrel, holds'⟩
  rw [RecordFiles.perform, putSend, if_pos rfl, isId, Option.map_some, RecordFiles.putPacket,
    if_pos rfl]
  rw [writeKey_eq (maxMsgId_lt fits)]
  dsimp only
  rw [put]
  rfl

theorem Holds.received (holds : Holds base handle dir c c' files) {mqttVersion : Nat}
    {header : UInt8} {data : Bytes} {pack : PublishPacket}
    (isType : (Header.ofByte header).type = publishType) (short : data.length < 268435456)
    (read : publish mqttVersion header data = some (.pack pack)) :
    ∃ files', putReceived handle files header data pack mqttVersion = (true, files') ∧
      Holds base handle dir (MQTTPacket.persistReceived c (sessionPublish pack)) c' files' := by
  have isQoS : (sessionPublish pack).qos = (Header.ofByte header).qos ∧
      pack.mqttVersion = mqttVersion := by
    refine ⟨?_, (publish_spec read).isVersion⟩
    unfold publish at read
    dsimp only at read
    split at read
    · cases read
    split at read
    · cases read
    split at read
    · split at read
      · cases read
        rfl
      · cases read
      · cases read
    · cases read
      rfl
  have msgIdFits := msgId_of_publish read
  by_cases two : (Header.ofByte header).qos = 2
  · have encodes : Encodes (MQTTPersistence.key .publishReceived mqttVersion pack.msgId)
        (.publish (sessionPublish pack)) ((header :: encode data.length) :: [data]).flatten := by
      rw [List.flatten_cons, List.flatten_singleton, List.cons_append]
      exact encodes_publish (.inr rfl) isType short read
    rcases holds.pput (maxMsgId_lt msgIdFits) encodes with ⟨files', put, holds'⟩
    refine ⟨files', ?_, ?_⟩
    · rw [putReceived, if_pos two, RecordFiles.putPacket, if_neg (by decide)]
      rw [writeKey_eq (maxMsgId_lt msgIdFits)]
      exact put
    · rw [MQTTPacket.persistReceived, if_pos (isQoS.1.trans two)]
      rw [← isQoS.2] at holds'
      exact holds'
  · refine ⟨files, ?_, ?_⟩
    · rw [putReceived, if_neg two]
    · rwa [MQTTPacket.persistReceived, if_neg (isQoS.1.trans_ne two)]

theorem removedKeys_number (type : Stem) (msgId : Nat) :
    ∀ k ∈ MQTTPersistence.removedKeys type msgId, k.number = msgId := by
  unfold MQTTPersistence.removedKeys
  split
  · simp
  · simp

/-- A call does to the files what it does to the records. -/
theorem Holds.perform (holds : Holds base handle dir c c' files) {call : Call}
    (valid : call.Valid) :
    ∃ rc next next' files', perform handle c' files call = some (rc, next', files') ∧
      Does c call rc next ∧ Holds base handle dir next next' files' := by
  cases call with
  | sendPublish pack dup qos retained => exact ⟨true, holds.sendPublish valid dup retained⟩
  | sendPubrel mqttVersion msgId dup => exact ⟨true, holds.sendPubrel valid mqttVersion dup⟩
  | receivePublish mqttVersion header data =>
      rcases valid with ⟨isType, short, inside⟩
      rcases Option.ne_none_iff_exists'.mp inside with ⟨result, read⟩
      cases result with
      | pack pack =>
          rcases holds.received isType short read with ⟨files', put, holds'⟩
          refine ⟨true, _, c', files', ?_, .received read, holds'⟩
          rw [RecordFiles.perform, read, Option.map_some]
          dsimp only
          rw [put]
      | bad =>
          refine ⟨true, c, c', files, ?_, .bad fun pack other => ?_, holds⟩
          · rw [RecordFiles.perform, read]
            rfl
          · rw [read] at other
            cases other
      | unknown =>
          refine ⟨true, c, c', files, ?_, .bad fun pack other => ?_, holds⟩
          · rw [RecordFiles.perform, read]
            rfl
          · rw [read] at other
            cases other
  | remove type msgId =>
      have fits : ∀ k ∈ MQTTPersistence.removedKeys type msgId, k.number < 10 ^ 6 := by
        intro k mem
        rw [removedKeys_number type msgId k mem]
        exact maxMsgId_lt valid
      rcases holds.premoves fits with ⟨files', removed, holds'⟩
      refine ⟨true, _, c', files', ?_, .remove, holds'⟩
      rw [RecordFiles.perform, RecordFiles.remove, removed]
  | unpersistInflightMessages =>
      rcases holds.unpersistInflightMessages with ⟨files', removed, holds'⟩
      refine ⟨true, _, c', files', ?_, .unpersistInflightMessages, holds'⟩
      rw [RecordFiles.perform, removed]
  | putEntry k buffers =>
      rcases valid with ⟨isEntry, fits⟩
      rcases holds.pput fits (.entry .unreadable buffers.flatten isEntry) with
        ⟨files', put, holds'⟩
      refine ⟨true, _, c', files', ?_, .putEntry, holds'⟩
      rw [RecordFiles.perform, writeKey_eq fits]
      dsimp only
      rw [put]
  | removeEntry k =>
      rcases holds.premoves (List.forall_mem_singleton.mpr valid.2) with ⟨files', removed, holds'⟩
      refine ⟨true, _, c', files', ?_, .removeEntry, holds'⟩
      rw [RecordFiles.perform, removed]
  | restart mqttVersion =>
      rcases (holds.created mqttVersion).restorePackets with
        ⟨keys, listed, restored, files', done, holds'⟩
      exact ⟨_, _, restored, files', done, .restart listed, holds'⟩

/--
**Sessions in files**

Whatever a client stores, and however often its process ends, the files hold the same records as
a finite map would, every call succeeds as it does there, and the session that is restored is the
same. The other directories stay as they are.
-/
theorem run_files (holds : Holds base handle dir c c' files) {calls : List Call}
    (valid : ∀ call ∈ calls, call.Valid) :
    ∃ rcs last last' files', run handle c' files calls = some (rcs, last', files') ∧
      Machine.Trace Does c calls rcs last ∧ Holds base handle dir last last' files' := by
  induction calls generalizing c c' files with
  | nil => exact ⟨[], c, c', files, rfl, .nil c, holds⟩
  | cons call calls ih =>
      rcases List.forall_mem_cons.mp valid with ⟨first, others⟩
      rcases holds.perform first with ⟨rc, next, next', files', performed, does, holds'⟩
      rcases ih holds' others with ⟨rcs, last, last', files'', ran, trace, holds''⟩
      refine ⟨rc :: rcs, last, last', files'', ?_, .cons does trace, holds''⟩
      rw [run, performed, Option.bind_some]
      dsimp only
      rw [ran]
      rfl

omit [DecidableEq Dir] in
/-- A new client whose directory is empty. -/
theorem holds_empty (opened : files.resolve handle = some dir)
    (empty : ∀ name, (files.directories dir).entry name = none)
    (persistent : c.persistence = some ∅) :
    Holds files handle dir c { c with persistence := none } files := by
  refine .mk persistent ⟨opened, ⟨fun _ => none, ?_, ?_, ?_, ?_⟩, fun _ _ => rfl⟩
  · exact represents_none empty
  · intro k mem
    cases (AList.lookup_isSome.mpr mem)
  · exact fun k => .none
  · intro key live
    cases live

/-- A file system with one empty directory. -/
def oneDirectory (handle : Path) : FileSystem Unit UInt8 where
  directories _ := ⟨[], fun _ => none, List.nodup_nil, Directory.mem_names_nil⟩
  resolve path := if path = handle then some () else none
  cwd := ()

/-- A PUBLISH, its PUBREL and the end of the process. -/
def released : List Call :=
  [.sendPublish ⟨false, 2, false, [97], 0, 7, [104, 105], 4, .initializer⟩ false 2 false,
    .sendPubrel 4 7 false, .restart 4]

theorem run_files_released :
    ((run "a-b".toList (Session.create 4 false none) (oneDirectory "a-b".toList) released).any
      fun result => result.1 = [true, true, true] ∧
        result.2.1.outboundMsgs.map Messages.nextMessageType = [some .pubcomp]) = true ∧
      ∃ rcs last last' files',
        run "a-b".toList (Session.create 4 false none) (oneDirectory "a-b".toList) released =
          some (rcs, last', files') ∧
        Machine.Trace Does (Session.create 4 false (some ∅)) released rcs last ∧
        Holds (oneDirectory "a-b".toList) "a-b".toList () last last' files' := by
  refine ⟨by decide +kernel, ?_⟩
  have sendable : PublishPacket.Sendable
      ⟨false, 2, false, [97], 0, 7, [104, 105], 4, .initializer⟩ 2 :=
    ⟨by decide, by decide, by decide, fun _ => by decide, fun five => absurd five (by decide),
      by decide⟩
  have holds : Holds (oneDirectory "a-b".toList) "a-b".toList () (Session.create 4 false (some ∅))
      (Session.create 4 false none) (oneDirectory "a-b".toList) :=
    holds_empty (by simp [oneDirectory]) (fun _ => rfl) rfl
  refine run_files holds ?_
  simp only [released, List.forall_mem_cons]
  exact ⟨sendable, show 7 ≤ maxMsgId by decide, trivial, by simp⟩

end Runs

end RecordFiles

end Paho
