import Paho.Protocol.Filing

/-!
# Restoring a session

What `MQTTPersistence_restorePackets` makes of a store whose records are filed under the keys
that this client writes: the messages in flight are exactly those that have a publish record,
and PUBREL records without a publish record go.
-/

namespace Paho

namespace MQTTPersistence

theorem insertInOrder_perm (content : Messages) (messages : List Messages) :
    (insertInOrder content messages).Perm (content :: messages) := by
  induction messages with
  | nil => exact .refl _
  | cons m rest ih =>
      unfold insertInOrder
      split
      · exact .refl _
      · exact (ih.cons m).trans (.swap content m rest)

theorem wrapMsgID_perm (messages : List Messages) : (wrapMsgID messages).Perm messages := by
  cases messages with
  | nil => exact .refl _
  | cons first rest =>
      unfold wrapMsgID
      exact List.perm_append_comm.trans (.of_eq (List.take_append_drop _ _))

end MQTTPersistence

namespace Exchange

open MQTTPersistence

/-- The outbound message that a publish-sent record is restored to. -/
def restoredSent (e : Exchange) (publish : Publish) : Messages :=
  let publish := { publish with mqttVersion := e.mqttVersion }
  let msg := MQTTProtocol.createMessage publish publish.qos publish.retain 0
  { msg with
    nextMessageType :=
      if (e.record (key .pubrel e.mqttVersion publish.msgId)).isSome then some .pubcomp
      else msg.nextMessageType }

/-- The inbound message that a publish-received record is restored to. -/
def restoredReceived (e : Exchange) (publish : Publish) : Messages :=
  let publish := { publish with mqttVersion := e.mqttVersion }
  let msg := MQTTProtocol.createMessage publish publish.qos publish.retain 0
  { msg with
    nextMessageType := some .pubrel
    publish := if mqttVersion5 ≤ e.mqttVersion then some ⟨none, none⟩ else msg.publish }

/-- A PUBREL record that belongs to no publish-sent record. -/
def Orphan (e : Exchange) (k : PersistenceKey) : Prop :=
  k.stem = .pubrel ∧ e.record ⟨.publishSent, k.v5, k.number⟩ = none

/-- What a restart makes of a session. -/
structure Restores (e e' : Exchange) : Prop where
  mqttVersion : e'.mqttVersion = e.mqttVersion
  queue : e'.queue = []
  persistent : e'.persistent = e.persistent
  trace : e'.trace = .restarted :: e.trace
  orphan : ∀ k, e.Orphan k → e'.record k = none
  record : ∀ k, ¬e.Orphan k → e'.record k = e.record k
  outbound : ∀ m, m ∈ e'.outbound ↔ ∃ publish : Publish,
    e.record (key .publishSent e.mqttVersion publish.msgId) = some (.publish publish) ∧
      m = e.restoredSent publish
  distinctOutbound : (ids e'.outbound).Nodup
  inbound : ∀ m, m ∈ e'.inbound ↔ ∃ publish : Publish,
    e.record (key .publishReceived e.mqttVersion publish.msgId) = some (.publish publish) ∧
      m = e.restoredReceived publish
  distinctInbound : (ids e'.inbound).Nodup

end Exchange

namespace MQTTPersistence

/-- The PUBLISH that the store holds under a key of this stem. -/
def publishOf (e : Exchange) (stem : Stem) (k : PersistenceKey) : Option Publish :=
  if k.stem = stem then
    match e.record k with
    | some (.publish publish) => some publish
    | _ => none
  else none

/-- What the loop of `MQTTPersistence_restorePackets` adds to `outboundMsgs` for a key. -/
def sentOf (e : Exchange) (k : PersistenceKey) : Option Messages :=
  (publishOf e .publishSent k).map e.restoredSent

/-- What the loop adds to `inboundMsgs` for a key. -/
def receivedOf (e : Exchange) (k : PersistenceKey) : Option Messages :=
  (publishOf e .publishReceived k).map e.restoredReceived

/-- The state of the loop after some keys. -/
structure RestoredKeys (e : Exchange) (keys : List PersistenceKey) (e' : Exchange) : Prop where
  mqttVersion : e'.mqttVersion = e.mqttVersion
  queue : e'.queue = e.queue
  persistent : e'.persistent = e.persistent
  trace : e'.trace = e.trace
  orphan : ∀ k ∈ keys, e.Orphan k → e'.record k = none
  record : ∀ k, (k ∈ keys → ¬e.Orphan k) → e'.record k = e.record k
  outbound : e'.outbound.Perm (e.outbound ++ keys.filterMap (sentOf e))
  inbound : e'.inbound = e.inbound ++ keys.filterMap (receivedOf e)

section Loop

variable {c : Clients} {k : PersistenceKey} {keys : List PersistenceKey} {record : Record}

theorem publishOf_eq_some {e : Exchange} {stem : Stem} {publish : Publish} :
    publishOf e stem k = some publish ↔ k.stem = stem ∧ e.record k = some (.publish publish) := by
  unfold publishOf
  split
  next same =>
    split
    next stored => simp [same, stored]
    next other => simpa [same] using other publish
  next different => simp [different]

theorem sentOf_of_stem {e : Exchange} (stem : k.stem ≠ .publishSent) : sentOf e k = none := by
  simp [sentOf, publishOf, stem]

theorem receivedOf_of_stem {e : Exchange} (stem : k.stem ≠ .publishReceived) :
    receivedOf e k = none := by
  simp [receivedOf, publishOf, stem]

theorem not_orphan_of_stem {e e' : Exchange} (stem : k.stem ≠ .pubrel) :
    ∀ other ∈ [k], e.Orphan other → e'.record other = none := by
  intro other mem orphan
  rw [List.mem_singleton.mp mem] at orphan
  exact absurd orphan.1 stem

theorem exchange_insertInOrder_perm (content : Messages) (messages : List Messages) :
    ((insertInOrder content messages).map Messages.untouched).Perm
      (messages.map Messages.untouched ++ [content.untouched]) :=
  ((insertInOrder_perm content messages).map Messages.untouched).trans
    (List.perm_append_singleton _ _).symm

/-- The version check passes for records of this client. -/
theorem version_checked (wellKeyed : c.exchange.WellKeyed) (inflight : isInflight k)
    (present : c.record k = some record) : ¬(k.v5 = true ∧ c.mqttVersion < mqttVersion5) := by
  rintro ⟨v5, old⟩
  have form := wellKeyed.form inflight present
  have new : mqttVersion5 ≤ c.mqttVersion := of_decide_eq_true (form.symm.trans v5)
  omega

/-- One round of the loop. -/
theorem restoreKey_spec (wellKeyed : c.exchange.WellKeyed) (present : c.record k = some record) :
    ∃ after, restoreKey c k = .continues after ∧
      RestoredKeys c.exchange [k] after.exchange := by
  rcases k with ⟨stem, v5, number⟩
  have stored : c.exchange.record ⟨stem, v5, number⟩ = some record := present
  cases stem with
  | command =>
      exact ⟨c, by simp [restoreKey], rfl, rfl, rfl, rfl, not_orphan_of_stem Stem.noConfusion,
        fun _ _ => rfl, by simp [sentOf_of_stem], by simp [receivedOf_of_stem]⟩
  | queue =>
      exact ⟨c, by simp [restoreKey], rfl, rfl, rfl, rfl, not_orphan_of_stem Stem.noConfusion,
        fun _ _ => rfl, by simp [sentOf_of_stem], by simp [receivedOf_of_stem]⟩
  | publishReceived =>
      obtain ⟨publish, rfl, _⟩ := wellKeyed.publishReceived stored
      have checked := version_checked wellKeyed rfl present
      refine ⟨{ c with inboundMsgs := c.inboundMsgs ++ [restoredReceived c publish] },
        by simp [restoreKey, present, checked], rfl, rfl, rfl, rfl,
        not_orphan_of_stem Stem.noConfusion, fun _ _ => rfl, ?_, ?_⟩
      · rw [List.filterMap_cons_none (sentOf_of_stem Stem.noConfusion), List.filterMap_nil,
          List.append_nil]
        exact .refl _
      · simp only [receivedOf, publishOf, stored, if_true, Option.map_some, List.filterMap_cons,
          List.filterMap_nil]
        exact List.map_append
  | publishSent =>
      obtain ⟨publish, rfl, _⟩ := wellKeyed.publishSent stored
      have checked := version_checked wellKeyed rfl present
      refine ⟨{ c with outboundMsgs := insertInOrder (restoredSent c publish) c.outboundMsgs },
        by simp [restoreKey, present, checked], rfl, rfl, rfl, rfl,
        not_orphan_of_stem Stem.noConfusion, fun _ _ => rfl, ?_, ?_⟩
      · simp only [sentOf, publishOf, stored, if_true, Option.map_some, List.filterMap_cons,
          List.filterMap_nil]
        exact exchange_insertInOrder_perm _ _
      · rw [List.filterMap_cons_none (receivedOf_of_stem Stem.noConfusion), List.filterMap_nil,
          List.append_nil]
        rfl
  | pubrel =>
      have pubrel := wellKeyed.pubrel stored
      subst pubrel
      have checked := version_checked wellKeyed rfl present
      have form := wellKeyed.form rfl stored
      have sameKey : key .publishSent c.mqttVersion number = ⟨.publishSent, v5, number⟩ := by
        simp only [key, PersistenceKey.mk.injEq, true_and, and_true]
        exact form.symm
      by_cases owned : (c.record ⟨.publishSent, v5, number⟩).isSome
      · refine ⟨c, by simp [restoreKey, present, checked, sameKey, owned],
          rfl, rfl, rfl, rfl, ?_, fun _ _ => rfl, ?_, ?_⟩
        · intro k mem orphan
          rw [List.mem_singleton.mp mem] at orphan
          have absent : c.record ⟨.publishSent, v5, number⟩ = none := orphan.2
          simp [absent] at owned
        · simp [sentOf_of_stem]
        · simp [receivedOf_of_stem]
      · have removed := Clients.exchange_removeRecords c [⟨.pubrel, v5, number⟩]
        refine ⟨c.removeRecords [⟨.pubrel, v5, number⟩],
          by simp [restoreKey, present, checked, sameKey, owned], rfl, rfl, ?_, rfl, ?_, ?_, ?_, ?_⟩
        · rw [removed]
          rfl
        · intro k mem _
          rw [removed, Exchange.erase_record, if_pos mem]
        · intro k notOrphan
          rw [removed, Exchange.erase_record]
          refine if_neg fun mem => notOrphan mem ?_
          rw [List.mem_singleton.mp mem]
          exact ⟨rfl, Option.not_isSome_iff_eq_none.mp owned⟩
        · rw [removed]
          simp [sentOf_of_stem]
        · rw [removed]
          simp [receivedOf_of_stem]

/-- The removal of orphans does not change what a publish-sent record is restored to. -/
theorem sentOf_congr {e e' : Exchange} (wellKeyed : e.WellKeyed)
    (version : e'.mqttVersion = e.mqttVersion)
    (same : ∀ k, ¬e.Orphan k → e'.record k = e.record k) : sentOf e' k = sentOf e k := by
  by_cases stem : k.stem = .publishSent
  · rcases k with ⟨_, v5, number⟩
    subst stem
    have sent := same ⟨.publishSent, v5, number⟩ fun orphan => Stem.noConfusion orphan.1
    cases stored : e.record ⟨.publishSent, v5, number⟩ with
    | none => simp [sentOf, publishOf, sent, stored]
    | some record =>
        obtain ⟨publish, rfl, rfl⟩ := wellKeyed.publishSent stored
        have form := wellKeyed.form rfl stored
        have owned : ¬e.Orphan (key .pubrel e.mqttVersion publish.msgId) := by
          rintro ⟨_, absent⟩
          simp only [key, ← form] at absent
          simp [stored] at absent
        have pubrel := same _ owned
        simp [sentOf, publishOf, sent, stored, Exchange.restoredSent, version, pubrel]
  · rw [sentOf_of_stem stem, sentOf_of_stem stem]

theorem receivedOf_congr {e e' : Exchange} (version : e'.mqttVersion = e.mqttVersion)
    (same : ∀ k, ¬e.Orphan k → e'.record k = e.record k) : receivedOf e' k = receivedOf e k := by
  by_cases stem : k.stem = .publishReceived
  · have received := same k fun orphan =>
      Stem.noConfusion (stem.symm.trans orphan.1)
    have restored : e'.restoredReceived = e.restoredReceived := by
      funext publish
      simp [Exchange.restoredReceived, version]
    simp only [receivedOf, publishOf, received, restored]
  · rw [receivedOf_of_stem stem, receivedOf_of_stem stem]

namespace RestoredKeys

variable {e mid after : Exchange} {done todo : List PersistenceKey}

theorem same (restored : RestoredKeys e done mid) (k : PersistenceKey) (notOrphan : ¬e.Orphan k) :
    mid.record k = e.record k :=
  restored.record k fun _ => notOrphan

theorem others (restored : RestoredKeys e done mid) (k : PersistenceKey) (notDone : k ∉ done) :
    mid.record k = e.record k :=
  restored.record k fun mem => absurd mem notDone

theorem orphans (restored : RestoredKeys e done mid) (k : PersistenceKey) :
    mid.Orphan k ↔ e.Orphan k := by
  unfold Exchange.Orphan
  rw [restored.same _ fun orphan => Stem.noConfusion orphan.1]

theorem subset (restored : RestoredKeys e done mid) {k : PersistenceKey} {record : Record}
    (stored : mid.record k = some record) : e.record k = some record := by
  by_cases orphan : e.Orphan k
  · by_cases isDone : k ∈ done
    · rw [restored.orphan k isDone orphan] at stored
      cases stored
    · rwa [← restored.others k isDone]
  · rwa [← restored.same k orphan]

theorem wellKeyed (restored : RestoredKeys e done mid) (wellKeyed : e.WellKeyed) :
    mid.WellKeyed :=
  wellKeyed.of_subset restored.mqttVersion fun _ _ => restored.subset

/-- Two parts of the loop after each other. -/
theorem append (wellKeyed : e.WellKeyed) (first : RestoredKeys e done mid)
    (second : RestoredKeys mid todo after) (disjoint : ∀ k ∈ done, k ∉ todo) :
    RestoredKeys e (done ++ todo) after where
  mqttVersion := second.mqttVersion.trans first.mqttVersion
  queue := second.queue.trans first.queue
  persistent := second.persistent.trans first.persistent
  trace := second.trace.trans first.trace
  orphan := by
    intro k mem orphan
    rcases List.mem_append.mp mem with isDone | isTodo
    · rw [second.others k (disjoint k isDone)]
      exact first.orphan k isDone orphan
    · exact second.orphan k isTodo ((first.orphans k).mpr orphan)
  record := by
    intro k notOrphan
    rw [second.record k fun mem orphan =>
      notOrphan (List.mem_append_right _ mem) ((first.orphans k).mp orphan)]
    exact first.record k fun mem => notOrphan (List.mem_append_left _ mem)
  outbound := by
    have sent : todo.filterMap (sentOf mid) = todo.filterMap (sentOf e) :=
      List.filterMap_congr fun _ _ => sentOf_congr wellKeyed first.mqttVersion first.same
    have perm := second.outbound.trans (first.outbound.append_right _)
    rwa [sent, List.append_assoc, ← List.filterMap_append] at perm
  inbound := by
    have received : todo.filterMap (receivedOf mid) = todo.filterMap (receivedOf e) :=
      List.filterMap_congr fun _ _ => receivedOf_congr first.mqttVersion first.same
    rw [second.inbound, first.inbound, received, List.append_assoc, ← List.filterMap_append]

end RestoredKeys

/-- The loop of `MQTTPersistence_restorePackets`. -/
theorem restoreKeys_spec (wellKeyed : c.exchange.WellKeyed)
    (present : ∀ k ∈ keys, (c.record k).isSome) (distinct : keys.Nodup) :
    ∃ after, restoreKeys c keys = .continues after ∧
      RestoredKeys c.exchange keys after.exchange := by
  induction keys generalizing c with
  | nil => exact ⟨c, rfl, rfl, rfl, rfl, rfl, by simp, fun _ _ => rfl, by simp, by simp⟩
  | cons k keys ih =>
      obtain ⟨notMem, distinct⟩ := List.nodup_cons.mp distinct
      obtain ⟨record, stored⟩ := Option.isSome_iff_exists.mp (present k List.mem_cons_self)
      obtain ⟨mid, midEq, restored⟩ := restoreKey_spec wellKeyed stored
      have presentMid : ∀ other ∈ keys, (mid.record other).isSome := by
        intro other mem
        have different : other ∉ [k] := by
          rintro isKey
          rw [List.mem_singleton] at isKey
          exact notMem (isKey ▸ mem)
        have sameRecord : mid.record other = c.record other := restored.others other different
        rw [sameRecord]
        exact present other (List.mem_cons_of_mem _ mem)
      obtain ⟨after, afterEq, restoredRest⟩ := ih (restored.wellKeyed wellKeyed) presentMid distinct
      refine ⟨after, by simp only [restoreKeys, midEq, afterEq], ?_⟩
      apply RestoredKeys.append wellKeyed restored restoredRest
      intro other mem
      rw [List.mem_singleton.mp mem]
      exact notMem

/-- A record of an in-flight message is under the key that its stem and number determine. -/
theorem key_of_record {e : Exchange} (wellKeyed : e.WellKeyed) (inflight : isInflight k)
    (present : e.record k = some record) : k = key k.stem e.mqttVersion k.number := by
  have form := wellKeyed.form inflight present
  rcases k with ⟨stem, v5, number⟩
  exact congrArg (PersistenceKey.mk stem · number) form

/-- A restored PUBLISH is filed under its own id. -/
theorem key_of_publishOf {e : Exchange} {stem : Stem} {publish : Publish}
    (wellKeyed : e.WellKeyed) (restores : stem = .publishSent ∨ stem = .publishReceived)
    (found : publishOf e stem k = some publish) :
    k = key stem e.mqttVersion publish.msgId ∧ e.record k = some (.publish publish) := by
  obtain ⟨sameStem, stored⟩ := publishOf_eq_some.mp found
  refine ⟨?_, stored⟩
  rcases k with ⟨_, v5, number⟩
  subst sameStem
  rcases restores with sent | received
  · cases sent
    obtain ⟨_, same, rfl⟩ := wellKeyed.publishSent stored
    cases same
    exact key_of_record wellKeyed rfl stored
  · cases received
    obtain ⟨_, same, rfl, _⟩ := wellKeyed.publishReceived stored
    cases same
    exact key_of_record wellKeyed rfl stored

section Restored

variable {e : Exchange} {stem : Stem} (restored : Publish → Messages)

theorem mem_restored (wellKeyed : e.WellKeyed)
    (restores : stem = .publishSent ∨ stem = .publishReceived)
    (listed : ∀ k, k ∈ keys ↔ (e.record k).isSome) (m : Messages) :
    (m ∈ keys.filterMap fun k => (publishOf e stem k).map restored) ↔ ∃ publish : Publish,
      e.record (key stem e.mqttVersion publish.msgId) = some (.publish publish) ∧
        m = restored publish := by
  rw [List.mem_filterMap]
  constructor
  · rintro ⟨k, _, mem⟩
    obtain ⟨publish, found, rfl⟩ := Option.map_eq_some_iff.mp mem
    obtain ⟨isKey, stored⟩ := key_of_publishOf wellKeyed restores found
    exact ⟨publish, isKey ▸ stored, rfl⟩
  · rintro ⟨publish, stored, rfl⟩
    exact ⟨_, (listed _).mpr (by simp [stored]),
      Option.map_eq_some_iff.mpr ⟨publish, publishOf_eq_some.mpr ⟨rfl, stored⟩, rfl⟩⟩

theorem distinct_restored (wellKeyed : e.WellKeyed)
    (restores : stem = .publishSent ∨ stem = .publishReceived)
    (keepsId : ∀ publish, (restored publish).msgid = publish.msgId) (distinct : keys.Nodup) :
    (ids (keys.filterMap fun k => (publishOf e stem k).map restored)).Nodup := by
  rw [ids, List.map_filterMap]
  refine distinct.filterMap fun k k' id mem mem' => ?_
  simp only [Option.map_map, Option.mem_def, Option.map_eq_some_iff] at mem mem'
  obtain ⟨publish, found, rfl⟩ := mem
  obtain ⟨publish', found', same⟩ := mem'
  have sameId : publish'.msgId = publish.msgId := by simpa [keepsId] using same
  rw [(key_of_publishOf wellKeyed restores found).1, (key_of_publishOf wellKeyed restores found').1,
    sameId]

end Restored

end Loop

end MQTTPersistence

/-- The exchange of a new process before its session is restored. -/
def Exchange.restarted (e : Exchange) : Exchange :=
  { e with
    outbound := []
    inbound := []
    queue := []
    trace := .restarted :: e.trace }

theorem exchange_fresh (c : Clients) :
    ((Session.fresh c).log .restarted).exchange = c.exchange.restarted :=
  rfl

open MQTTPersistence in
/-- The session is restored when the loop has come to the end of the keys. -/
theorem MQTTPersistence.RestoredKeys.restores {e : Exchange} {after : Clients}
    {keys : List PersistenceKey} (wellKeyed : e.WellKeyed)
    (listed : ∀ k, k ∈ keys ↔ (e.record k).isSome) (distinct : keys.Nodup)
    (restored : RestoredKeys e.restarted keys after.exchange) :
    Exchange.Restores e
      { after with outboundMsgs := wrapMsgID after.outboundMsgs }.exchange := by
  have outbound : ((wrapMsgID after.outboundMsgs).map Messages.untouched).Perm
      (keys.filterMap (sentOf e)) :=
    ((wrapMsgID_perm _).map _).trans restored.outbound
  have inbound : after.exchange.inbound = keys.filterMap (receivedOf e) := restored.inbound
  refine
    { mqttVersion := restored.mqttVersion
      queue := restored.queue
      persistent := restored.persistent
      trace := restored.trace
      orphan := fun k orphan => ?_
      record := fun k notOrphan => restored.record k fun _ => notOrphan
      outbound := fun m => outbound.mem_iff.trans
        (mem_restored e.restoredSent wellKeyed (.inl rfl) listed m)
      distinctOutbound := ?_
      inbound := fun m => ?_
      distinctInbound := ?_ }
  · by_cases mem : k ∈ keys
    · exact restored.orphan k mem orphan
    · have same := restored.record k fun isKey => absurd isKey mem
      have absent : e.record k = none :=
        Option.not_isSome_iff_eq_none.mp fun present => mem ((listed k).mpr present)
      exact same.trans absent
  · exact (outbound.map Messages.msgid).nodup_iff.mpr
      (distinct_restored e.restoredSent wellKeyed (.inl rfl) (fun _ => rfl) distinct)
  · change m ∈ after.exchange.inbound ↔ _
    rw [inbound]
    exact mem_restored e.restoredReceived wellKeyed (.inr rfl) listed m
  · change (ids after.exchange.inbound).Nodup
    rw [inbound]
    exact distinct_restored e.restoredReceived wellKeyed (.inr rfl) (fun _ => rfl) distinct

theorem Clients.recordKeys_nodup (c : Clients) : c.recordKeys.Nodup := by
  cases store : c.persistence with
  | none => simp [Clients.recordKeys, store]
  | some records => simpa [Clients.recordKeys, store] using records.keys_nodup

open MQTTPersistence in
/-- Restoring a session whose records are well filed, from its keys in any order. -/
theorem restart_restores {c : Clients} {keys : List PersistenceKey}
    (wellKeyed : c.exchange.WellKeyed) (listed : keys.Perm c.recordKeys) :
    Exchange.Restores c.exchange (Session.restart c keys).exchange := by
  have fresh : ((Session.fresh c).log .restarted).exchange.WellKeyed := wellKeyed
  have mem_keys (k : PersistenceKey) : k ∈ keys ↔ (c.record k).isSome :=
    listed.mem_iff.trans (c.mem_recordKeys k)
  have distinct : keys.Nodup := listed.nodup_iff.mpr c.recordKeys_nodup
  obtain ⟨after, afterEq, restored⟩ := restoreKeys_spec fresh (fun k mem => (mem_keys k).mp mem)
    distinct
  have result : Session.restart c keys =
      { after with outboundMsgs := wrapMsgID after.outboundMsgs } := by
    simp only [Session.restart, restorePackets, afterEq]
  rw [result]
  exact RestoredKeys.restores wellKeyed mem_keys distinct restored

namespace Exchange

variable {e e' : Exchange}

/-- Restoring only removes records. -/
theorem Restores.subset (restores : Restores e e') {k : PersistenceKey} {record : Record}
    (stored : e'.record k = some record) : e.record k = some record := by
  by_cases orphan : e.Orphan k
  · rw [restores.orphan k orphan] at stored
    cases stored
  · rwa [restores.record k orphan] at stored

theorem Restores.filed (restores : Restores e e') (filed : e.Filed) : e'.Filed where
  wellKeyed := filed.wellKeyed.of_subset restores.mqttVersion fun _ _ => restores.subset
  version := by
    intro m mem
    obtain ⟨publish, _, rfl⟩ := (restores.outbound m).mp mem
    exact restores.mqttVersion.symm

end Exchange

namespace Session

/-- A restart lists exactly the keys of the store, in any order. -/
def ListsKeys (c : Clients) (input : Input) : Prop :=
  match input.action with
  | .restart keys => keys.Perm c.recordKeys
  | _ => True

instance decidableListsKeys (c : Clients) (input : Input) : Decidable (ListsKeys c input) :=
  match input with
  | ⟨.restart keys, _, _, _⟩ => inferInstanceAs (Decidable (keys.Perm c.recordKeys))
  | ⟨.publish _, _, _, _⟩ => isTrue trivial
  | ⟨.receive _, _, _, _⟩ => isTrue trivial
  | ⟨.retry _, _, _, _⟩ => isTrue trivial
  | ⟨.continueWrite _, _, _, _⟩ => isTrue trivial
  | ⟨.connectionLost, _, _, _⟩ => isTrue trivial
  | ⟨.connect _, _, _, _⟩ => isTrue trivial

theorem create_filed (mqttVersion : Nat) (cleansession : Bool) :
    (create mqttVersion cleansession (some ∅)).exchange.Filed where
  wellKeyed := by
    intro k record _ stored
    simp [Clients.exchange, Clients.record, create] at stored
  version := fun m mem => absurd mem List.not_mem_nil

/-- A restart with the keys of the store restores the session. -/
theorem step_restores {c : Clients} {input : Input} {keys : List PersistenceKey}
    (filed : c.exchange.Filed) (action : input.action = .restart keys)
    (listed : ListsKeys c input) : Exchange.Restores c.exchange (step c input).exchange := by
  have listed : keys.Perm c.recordKeys := by simpa [ListsKeys, action] using listed
  have restores := restart_restores (c := provide c input) filed.wellKeyed listed
  simp only [step, action, act]
  exact restores

/-- The protocol version never changes. -/
theorem step_mqttVersion {c : Clients} {input : Input} (filed : c.exchange.Filed)
    (listed : ListsKeys c input) : (step c input).mqttVersion = c.mqttVersion := by
  by_cases restarts : ∃ keys, input.action = .restart keys
  · obtain ⟨keys, action⟩ := restarts
    exact (step_restores filed action listed).mqttVersion
  · have running : ∀ keys, input.action ≠ .restart keys :=
      fun keys action => restarts ⟨keys, action⟩
    rcases step_refines (c := c) running with internals | ⟨_, _, _, starts, _⟩ | ⟨_, _, handles⟩
    · exact Exchange.internals_mqttVersion internals
    · exact Exchange.starts_mqttVersion starts
    · exact Exchange.handles_mqttVersion handles

end Session

end Paho
