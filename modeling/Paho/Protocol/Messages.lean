import Paho.Protocol.Clients
import Mathlib.Data.List.Nodup

/-!
# Lists of in-flight messages

The list operations of `LinkedList.c` at the type of `Messages`, found by message id, and
the construction of a message from a publication.
-/

namespace Paho

/-- The ids of a list of messages. -/
def ids (messages : List Messages) : List Nat :=
  messages.map Messages.msgid

/-- `ListFindItem` with `messageIDCompare`. -/
def findMessage (messages : List Messages) (msgid : Nat) : Option Messages :=
  messages.find? (·.msgid == msgid)

/-- `ListRemove` of the message found by `findMessage`. -/
def removeMessage (messages : List Messages) (msgid : Nat) : List Messages :=
  messages.eraseP (·.msgid == msgid)

/-- Assignment to the message found by `findMessage`. -/
def updateMessage (messages : List Messages) (msgid : Nat) (update : Messages → Messages) :
    List Messages :=
  match messages with
  | [] => []
  | m :: rest =>
      if m.msgid = msgid then update m :: rest else m :: updateMessage rest msgid update

namespace MQTTProtocol

/-- `MQTTProtocol_storePublication`. -/
def storePublication (publish : Publish) : Publications :=
  { topic := publish.topic, payload := publish.payload }

/-- `MQTTProtocol_createMessage`. -/
def createMessage (publish : Publish) (qos : Nat) (retained : Bool) (now : Nat) : Messages :=
  { qos := qos
    retain := retained
    msgid := publish.msgId
    mqttVersion := publish.mqttVersion
    properties := if mqttVersion5 ≤ publish.mqttVersion then publish.properties else []
    publish := some (storePublication publish)
    lastTouch := now
    nextMessageType := if qos = 2 then some .pubrec else none }

@[simp]
theorem createMessage_msgid (publish : Publish) (qos : Nat) (retained : Bool) (now : Nat) :
    (createMessage publish qos retained now).msgid = publish.msgId :=
  rfl

@[simp]
theorem createMessage_qos (publish : Publish) (qos : Nat) (retained : Bool) (now : Nat) :
    (createMessage publish qos retained now).qos = qos :=
  rfl

/-- A new message does not wait for PUBCOMP. -/
theorem createMessage_nextMessageType_ne (publish : Publish) (qos : Nat) (retained : Bool)
    (now : Nat) : (createMessage publish qos retained now).nextMessageType ≠ some .pubcomp := by
  unfold createMessage
  dsimp only
  split <;> simp

end MQTTProtocol

section Lists

variable {messages : List Messages} {m : Messages} {msgid : Nat}

@[simp]
theorem ids_nil : ids [] = [] :=
  rfl

@[simp]
theorem ids_cons (m : Messages) (messages : List Messages) :
    ids (m :: messages) = m.msgid :: ids messages :=
  rfl

@[simp]
theorem ids_append (left right : List Messages) : ids (left ++ right) = ids left ++ ids right := by
  simp [ids]

theorem mem_ids : msgid ∈ ids messages ↔ ∃ m ∈ messages, m.msgid = msgid := by
  simp [ids]

theorem mem_ids_of_mem (mem : m ∈ messages) : m.msgid ∈ ids messages :=
  List.mem_map_of_mem mem

theorem findMessage_mem (found : findMessage messages msgid = some m) :
    m ∈ messages ∧ m.msgid = msgid := by
  refine ⟨List.mem_of_find?_eq_some found, ?_⟩
  simpa using List.find?_some found

theorem findMessage_eq_none : findMessage messages msgid = none ↔ msgid ∉ ids messages := by
  simp [findMessage, ids]

/-- Distinct ids make an id name one message. -/
theorem eq_of_mem_of_nodup {other : Messages} (distinct : (ids messages).Nodup)
    (mem : m ∈ messages) (otherMem : other ∈ messages) (same : m.msgid = other.msgid) :
    m = other :=
  List.inj_on_of_nodup_map distinct mem otherMem same

theorem findMessage_of_mem (distinct : (ids messages).Nodup) (mem : m ∈ messages) :
    findMessage messages m.msgid = some m := by
  cases found : findMessage messages m.msgid with
  | none => exact absurd (mem_ids_of_mem mem) (findMessage_eq_none.mp found)
  | some other =>
      have otherMem := findMessage_mem found
      rw [eq_of_mem_of_nodup distinct mem otherMem.1 otherMem.2.symm]

theorem removeMessage_sublist : (removeMessage messages msgid).Sublist messages :=
  List.eraseP_sublist

theorem mem_of_mem_removeMessage (mem : m ∈ removeMessage messages msgid) : m ∈ messages :=
  removeMessage_sublist.subset mem

theorem ids_removeMessage_nodup (distinct : (ids messages).Nodup) :
    (ids (removeMessage messages msgid)).Nodup :=
  distinct.sublist (removeMessage_sublist.map Messages.msgid)

theorem mem_removeMessage (distinct : (ids messages).Nodup) :
    m ∈ removeMessage messages msgid ↔ m ∈ messages ∧ m.msgid ≠ msgid := by
  induction messages with
  | nil => simp [removeMessage]
  | cons first rest ih =>
      simp only [ids_cons, List.nodup_cons] at distinct
      by_cases same : first.msgid = msgid
      · simp only [removeMessage, same, beq_self_eq_true, List.eraseP_cons_of_pos,
          List.mem_cons]
        constructor
        · intro mem
          exact ⟨.inr mem, fun eq => distinct.1 (same ▸ eq ▸ mem_ids_of_mem mem)⟩
        · rintro ⟨rfl | mem, different⟩
          · exact absurd same different
          · exact mem
      · have step : removeMessage (first :: rest) msgid = first :: removeMessage rest msgid := by
          simp [removeMessage, List.eraseP_cons_of_neg, same]
        rw [step, List.mem_cons, List.mem_cons, ih distinct.2]
        constructor
        · rintro (rfl | mem)
          · exact ⟨.inl rfl, same⟩
          · exact ⟨.inr mem.1, mem.2⟩
        · rintro ⟨rfl | mem, different⟩
          · exact .inl rfl
          · exact .inr ⟨mem, different⟩

theorem mem_ids_removeMessage (distinct : (ids messages).Nodup) {other : Nat} :
    other ∈ ids (removeMessage messages msgid) ↔ other ∈ ids messages ∧ other ≠ msgid := by
  simp only [mem_ids, mem_removeMessage distinct]
  constructor
  · rintro ⟨m, ⟨mem, different⟩, rfl⟩
    exact ⟨⟨m, mem, rfl⟩, different⟩
  · rintro ⟨⟨m, mem, rfl⟩, different⟩
    exact ⟨m, ⟨mem, different⟩, rfl⟩

theorem ids_updateMessage {update : Messages → Messages}
    (keeps : ∀ m, m.msgid = msgid → (update m).msgid = msgid) :
    ids (updateMessage messages msgid update) = ids messages := by
  induction messages with
  | nil => rfl
  | cons first rest ih =>
      by_cases same : first.msgid = msgid <;> simp [updateMessage, same, keeps, ih]

theorem exists_of_mem_updateMessage {update : Messages → Messages}
    (mem : m ∈ updateMessage messages msgid update) :
    ∃ old ∈ messages, m = old ∨ (old.msgid = msgid ∧ m = update old) := by
  induction messages with
  | nil => simp [updateMessage] at mem
  | cons first rest ih =>
      simp only [updateMessage] at mem
      split at mem <;> grind

theorem mem_updateMessage {update : Messages → Messages} (distinct : (ids messages).Nodup) :
    m ∈ updateMessage messages msgid update ↔
      (m ∈ messages ∧ m.msgid ≠ msgid) ∨
        ∃ old ∈ messages, old.msgid = msgid ∧ m = update old := by
  induction messages with
  | nil => simp [updateMessage]
  | cons first rest ih =>
      simp only [ids_cons, List.nodup_cons] at distinct
      have absent : first.msgid = msgid → ∀ other ∈ rest, other.msgid ≠ msgid :=
        fun same other mem eq => distinct.1 (same ▸ eq ▸ mem_ids_of_mem mem)
      by_cases same : first.msgid = msgid
      · simp only [updateMessage, same, if_true, List.mem_cons, exists_eq_or_imp]
        have := absent same
        grind
      · simp only [updateMessage, same, if_false, List.mem_cons, exists_eq_or_imp,
          ih distinct.2]
        grind

end Lists

end Paho
