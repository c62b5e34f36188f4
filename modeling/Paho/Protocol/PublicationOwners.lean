import Paho.Protocol.StoredPublications
import Mathlib.Algebra.Order.BigOperators.Group.List
import Mathlib.Algebra.Order.Group.Multiset
import Mathlib.Algebra.Order.Group.Nat

/-!
# The owners of a stored publication

Between two calls each stored publication is referenced by one message or by one pending write.
Within a call the pointers that are in nobody's hands yet, or no longer, are counted next to those.
-/

namespace Paho

namespace Stored

/-- The pointers in the messages of a list. -/
def held (messages : List Messages) : Multiset Nat :=
  messages.filterMap Messages.publish

theorem held_cons (m : Messages) (messages : List Messages) :
    held (m :: messages) = ↑m.publish.toList + held messages := by
  cases isPublish : m.publish <;> simp [held, isPublish]

theorem held_perm {messages messages' : List Messages} (perm : messages.Perm messages') :
    held messages = held messages' :=
  Multiset.coe_eq_coe.mpr (perm.filterMap Messages.publish)

theorem held_append (messages : List Messages) (m : Messages) :
    held (messages ++ [m]) = ↑m.publish.toList + held messages := by
  rw [← held_cons]
  exact held_perm (List.perm_append_singleton m messages)

/-- A message that keeps its publication. -/
theorem held_set {messages : List Messages} {index : Nat} {m m' : Messages}
    (isItem : messages[index]? = some m) (same : m'.publish = m.publish) :
    held (messages.set index m') = held messages := by
  have pointers : (messages.set index m').map Messages.publish = messages.map Messages.publish := by
    rcases List.getElem?_eq_some_iff.mp isItem with ⟨inside, rfl⟩
    rw [List.map_set, same, ← List.map_set, List.set_getElem_self]
  have isHeld (list : List Messages) : held list = (list.map Messages.publish).filterMap id := by
    rw [List.filterMap_map]
    rfl
  rw [isHeld, isHeld, pointers]

/-- A message that is taken out of a list. -/
theorem held_unlink {l : LinkedList Messages} {index : Nat} {m : Messages}
    (isItem : l.items[index]? = some m) :
    held l.items = ↑m.publish.toList + held (l.unlink index).items := by
  rw [← held_cons]
  exact (held_perm (LinkedList.unlink_perm isItem)).symm

/-- A message that takes the place of another one. -/
theorem held_replaced {l : LinkedList Messages} {index : Nat} {m : Messages} (received : Messages)
    (isItem : l.items[index]? = some m) :
    ↑m.publish.toList + held ((l.insert received index).unlink (index + 1)).items =
      ↑received.publish.toList + held l.items := by
  rw [← held_cons, ← held_cons]
  exact held_perm (LinkedList.insert_unlink_perm received isItem)

/-- The pointers in the messages of a client. -/
def Client.held (client : Client) : Multiset Nat :=
  Stored.held client.inboundMsgs.items + Stored.held client.outboundMsgs.items

namespace State

/-- The pointers of all messages and pending writes. -/
def references (s : State) : Multiset Nat :=
  (s.clients.map Client.held).sum + (s.pendingWrites.map PendingWrite.p : List Nat)

/-- The publications are owned by these references, and none was removed that was not there. -/
structure Owned (s : State) (references : Multiset Nat) : Prop where
  once : Cell.OwnedOnce s.publications references
  strays : s.strays = []

/-- The publications are owned by the messages and the pending writes. -/
def Sound (s : State) : Prop :=
  s.Owned s.references

variable {s s' : State} {references others : Multiset Nat} {i : Nat} {client new : Client}

theorem Owned.of_eq (owned : s.Owned references) (publications : s'.publications = s.publications)
    (strays : s'.strays = s.strays) : s'.Owned references where
  once := publications ▸ owned.once
  strays := strays.trans owned.strays

theorem references_of_eq (clients : s'.clients = s.clients)
    (pendingWrites : s'.pendingWrites = s.pendingWrites) : s'.references = s.references := by
  unfold State.references
  rw [clients, pendingWrites]

section Frames

theorem removePublication_clients (s : State) (p : Option Nat) :
    (s.removePublication p).clients = s.clients := by
  unfold removePublication
  split
  · rfl
  · split
    · rfl
    · split
      · rfl
      · rfl

theorem removePublication_pendingWrites (s : State) (p : Option Nat) :
    (s.removePublication p).pendingWrites = s.pendingWrites := by
  unfold removePublication
  split
  · rfl
  · split
    · rfl
    · split
      · rfl
      · rfl

theorem emptyMessages_clients (s : State) (messages : List Messages) :
    (s.emptyMessages messages).clients = s.clients := by
  induction messages generalizing s with
  | nil => rfl
  | cons m messages ih => exact (ih _).trans (removePublication_clients s m.publish)

theorem emptyMessages_pendingWrites (s : State) (messages : List Messages) :
    (s.emptyMessages messages).pendingWrites = s.pendingWrites := by
  induction messages generalizing s with
  | nil => rfl
  | cons m messages ih => exact (ih _).trans (removePublication_pendingWrites s m.publish)

end Frames

/-! ## Pointers that change hands -/

/-- A publication is stored for a new pointer. -/
theorem owned_storePublication (owned : s.Owned references) (publish : Publish) :
    (s.storePublication publish).2.2.Owned ((s.storePublication publish).1 ::ₘ references) := by
  have fresh : (s.storePublication publish).1 ∉ Cell.addresses s.publications := by
    change malloc _ _ ∉ _
    unfold malloc
    split
    · intro mem
      have small := List.single_le_sum (fun _ _ => Nat.zero_le _) _ mem
      omega
    · assumption
  exact ⟨owned.once.alloc fresh _, owned.strays⟩

theorem owned_removeElement {p : Nat} (owned : s.Owned (p ::ₘ references)) :
    (s.removeElement p).Owned references :=
  ⟨owned.once.free, owned.strays⟩

/-- A pointer is given up with its publication. -/
theorem owned_removePublication {p : Option Nat} (owned : s.Owned (↑p.toList + references)) :
    (s.removePublication p).Owned references := by
  cases p with
  | none =>
      rw [Option.toList_none, Multiset.coe_nil, Multiset.zero_add] at owned
      exact owned
  | some p =>
      have owned : s.Owned (p ::ₘ references) := owned
      rcases owned.once.exists_cell with ⟨publication, isThere, refcount⟩
      simp only [removePublication, isThere, refcount]
      exact owned_removeElement owned

theorem owned_emptyMessages {messages : List Messages}
    (owned : s.Owned (held messages + references)) :
    (s.emptyMessages messages).Owned references := by
  induction messages generalizing s with
  | nil =>
      have nothing : held [] = 0 := rfl
      rw [nothing, Multiset.zero_add] at owned
      exact owned
  | cons m messages ih =>
      apply ih
      apply owned_removePublication
      rw [← Multiset.add_assoc, ← held_cons]
      exact owned

/-- What the others hold, whatever the client at a place holds. -/
def Others (s : State) (i : Nat) (others : Multiset Nat) : Prop :=
  ∀ client, (s.setClient i client).references = client.held + others

theorem Others.of_eq (isOthers : s.Others i others) (clients : s'.clients = s.clients)
    (pendingWrites : s'.pendingWrites = s.pendingWrites) : s'.Others i others := by
  intro client
  rw [← isOthers client]
  apply references_of_eq
  · simp only [setClient, clients]
  · exact pendingWrites

theorem exists_others (isClient : s.clients[i]? = some client) :
    ∃ others, s.Others i others ∧ s.references = client.held + others := by
  have split : ∃ rest, (s.clients.map Client.held).sum = client.held + rest ∧
      ∀ new : Client, ((s.clients.set i new).map Client.held).sum = new.held + rest := by
    generalize s.clients = clients at isClient
    induction clients generalizing i with
    | nil => cases isClient
    | cons first clients ih =>
        cases i with
        | zero =>
            injection isClient with same
            subst same
            exact ⟨(clients.map Client.held).sum, List.sum_cons, fun _ => List.sum_cons⟩
        | succ i =>
            rcases ih isClient with ⟨rest, sum, sums⟩
            refine ⟨first.held + rest, ?_, ?_⟩
            · rw [List.map_cons, List.sum_cons, sum]
              exact add_left_comm ..
            · intro new
              rw [List.set_cons_succ, List.map_cons, List.sum_cons, sums]
              exact add_left_comm ..
  rcases split with ⟨rest, sum, sums⟩
  refine ⟨rest + (s.pendingWrites.map PendingWrite.p : List Nat), ?_, ?_⟩
  · intro new
    unfold State.references
    rw [← Multiset.add_assoc, ← sums new]
    rfl
  · unfold State.references
    rw [sum, Multiset.add_assoc]

theorem sound_setClient (isOthers : s.Others i others) (owned : s.Owned (new.held + others)) :
    (s.setClient i new).Sound := by
  unfold Sound
  rw [isOthers new]
  exact owned.of_eq rfl rfl

theorem sound_putdatas (sound : s.Sound) (socket : Nat) : (s.putdatas socket).2.Sound := by
  unfold putdatas
  split
  · exact sound.of_eq rfl rfl
  · exact sound

theorem sound_acknowledge (isOthers : s.Others i others) (owned : s.Owned (new.held + others))
    (ackType : PacketType) (msgId : Nat) : (s.acknowledge i new ackType msgId).Sound := by
  unfold acknowledge
  split
  · exact sound_putdatas (sound_setClient isOthers owned) new.socket
  · exact sound_setClient isOthers owned

/-! ## The calls -/

theorem held_sent (client : Client) (m : Messages) :
    Client.held { client with outboundMsgs := client.outboundMsgs.append m } =
      ↑m.publish.toList + client.held := by
  unfold Client.held LinkedList.append
  rw [held_append]
  exact add_left_comm ..

theorem held_received (client : Client) (m : Messages) :
    Client.held { client with inboundMsgs := client.inboundMsgs.append m } =
      ↑m.publish.toList + client.held := by
  unfold Client.held LinkedList.append
  rw [held_append, Multiset.add_assoc]

theorem held_replaced_client {index : Nat} {m : Messages} (received : Messages)
    (isItem : client.inboundMsgs.items[index]? = some m) :
    ↑m.publish.toList +
        Client.held { client with
          inboundMsgs :=
            ((client.inboundMsgs.found index).insert received index).unlink (index + 1) } =
      ↑received.publish.toList + client.held := by
  have isItem' : (client.inboundMsgs.found index).items[index]? = some m := isItem
  unfold Client.held
  rw [← Multiset.add_assoc, held_replaced received isItem', Multiset.add_assoc]
  rfl

theorem sound_storeQoS0 (sound : s.Sound) (pubclient : Client) (publish : Publish) :
    (s.storeQoS0 pubclient publish).Sound := by
  have owned := owned_storePublication sound publish
  have references : (s.storeQoS0 pubclient publish).references =
      (s.storePublication publish).1 ::ₘ s.references := by
    unfold State.references storeQoS0
    simp only [List.map_append, ← Multiset.coe_add]
    rw [← Multiset.singleton_add, add_comm {_}, Multiset.add_assoc]
    rfl
  unfold Sound
  rw [references]
  exact owned.of_eq rfl rfl

theorem sound_startPublishCommon (sound : s.Sound) (pubclient : Client) (publish : Publish)
    (qos : Nat) : (s.startPublishCommon pubclient publish qos).2.Sound := by
  have sent := sound_putdatas sound pubclient.socket
  unfold startPublishCommon
  simp only
  split
  · exact sound_storeQoS0 sent pubclient publish
  · exact sent

theorem sound_startPublish (sound : s.Sound) (isClient : s.clients[i]? = some client)
    (publish : Publish) (qos : Nat) (retained : Bool) :
    (s.startPublish i client publish qos retained none).2.Sound := by
  unfold startPublish
  split
  · rcases exists_others isClient with ⟨others, isOthers, references⟩
    apply sound_startPublishCommon
    have owned := owned_storePublication sound publish
    have isOthers' : (s.storePublication publish).2.2.Others i others := isOthers.of_eq rfl rfl
    apply sound_setClient isOthers'
    rw [references] at owned
    rw [held_sent, Multiset.add_assoc]
    exact owned
  · exact sound_startPublishCommon sound client publish qos

theorem sound_handlePublishes (sound : s.Sound) (isClient : s.clients[i]? = some client)
    (publish : Publish) : (s.handlePublishes i client publish).Sound := by
  rcases exists_others isClient with ⟨others, isOthers, references⟩
  have owned : s.Owned (client.held + others) := references ▸ sound
  unfold handlePublishes
  split
  · exact sound.of_eq rfl rfl
  · have processed : (s.processPublication publish).Owned (client.held + others) :=
      owned.of_eq rfl rfl
    have isOthers' : (s.processPublication publish).Others i others := isOthers.of_eq rfl rfl
    exact sound_acknowledge isOthers' processed .puback publish.msgId
  · have stored := owned_storePublication owned publish
    have isOthers' : (s.storePublication publish).2.2.Others i others := isOthers.of_eq rfl rfl
    generalize s.storePublication publish = result at stored isOthers'
    rcases result with ⟨p, rest, s'⟩
    change s'.Owned _ at stored
    change s'.Others i others at isOthers'
    simp only
    split
    next index msg isFound =>
      have isItem := LinkedList.findItem_eq_some isFound
      have removed : (s'.removePublication msg.publish).Owned
          (Client.held { client with
            inboundMsgs :=
              ((client.inboundMsgs.found index).insert (receivedMessage publish p) index).unlink
                (index + 1) } + others) := by
        apply owned_removePublication
        rw [← Multiset.add_assoc, held_replaced_client _ isItem, Multiset.add_assoc]
        exact stored
      apply sound_acknowledge _ removed
      apply isOthers'.of_eq
      · exact removePublication_clients s' msg.publish
      · exact removePublication_pendingWrites s' msg.publish
    · split
      · have passed : ((s'.processPublication
          (s'.publicationOf (receivedMessage publish p))).removeElement
            p).Owned (client.held + others) :=
          owned_removeElement (stored.of_eq rfl rfl)
        apply @sound_acknowledge _ others
        · exact isOthers'.of_eq rfl rfl
        · rw [held_received, Option.toList_none, Multiset.coe_nil, Multiset.zero_add]
          exact passed
      · apply sound_acknowledge isOthers'
        rw [held_received, Multiset.add_assoc]
        exact stored
  · exact sound

/-- What is handed to the caller is owned by it. -/
theorem owned_passOn {publish : Option Nat} (toRemove : Bool)
    (owned : s.Owned (↑publish.toList + references)) :
    (s.passOn toRemove publish).2.Owned (↑(s.passOn toRemove publish).1.toList + references) := by
  unfold passOn
  split
  · exact owned
  · simpa using owned_removePublication owned

/-- A message of the sender is taken out of its list. -/
theorem held_unlink_client {l : LinkedList Messages} {index : Nat} {m : Messages}
    (same : l.items = client.outboundMsgs.items) (isItem : l.items[index]? = some m) :
    client.held =
      ↑m.publish.toList + Client.held { client with outboundMsgs := l.unlink index } := by
  unfold Client.held
  rw [← same, held_unlink isItem]
  exact add_left_comm ..

/-- What a handler leaves: a pointer for a caller that asks for it, and the rest is owned by the
messages and the pending writes. -/
structure Handed (toRemove : Bool) (result : Option Nat × State) : Prop where
  owned : result.2.Owned (↑result.1.toList + result.2.references)
  asked : toRemove = false → result.1 = none

theorem handed_none (sound : s.Sound) (toRemove : Bool) : Handed toRemove (none, s) where
  owned := by
    rw [Option.toList_none, Multiset.coe_nil, Multiset.zero_add]
    exact sound
  asked := fun _ => rfl

theorem Handed.sound {result : Option Nat × State} (handed : Handed false result) :
    result.2.Sound := by
  have owned := handed.owned
  rw [handed.asked rfl, Option.toList_none, Multiset.coe_nil, Multiset.zero_add] at owned
  exact owned

/-- An acknowledgement ends an exchange of the sender. -/
theorem handed_ended {l : LinkedList Messages} {index : Nat} {m : Messages} (toRemove : Bool)
    (sound : s.Sound) (isClient : s.clients[i]? = some client)
    (same : l.items = client.outboundMsgs.items) (isItem : l.items[index]? = some m) :
    Handed toRemove ((s.passOn toRemove m.publish).1,
      (s.passOn toRemove m.publish).2.setClient i
        { client with outboundMsgs := l.unlink index }) := by
  rcases exists_others isClient with ⟨others, isOthers, references⟩
  have isOthers' : (s.passOn toRemove m.publish).2.Others i others := by
    unfold passOn
    split
    · exact isOthers
    · apply isOthers.of_eq
      · exact removePublication_clients s m.publish
      · exact removePublication_pendingWrites s m.publish
  have owned : s.Owned (↑m.publish.toList +
      (Client.held { client with outboundMsgs := l.unlink index } + others)) := by
    rw [← Multiset.add_assoc, ← held_unlink_client same isItem, ← references]
    exact sound
  constructor
  · rw [isOthers']
    exact (owned_passOn toRemove owned).of_eq rfl rfl
  · rintro rfl
    rfl

/-- A client whose messages hold the same pointers as before. -/
theorem sound_setClient_of_eq (sound : s.Sound) (isClient : s.clients[i]? = some client)
    (same : new.held = client.held) : (s.setClient i new).Sound := by
  rcases exists_others isClient with ⟨others, isOthers, references⟩
  apply sound_setClient isOthers
  rw [same, ← references]
  exact sound

theorem sound_acknowledge_of_eq (sound : s.Sound) (isClient : s.clients[i]? = some client)
    (same : new.held = client.held) (ackType : PacketType) (msgId : Nat) :
    (s.acknowledge i new ackType msgId).Sound := by
  rcases exists_others isClient with ⟨others, isOthers, references⟩
  apply sound_acknowledge isOthers
  rw [same, ← references]
  exact sound

theorem handed_handlePubacks (sound : s.Sound) (isClient : s.clients[i]? = some client)
    (msgId : Nat) (toRemove : Bool) :
    Handed toRemove (s.handlePubacks i client msgId toRemove) := by
  unfold handlePubacks
  split
  · exact handed_none sound toRemove
  next index m isFound =>
    have isItem := LinkedList.findItem_eq_some isFound
    split
    · apply handed_none
      apply sound_setClient_of_eq sound isClient
      rfl
    · exact handed_ended (l := client.outboundMsgs.found index) toRemove sound isClient rfl isItem

theorem handed_handlePubrecs (sound : s.Sound) (isClient : s.clients[i]? = some client)
    (msgId rc : Nat) (toRemove : Bool) :
    Handed toRemove (s.handlePubrecs i client msgId rc toRemove) := by
  unfold handlePubrecs
  simp only
  split
  · apply handed_none
    apply sound_acknowledge_of_eq sound isClient
    rfl
  next index m isFound =>
    have isItem := LinkedList.findItem_eq_some isFound
    split
    · apply handed_none
      apply sound_acknowledge_of_eq sound isClient
      rfl
    · split
      · exact handed_ended (l := ⟨client.outboundMsgs.items, some index⟩) toRemove
          sound isClient rfl
          isItem
      · apply handed_none
        apply sound_acknowledge_of_eq sound isClient
        exact congrArg (held client.inboundMsgs.items + ·) (held_set isItem rfl)

theorem handed_handlePubcomps (sound : s.Sound) (isClient : s.clients[i]? = some client)
    (msgId : Nat) (toRemove : Bool) :
    Handed toRemove (s.handlePubcomps i client msgId toRemove) := by
  unfold handlePubcomps
  split
  · exact handed_none sound toRemove
  next index m isFound =>
    have isItem := LinkedList.findItem_eq_some isFound
    split
    · apply handed_none
      apply sound_setClient_of_eq sound isClient
      rfl
    · exact handed_ended (l := client.outboundMsgs.found index) toRemove sound isClient rfl isItem

theorem sound_handlePubrels (sound : s.Sound) (isClient : s.clients[i]? = some client)
    (msgId : Nat) : (s.handlePubrels i client msgId).Sound := by
  unfold handlePubrels
  split
  · exact sound_acknowledge_of_eq sound isClient rfl _ _
  next index m isFound =>
    have isItem := LinkedList.findItem_eq_some isFound
    simp only
    split
    · apply sound_acknowledge_of_eq sound isClient
      rfl
    · rcases exists_others isClient with ⟨others, isOthers, references⟩
      have isItem' : (client.inboundMsgs.found index).items[index]? = some m := isItem
      have owned : s.Owned (↑m.publish.toList +
          (Client.held
              { client with inboundMsgs := (client.inboundMsgs.found index).unlink index } +
            others)) := by
        unfold Client.held
        rw [← Multiset.add_assoc, ← Multiset.add_assoc, ← held_unlink isItem']
        exact references ▸ sound
      generalize isPassed : (if mqttVersion5 ≤ m.mqttVersion then s else _) = s'
      have passed : s'.publications = s.publications ∧ s'.strays = s.strays ∧
          s'.clients = s.clients ∧ s'.pendingWrites = s.pendingWrites := by
        rw [← isPassed]
        split
        · exact ⟨rfl, rfl, rfl, rfl⟩
        · exact ⟨rfl, rfl, rfl, rfl⟩
      rcases passed with ⟨publications, strays, clients, pendingWrites⟩
      have owned' := owned.of_eq publications strays
      have isOthers' := isOthers.of_eq clients pendingWrites
      cases isPublish : m.publish with
      | none =>
          rw [isPublish, Option.toList_none, Multiset.coe_nil, Multiset.zero_add] at owned'
          exact sound_acknowledge isOthers' owned' _ _
      | some p =>
          rw [isPublish] at owned'
          have removed := owned_removeElement owned'
          exact sound_acknowledge (s := s'.removeElement p) (isOthers'.of_eq rfl rfl) removed _ _

theorem sound_removePublication {p : Option Nat} (handed : Handed true (p, s)) :
    (s.removePublication p).Sound := by
  unfold Sound
  rw [references_of_eq (removePublication_clients s p) (removePublication_pendingWrites s p)]
  exact owned_removePublication handed.owned

/-- The caller removes the publication that was handed to it, once. -/
theorem sound_removeAnswered {result : Option Nat × State} (handed : Handed true result)
    (responses : List Nat) (msgid : Nat) (searched : Bool) :
    (removeAnswered responses msgid searched result).Sound := by
  rcases result with ⟨pubToRemove, s⟩
  unfold removeAnswered
  simp only
  split
  · exact sound_removePublication (p := none) (handed_none (sound_removePublication handed) true)
  · exact sound_removePublication handed

theorem findClient_eq_some {sock : Nat} (found : s.findClient sock = some (i, client)) :
    s.clients[i]? = some client := by
  rcases Option.bind_eq_some_iff.mp found with ⟨place, -, isElement⟩
  rcases Option.map_eq_some_iff.mp isElement with ⟨other, isItem, same⟩
  injection same with isPlace isContent
  rw [← isPlace, ← isContent]
  exact isItem

theorem sound_cycle (sound : s.Sound) (sock : Nat) (packet : Session.Packet) (reader : Cycle) :
    (s.cycle sock packet reader).Sound := by
  unfold cycle
  split
  · exact sound
  next i client found =>
    have isClient := findClient_eq_some found
    cases packet with
    | publish dup message msgId => exact sound_handlePublishes sound isClient _
    | puback msgId =>
        cases reader with
        | async responses =>
            exact sound_removeAnswered (handed_handlePubacks sound isClient msgId true) _ _ _
        | sync => exact (handed_handlePubacks sound isClient msgId false).sound
    | pubrec msgId rc =>
        cases reader with
        | async responses =>
            exact sound_removeAnswered (handed_handlePubrecs sound isClient msgId rc true) _ _ _
        | sync => exact (handed_handlePubrecs sound isClient msgId rc false).sound
    | pubrel msgId => exact sound_handlePubrels sound isClient msgId
    | pubcomp msgId =>
        cases reader with
        | async responses =>
            exact sound_removeAnswered (handed_handlePubcomps sound isClient msgId true) _ _ _
        | sync => exact (handed_handlePubcomps sound isClient msgId false).sound

/-- The elements that stay, and those that are looked at next. -/
theorem sound_checkPendingWritesLoop {kept rest : List PendingWrite}
    (owned : s.Owned ((s.clients.map Client.held).sum + (kept.map PendingWrite.p : List Nat) +
      (rest.map PendingWrite.p : List Nat))) : (s.checkPendingWritesLoop kept rest).Sound := by
  induction rest generalizing s kept with
  | nil =>
      simp only [List.map_nil, Multiset.coe_nil, Multiset.add_zero] at owned
      exact owned.of_eq rfl rfl
  | cons le rest ih =>
      unfold checkPendingWritesLoop
      split
      · apply ih
        rw [removePublication_clients]
        apply owned_removePublication
        rw [List.map_cons, ← Multiset.cons_coe, Multiset.add_cons] at owned
        exact owned
      · apply ih
        rw [List.map_append, ← Multiset.coe_add, ← Multiset.add_assoc, Multiset.add_assoc]
        exact owned

theorem sound_checkPendingWrites (sound : s.Sound) : s.checkPendingWrites.Sound := by
  apply sound_checkPendingWritesLoop
  rw [List.map_nil, Multiset.coe_nil, Multiset.add_zero]
  exact sound

theorem sound_cleanSession (sound : s.Sound) (isClient : s.clients[i]? = some client) :
    (s.cleanSession i client).Sound := by
  rcases exists_others isClient with ⟨others, isOthers, references⟩
  have owned : s.Owned (held client.inboundMsgs.items +
      (held client.outboundMsgs.items + others)) := by
    rw [← Multiset.add_assoc]
    exact references ▸ sound
  have noInbound := owned_emptyMessages owned
  have isOthers' : (s.emptyMessages client.inboundMsgs.items).Others i others :=
    isOthers.of_eq (emptyMessages_clients ..) (emptyMessages_pendingWrites ..)
  unfold cleanSession
  simp only
  generalize s.emptyMessages client.inboundMsgs.items = s' at noInbound isOthers'
  have noOutbound : ((s'.setClient i { client with inboundMsgs := .empty }).emptyMessages
      client.outboundMsgs.items).Owned others := by
    apply owned_emptyMessages
    exact noInbound.of_eq rfl rfl
  apply @sound_setClient _ others
  · intro other
    rw [← isOthers' other]
    apply references_of_eq
    · unfold setClient
      rw [emptyMessages_clients]
      exact List.set_set ..
    · exact emptyMessages_pendingWrites ..
  · have nothing : Client.held { client with inboundMsgs := .empty, outboundMsgs := .empty } =
      0 := rfl
    rw [nothing, Multiset.zero_add]
    exact noOutbound

theorem sound_withClient (sound : s.Sound) {effect : Client → State}
    (keeps : ∀ client, s.clients[i]? = some client → (effect client).Sound) :
    (s.withClient i effect).Sound := by
  unfold withClient
  cases isClient : s.clients[i]? with
  | none => exact sound
  | some client => exact keeps client isClient

theorem sound_act (sound : s.Sound) (action : Action) : (s.act action).Sound := by
  cases action with
  | create mqttVersion =>
      have references : (s.act (.create mqttVersion)).references = s.references := by
        simp only [State.references, act, List.map_append, List.sum_append]
        congr 1
        exact Multiset.add_zero _
      unfold Sound
      rw [references]
      exact sound.of_eq rfl rfl
  | connect i socket mqttVersion =>
      simp only [act]
      split
      · exact sound
      · apply sound_withClient sound
        intro client isClient
        apply sound_setClient_of_eq sound isClient
        rfl
  | closeSocket i =>
      apply sound_withClient sound
      intro client isClient
      have closed : (s.setClient i { client with socket := 0 }).Sound := by
        apply sound_setClient_of_eq sound isClient
        rfl
      exact closed.of_eq rfl rfl
  | publish i message msgId =>
      exact sound_withClient sound fun client isClient =>
        sound_startPublish sound isClient _ message.qos message.retained
  | receive socket packet reader =>
      simp only [act]
      split
      · exact sound_cycle sound socket packet reader
      · exact sound
  | write socket => exact sound_putdatas sound socket
  | continueWrite socket =>
      apply sound_checkPendingWrites
      exact sound.of_eq rfl rfl
  | check => exact sound_checkPendingWrites sound
  | cleanSession i =>
      exact sound_withClient sound fun client isClient => sound_cleanSession sound isClient

theorem sound_step (sound : s.Sound) (input : Input) : (step s input).Sound := by
  have provided : State.Sound { s with writes := input.writes, mallocs := input.mallocs } :=
    sound.of_eq rfl rfl
  exact sound_act provided input.action

theorem sound_initial : initial.Sound where
  once := .empty
  strays := rfl

/-- In every run, each stored publication is referenced by one message or one pending write, and by
no other, its count is one, and nothing is removed that was removed before. -/
theorem publications_owned_once (inputs : List Input) :
    (∀ p, p ∈ (Machine.run step initial inputs).references ↔
      p ∈ Cell.addresses (Machine.run step initial inputs).publications) ∧
    (Machine.run step initial inputs).references.Nodup ∧
    (∀ publication ∈ (Machine.run step initial inputs).publications, publication.refcount = 1) ∧
    (Machine.run step initial inputs).strays = [] := by
  have sound : (Machine.run step initial inputs).Sound :=
    @Machine.invariant_of_run _ _ step Sound (fun _ input sound => sound_step sound input) initial
      sound_initial inputs
  exact ⟨fun _ => sound.once.mem_iff, sound.once.nodup, sound.once.single, sound.strays⟩

end State

end Stored

end Paho
