import Paho.Protocol.Restoring
import Mathlib.Data.List.Chain
import Mathlib.Data.List.Rotate

/-!
# The sending order of restored messages

Ids go round from 65535 to 1, so that the order in which messages were sent is a rotation of the
order of their ids. `MQTTPersistence_wrapMsgID` finds it where the gap behind the last message is
the widest.
-/

namespace Paho

namespace MQTTPersistence

/-- The distance from one id to the next one, going round. -/
def cyclicGap (previous id : Nat) : Int :=
  if previous < id then id - previous else maxMsgId - previous + id

/-- Ids in the order in which they were sent, with the widest gap behind the last one. -/
structure SendingOrder where
  ids : List Nat
  range : ∀ id ∈ ids, 1 ≤ id ∧ id ≤ maxMsgId
  rotation : ∃ ascending : List Nat, ascending.Pairwise (· < ·) ∧ ∃ n, ids = ascending.rotate n
  widest : ∀ first last, ids.head? = some first → ids.getLast? = some last →
    ids.IsChain fun previous id => cyclicGap previous id < cyclicGap last first

example : SendingOrder where
  ids := [65534, 65535, 1, 2]
  range := by decide
  rotation := ⟨[1, 2, 65534, 65535], by decide, 2, by decide⟩
  widest := by
    intro first last isFirst isLast
    cases isFirst
    cases isLast
    decide

theorem SendingOrder.nodup (order : SendingOrder) : order.ids.Nodup := by
  rcases order.rotation with ⟨ascending, isAscending, n, rotated⟩
  rw [rotated, List.nodup_rotate]
  exact isAscending.imp Nat.ne_of_lt

theorem cyclicGap_of_lt {previous id : Nat} (ascends : previous < id) :
    cyclicGap previous id = id - previous :=
  if_pos ascends

theorem cyclicGap_of_le {previous id : Nat} (wraps : id ≤ previous) :
    cyclicGap previous id = maxMsgId - previous + id :=
  if_neg (by omega)

section Scan

variable {previous position found : Nat} {gap : Int} {messages xs ys : List Messages} {m : Messages}

/-- No gap is larger. -/
theorem wrapPosition_of_narrow (position found : Nat)
    (narrow : (previous :: messages.map Messages.msgid).IsChain fun a b : Nat =>
      (b : Int) - a ≤ gap) :
    wrapPosition previous position gap found messages = found := by
  induction messages generalizing previous position with
  | nil => rfl
  | cons m messages ih =>
      rw [List.map_cons, List.isChain_cons_cons] at narrow
      rw [wrapPosition, if_neg (by omega)]
      exact ih _ narrow.2

/-- The gap in front of one message is larger than all others. -/
theorem wrapPosition_of_widest (position found : Nat) {last : Nat} {widest : Int}
    (isLast : (previous :: xs.map Messages.msgid).getLast? = some last)
    (isWidest : (m.msgid : Int) - last = widest) (wider : gap < widest)
    (before : (previous :: xs.map Messages.msgid).IsChain fun a b : Nat => (b : Int) - a < widest)
    (behind : (m.msgid :: ys.map Messages.msgid).IsChain fun a b : Nat => (b : Int) - a < widest) :
    wrapPosition previous position gap found (xs ++ m :: ys) = position + xs.length := by
  induction xs generalizing previous position gap found with
  | nil =>
      have same : previous = last := Option.some.inj isLast
      rw [List.nil_append, wrapPosition, if_pos (by omega)]
      refine wrapPosition_of_narrow _ _ (behind.imp fun a b narrow => ?_)
      omega
  | cons x xs ih =>
      rw [List.map_cons, List.isChain_cons_cons] at before
      rw [List.map_cons, List.getLast?_cons_cons] at isLast
      rw [List.cons_append, wrapPosition]
      have next (gap : Int) (wider : gap < widest) (found : Nat) :
          wrapPosition x.msgid (position + 1) gap found (xs ++ m :: ys) =
            position + (x :: xs).length := by
        rw [ih _ _ isLast wider before.2, List.length_cons]
        omega
      split
      · exact next _ before.1 _
      · exact next _ wider _

end Scan

section Rotation

variable {low high : List Messages}

theorem exists_last (m : Messages) (messages : List Messages) :
    ∃ last, (m :: messages).getLast? = some last ∧ last ∈ m :: messages :=
  ⟨_, List.getLast?_eq_some_getLast (List.cons_ne_nil m messages), List.getLast_mem _⟩

/-- Between consecutive ids of an ascending list is their difference. -/
theorem isChain_sub {ids : List Nat} {gap : Int} (ascending : ids.Pairwise (· < ·))
    (narrow : ids.IsChain fun a b => cyclicGap a b < gap) :
    ids.IsChain fun a b : Nat => (b : Int) - a < gap := by
  have rises := ascending.isChain
  rw [List.isChain_iff_forall_rel_of_append_cons_cons] at rises narrow ⊢
  intro a b front back split
  have small := narrow split
  rwa [cyclicGap_of_lt (rises split)] at small

/-- The list is rotated to where the gap behind the last message is the widest. -/
theorem wrapMsgID_eq (ascending : ((low ++ high).map Messages.msgid).Pairwise (· < ·))
    (some_high : high ≠ [])
    (widest : ∀ first last, ((high ++ low).map Messages.msgid).head? = some first →
      ((high ++ low).map Messages.msgid).getLast? = some last →
      ((high ++ low).map Messages.msgid).IsChain fun a b => cyclicGap a b < cyclicGap last first) :
    wrapMsgID (low ++ high) = high ++ low := by
  rw [List.map_append] at ascending
  simp only [List.map_append] at widest
  rcases List.pairwise_append.mp ascending with ⟨lowAscends, highAscends, apart⟩
  rcases high with _ | ⟨first, high⟩
  · exact absurd rfl some_high
  rcases exists_last first high with ⟨last, isLast, lastMem⟩
  have isLastId : ((first :: high).map Messages.msgid).getLast? = some last.msgid := by
    rw [List.getLast?_map, isLast]
    rfl
  have first_le : first.msgid ≤ last.msgid := by
    rcases List.mem_cons.mp lastMem with rfl | later
    · exact Nat.le_refl _
    · exact Nat.le_of_lt ((List.pairwise_cons.mp highAscends).1 _ (List.mem_map_of_mem later))
  rcases low with _ | ⟨start, low⟩
  · -- the ids do not wrap
    have narrow := widest first.msgid last.msgid rfl
      (by rw [List.map_nil, List.append_nil, isLastId])
    rw [cyclicGap_of_le first_le, List.map_nil, List.append_nil] at narrow
    have stays := wrapPosition_of_narrow 1 0
      ((isChain_sub highAscends narrow).imp fun a b small => Int.le_of_lt small)
    have isGetLast : (first :: high).getLast (List.cons_ne_nil first high) = last :=
      Option.some.inj ((List.getLast?_eq_some_getLast _).symm.trans isLast)
    simp only [List.nil_append, wrapMsgID, isGetLast, stays]
    simp
  · -- the ids wrap behind `last`
    rcases exists_last start low with ⟨before, isBefore, beforeMem⟩
    have isBeforeId : ((start :: low).map Messages.msgid).getLast? = some before.msgid := by
      rw [List.getLast?_map, isBefore]
      rfl
    have narrow := widest first.msgid before.msgid rfl
      (by rw [List.getLast?_append, isBeforeId]; rfl)
    rw [cyclicGap_of_lt (apart _ (List.mem_map_of_mem beforeMem) _ List.mem_cons_self),
      List.isChain_append] at narrow
    rcases narrow with ⟨highNarrow, lowNarrow, around⟩
    have start_lt : start.msgid < last.msgid :=
      apart _ List.mem_cons_self _ (List.mem_map_of_mem lastMem)
    have wraps := around _ isLastId start.msgid rfl
    rw [cyclicGap_of_le (Nat.le_of_lt start_lt)] at wraps
    have turns := wrapPosition_of_widest 1 0 isBeforeId rfl wraps
      (isChain_sub lowAscends lowNarrow) (isChain_sub highAscends highNarrow)
    have isGetLast : (start :: (low ++ first :: high)).getLast (List.cons_ne_nil _ _) = last := by
      have whole : (start :: (low ++ first :: high)).getLast? = some last := by
        rw [← List.cons_append, List.getLast?_append, isLast]
        rfl
      exact Option.some.inj ((List.getLast?_eq_some_getLast _).symm.trans whole)
    rw [List.cons_append]
    simp only [wrapMsgID, isGetLast, turns]
    rw [← List.cons_append, Nat.add_comm, ← List.length_cons (a := start), List.drop_left,
      List.take_left]

end Rotation

/-- The ids of the list ascend. -/
def Ascending (messages : List Messages) : Prop :=
  (messages.map Messages.msgid).Pairwise (· ≤ ·)

section Insertion

variable {messages stored : List Messages} {content : Messages}

theorem ascending_insertInOrder (ascending : Ascending messages) :
    Ascending (insertInOrder content messages) := by
  induction messages with
  | nil => exact List.pairwise_singleton _ _
  | cons m messages ih =>
      rcases List.pairwise_cons.mp ascending with ⟨least, rest⟩
      rw [insertInOrder]
      split
      case isTrue smaller =>
        refine List.pairwise_cons.mpr ⟨fun id mem => ?_, ascending⟩
        rcases List.mem_cons.mp mem with rfl | mem
        · exact Nat.le_of_lt smaller
        · exact Nat.le_trans (Nat.le_of_lt smaller) (least id mem)
      case isFalse larger =>
        refine List.pairwise_cons.mpr ⟨fun id mem => ?_, ih rest⟩
        have parts := ((insertInOrder_perm content messages).map Messages.msgid).mem_iff.mp mem
        rcases List.mem_cons.mp parts with rfl | mem
        · exact Nat.le_of_not_lt larger
        · exact least id mem

/-- Insert these messages in turn. -/
def insertAll (messages : List Messages) : List Messages → List Messages :=
  List.foldl (fun list content => insertInOrder content list) messages

theorem ascending_insertAll (ascending : Ascending messages) :
    Ascending (insertAll messages stored) := by
  induction stored generalizing messages with
  | nil => exact ascending
  | cons content stored ih => exact ih (ascending_insertInOrder ascending)

theorem insertAll_perm : (insertAll messages stored).Perm (messages ++ stored) := by
  induction stored generalizing messages with
  | nil => exact .of_eq (List.append_nil messages).symm
  | cons content stored ih =>
      have first := (insertInOrder_perm content messages).append_right stored
      exact ih.trans (first.trans List.perm_middle.symm)

/-- An ascending list is put into the sending order of its ids. -/
theorem map_wrapMsgID (ascending : Ascending messages) (order : SendingOrder)
    (perm : (messages.map Messages.msgid).Perm order.ids) :
    (wrapMsgID messages).map Messages.msgid = order.ids := by
  rcases order.rotation with ⟨sorted, isSorted, n, rotated⟩
  have permSorted : (messages.map Messages.msgid).Perm sorted := by
    rw [rotated] at perm
    exact perm.trans (List.rotate_perm sorted n)
  have same : messages.map Messages.msgid = sorted :=
    permSorted.eq_of_pairwise (fun _ _ _ _ => Nat.le_antisymm) ascending
      (isSorted.imp fun less => Nat.le_of_lt less)
  subst same
  by_cases none : messages = []
  · subst none
    exact rotated.symm
  · have inside : n % messages.length < messages.length :=
      Nat.mod_lt n (List.length_pos_iff.mpr none)
    have split := List.take_append_drop (n % messages.length) messages
    have ids_eq : order.ids =
        (messages.drop (n % messages.length) ++ messages.take (n % messages.length)).map
          Messages.msgid := by
      rw [rotated, List.rotate_eq_drop_append_take_mod, List.length_map, List.map_append,
        List.map_drop,
        List.map_take]
    have widest := order.widest
    rw [ids_eq] at widest ⊢
    rw [← split] at isSorted
    rw [← wrapMsgID_eq isSorted (by rw [Ne, List.drop_eq_nil_iff]; omega) widest, split]

end Insertion

section Loop

variable {c : Clients} {k : PersistenceKey}

/-- The client that a round of the loop leaves. -/
def Restoring.client : Restoring → Clients
  | .continues c | .failed c | .exits c => c

theorem ascending_restoreKey (ascending : Ascending c.outboundMsgs) :
    Ascending (restoreKey c k).client.outboundMsgs := by
  unfold restoreKey
  split
  · exact ascending
  · split
    · exact ascending
    · split
      · exact ascending
      · split
        · exact ascending
        · exact ascending_insertInOrder ascending
        · split
          · exact ascending
          · exact ascending
        · exact ascending

theorem ascending_restoreKeys (keys : List PersistenceKey) (ascending : Ascending c.outboundMsgs) :
    Ascending (restoreKeys c keys).client.outboundMsgs := by
  induction keys generalizing c with
  | nil => exact ascending
  | cons k keys ih =>
      have round := ascending_restoreKey (k := k) ascending
      rw [restoreKeys]
      cases next : restoreKey c k with
      | continues c' =>
          rw [next] at round
          exact ih round
      | failed c' =>
          rw [next] at round
          exact round
      | exits c' =>
          rw [next] at round
          exact round

end Loop

end MQTTPersistence

open MQTTPersistence in
theorem restart_outboundMsgs {c : Clients} {keys : List PersistenceKey}
    (wellKeyed : c.exchange.WellKeyed) (listed : keys.Perm c.recordKeys) :
    ∃ messages, Ascending messages ∧ (Session.restart c keys).outboundMsgs =
      wrapMsgID messages := by
  have mem_keys (k : PersistenceKey) : k ∈ keys ↔ (c.record k).isSome :=
    listed.mem_iff.trans (c.mem_recordKeys k)
  rcases restoreKeys_spec (c := (Session.fresh c).log .restarted) wellKeyed
    (fun k mem => (mem_keys k).mp mem) (listed.nodup_iff.mpr c.recordKeys_nodup) with
      ⟨after, done, -⟩
  have ascending := ascending_restoreKeys (c := (Session.fresh c).log .restarted) keys
    List.Pairwise.nil
  rw [done] at ascending
  exact ⟨after.outboundMsgs, ascending, by simp only [Session.restart, restorePackets, done]⟩

open MQTTPersistence in
/-- A restart puts the messages in flight into their sending order, whatever the order of the keys.
-/
theorem restart_sendingOrder {c : Clients} {keys : List PersistenceKey} (order : SendingOrder)
    (wellKeyed : c.exchange.WellKeyed) (listed : keys.Perm c.recordKeys)
    (inFlight : ∀ id, id ∈ order.ids ↔ (c.record (key .publishSent c.mqttVersion id)).isSome) :
    (Session.restart c keys).outboundMsgs.map Messages.msgid = order.ids := by
  have restores := restart_restores wellKeyed listed
  rcases restart_outboundMsgs wellKeyed listed with ⟨messages, ascending, outboundMsgs⟩
  have sameIds : ids (Session.restart c keys).exchange.outbound = ids (wrapMsgID messages) := by
    rw [Clients.exchange, ids_map_untouched, outboundMsgs]
  have distinct := restores.distinctOutbound
  rw [sameIds] at distinct
  have mem_iff (id : Nat) : id ∈ ids (wrapMsgID messages) ↔ id ∈ order.ids := by
    rw [← sameIds, inFlight, ids, List.mem_map]
    constructor
    · rintro ⟨m, mem, rfl⟩
      rcases (restores.outbound m).mp mem with ⟨publish, stored, rfl⟩
      exact Option.isSome_iff_exists.mpr ⟨_, stored⟩
    · intro present
      rcases Option.isSome_iff_exists.mp present with ⟨record, stored⟩
      rcases wellKeyed.publishSent stored with ⟨publish, rfl, rfl⟩
      exact ⟨_, (restores.outbound _).mpr ⟨publish, stored, rfl⟩, rfl⟩
  have perm : (ids (wrapMsgID messages)).Perm order.ids :=
    (List.perm_ext_iff_of_nodup distinct order.nodup).mpr mem_iff
  rw [outboundMsgs]
  exact map_wrapMsgID ascending order (((wrapMsgID_perm messages).map _).symm.trans perm)

end Paho
