import Paho.Async.Steps

/-!
# The search for a message id

`MQTTProtocol_assignMsgId` and `MQTTAsync_assignMsgId` go through the ids in a circle, from the one
after the last id that was assigned. They stop when they are back at that id, and do not look
whether it is in use itself; when it is 0 they never get back to it.
-/

namespace Paho

namespace MQTTAsync

/-- `MQTTAsync_assignMsgId`. The queue of commands has the commands of all clients. -/
def assignMsgId (commands : List QueuedCommand) (s : MQTTAsyncs) : Option (Nat × MQTTAsyncs) :=
  match MQTTProtocol.searchMsgId ({ s with commands := commands }.usedMsgIds) s.c.msgID
    (maxMsgId + 1)
      (MQTTProtocol.nextMsgId s.c.msgID) with
  | none => none
  | some msgid =>
      some (msgid, if msgid ≠ 0 then { s with c := { s.c with msgID := msgid } } else s)

/-- With one client only. -/
theorem assignMsgId_own (s : MQTTAsyncs) : assignMsgId s.commands s = s.assignMsgId :=
  rfl

end MQTTAsync

namespace MessageIds

open MQTTProtocol

/-- The id that the search looks at after `n` others. -/
def walk (start n : Nat) : Nat :=
  (start + n) % maxMsgId + 1

/-- An id that can be assigned. -/
def Free (used : List Nat) (msgid : Nat) : Prop :=
  1 ≤ msgid ∧ msgid ≤ maxMsgId ∧ msgid ∉ used

variable {used : List Nat} {start n k fuel msgid : Nat}

theorem nextMsgId_start (inRange : start ≤ maxMsgId) : nextMsgId start = walk start 0 := by
  unfold nextMsgId walk
  by_cases last : start = maxMsgId
  · rw [if_pos last, last]
    rfl
  · rw [if_neg last]
    simp only [maxMsgId] at inRange last ⊢
    omega

theorem nextMsgId_walk : nextMsgId (walk start n) = walk start (n + 1) := by
  unfold nextMsgId walk
  by_cases last : (start + n) % maxMsgId + 1 = maxMsgId
  · rw [if_pos last]
    simp only [maxMsgId] at last ⊢
    omega
  · rw [if_neg last]
    simp only [maxMsgId] at last ⊢
    omega

theorem walk_inRange : 1 ≤ walk start n ∧ walk start n ≤ maxMsgId := by
  simp only [walk, maxMsgId]
  omega

/-- When the search is back where it started. -/
theorem walk_eq_start (inRange : start ≤ maxMsgId) :
    walk start n = start ↔ 1 ≤ start ∧ n % maxMsgId = maxMsgId - 1 := by
  simp only [walk, maxMsgId] at inRange ⊢
  omega

/-- The search comes to every id. -/
theorem exists_walk (inRange : start ≤ maxMsgId) (isId : 1 ≤ msgid ∧ msgid ≤ maxMsgId) :
    ∃ n < maxMsgId, walk start n = msgid := by
  refine ⟨(msgid + 2 * maxMsgId - 1 - start) % maxMsgId, ?_, ?_⟩
  · exact Nat.mod_lt _ (by decide)
  · simp only [walk, maxMsgId] at inRange isId ⊢
    omega

theorem free_walk_iff : Free used (walk start n) ↔ walk start n ∉ used := by
  have inRange := @walk_inRange start n
  simp only [Free, inRange, true_and]

/-- The search finds the first id that is not in use, if it is not back before. -/
theorem searchMsgId_found (taken : ∀ j < k, walk start (n + j) ∈ used)
    (going : ∀ j < k, walk start (n + j + 1) ≠ start) (free : walk start (n + k) ∉ used)
    (enough : k < fuel) :
    searchMsgId used start fuel (walk start n) = some (walk start (n + k)) := by
  induction k generalizing n fuel with
  | zero =>
      rcases Nat.exists_eq_add_one.mpr enough with ⟨fuel, rfl⟩
      rw [Nat.add_zero] at free
      rw [searchMsgId, if_neg free]
      rfl
  | succ k ih =>
      rcases Nat.exists_eq_add_one.mpr (Nat.zero_lt_of_lt enough) with ⟨fuel, rfl⟩
      have first : walk start n ∈ used := taken 0 (Nat.succ_pos k)
      have notBack : walk start (n + 1) ≠ start := going 0 (Nat.succ_pos k)
      have shift (j : Nat) : n + 1 + j = n + (j + 1) := by omega
      rw [searchMsgId, if_pos first, nextMsgId_walk, if_neg notBack, ← shift k]
      apply ih
      · intro j before
        rw [shift]
        exact taken (j + 1) (Nat.succ_lt_succ before)
      · intro j before
        rw [shift]
        exact going (j + 1) (Nat.succ_lt_succ before)
      · rw [shift]
        exact free
      · exact Nat.lt_of_succ_lt_succ enough

/-- The search gives up when it is back. -/
theorem searchMsgId_around (taken : ∀ j ≤ k, walk start (n + j) ∈ used)
    (going : ∀ j < k, walk start (n + j + 1) ≠ start) (back : walk start (n + k + 1) = start)
    (enough : k < fuel) : searchMsgId used start fuel (walk start n) = some 0 := by
  induction k generalizing n fuel with
  | zero =>
      rcases Nat.exists_eq_add_one.mpr enough with ⟨fuel, rfl⟩
      have first : walk start n ∈ used := taken 0 (Nat.le_refl 0)
      rw [searchMsgId, if_pos first, nextMsgId_walk]
      exact if_pos back
  | succ k ih =>
      rcases Nat.exists_eq_add_one.mpr (Nat.zero_lt_of_lt enough) with ⟨fuel, rfl⟩
      have first : walk start n ∈ used := taken 0 (Nat.zero_le _)
      have notBack : walk start (n + 1) ≠ start := going 0 (Nat.succ_pos k)
      have shift (j : Nat) : n + 1 + j = n + (j + 1) := by omega
      rw [searchMsgId, if_pos first, nextMsgId_walk, if_neg notBack]
      apply ih
      · intro j before
        rw [shift]
        exact taken (j + 1) (Nat.succ_le_succ before)
      · intro j before
        rw [shift]
        exact going (j + 1) (Nat.succ_lt_succ before)
      · rw [shift]
        exact back
      · exact Nat.lt_of_succ_lt_succ enough

/-- The search never gets back, and nothing is free. -/
theorem searchMsgId_endless (taken : ∀ j, walk start j ∈ used) (going : ∀ j, walk start j ≠ start)
    (fuel n : Nat) : searchMsgId used start fuel (walk start n) = none := by
  induction fuel generalizing n with
  | zero => rfl
  | succ fuel ih =>
      rw [searchMsgId, if_pos (taken n), nextMsgId_walk, if_neg (going (n + 1))]
      exact ih (n + 1)

/-- What the search comes to: an id that is free and is not the last one, if there is one; otherwise
0, unless it has no end. -/
theorem searchMsgId_spec (inRange : start ≤ maxMsgId) :
    (∃ msgid, searchMsgId used start (maxMsgId + 1) (nextMsgId start) = some msgid ∧
        Free used msgid ∧ msgid ≠ start) ∨
      ((∀ msgid, Free used msgid → msgid = start) ∧
        if 1 ≤ start then searchMsgId used start (maxMsgId + 1) (nextMsgId start) = some 0
        else ∀ fuel, searchMsgId used start fuel (nextMsgId start) = none) := by
  rw [nextMsgId_start inRange]
  by_cases someFree : ∃ n, walk start n ∉ used ∧ walk start n ≠ start
  · left
    -- the first id that is free, among those before the search is back
    have firstFree := Nat.find_spec someFree
    have before {j : Nat} (less : j < Nat.find someFree) :
        walk start j ∈ used ∨ walk start j = start := by
      by_contra neither
      rw [not_or] at neither
      exact Nat.find_min someFree less neither
    rcases exists_walk inRange ⟨(@walk_inRange start (Nat.find someFree)).1, walk_inRange.2⟩ with
      ⟨n, few, same⟩
    have least : Nat.find someFree ≤ n := Nat.find_min' someFree (by rw [same]; exact firstFree)
    have notBack {j : Nat} (within : j ≤ Nat.find someFree) : walk start j ≠ start := by
      intro back
      have last := (walk_eq_start inRange).mp back
      have notLast := mt (walk_eq_start inRange).mpr firstFree.2
      simp only [maxMsgId] at last notLast few
      omega
    refine ⟨walk start (Nat.find someFree), ?_, free_walk_iff.mpr firstFree.1, firstFree.2⟩
    have found := @searchMsgId_found used start 0 (Nat.find someFree) (maxMsgId + 1)
    rw [Nat.zero_add] at found
    apply found
    · intro j less
      rw [Nat.zero_add]
      exact (before less).resolve_right (notBack (Nat.le_of_lt less))
    · intro j less
      rw [Nat.zero_add]
      exact notBack less
    · exact firstFree.1
    · omega
  · right
    have others (j : Nat) : walk start j ∈ used ∨ walk start j = start := by
      by_contra neither
      rw [not_or] at neither
      exact someFree ⟨j, neither⟩
    constructor
    · intro msgid free
      rcases exists_walk inRange ⟨free.1, free.2.1⟩ with ⟨n, _, rfl⟩
      exact (others n).resolve_left free.2.2
    · split
      next positive =>
        have notBack {j : Nat} (within : j < maxMsgId - 1) : walk start j ≠ start := by
          intro back
          have last := (walk_eq_start inRange).mp back
          simp only [maxMsgId] at last within
          omega
        have around := @searchMsgId_around used start 0 (maxMsgId - 2) (maxMsgId + 1)
        apply around
        · intro j within
          rw [Nat.zero_add]
          apply (others j).resolve_right
          apply notBack
          simp only [maxMsgId] at within ⊢
          omega
        · intro j within
          rw [Nat.zero_add]
          apply notBack
          simp only [maxMsgId] at within ⊢
          omega
        · rw [walk_eq_start inRange]
          exact ⟨positive, by decide⟩
        · decide
      next zero =>
        have never (j : Nat) : walk start j ≠ start := by
          intro back
          exact zero ((walk_eq_start inRange).mp back).1
        intro fuel
        apply searchMsgId_endless
        · intro j
          exact (others j).resolve_right (never j)
        · exact never

/-- The search that has not come to an end in one circle has none. -/
theorem searchMsgId_eq_none_iff (inRange : start ≤ maxMsgId) :
    searchMsgId used start (maxMsgId + 1) (nextMsgId start) = none ↔
      ∀ fuel, searchMsgId used start fuel (nextMsgId start) = none := by
  constructor
  · intro isNone
    rcases @searchMsgId_spec used start inRange with ⟨msgid, found, _⟩ | ⟨_, spec⟩
    · cases isNone.symm.trans found
    · split at spec
      · cases isNone.symm.trans spec
      · exact spec
  · intro never
    exact never _

/-- What the allocation of an id has to do: it comes to an end and yields an id that is free, if
there is one, and otherwise 0. `assigned` has the result and the last id after the call. -/
def Allocates (used : List Nat) (msgID : Nat) (assigned : Option (Nat × Nat)) : Prop :=
  ∃ msgid last, assigned = some (msgid, last) ∧
    ((∃ free, Free used free) → Free used msgid ∧ last = msgid) ∧
    ((∀ msgid, ¬Free used msgid) → msgid = 0 ∧ last = msgID)

/-- Some id other than the last one is free, or the last one is in use as well. -/
def Searchable (used : List Nat) (msgID : Nat) : Prop :=
  (∃ free, Free used free ∧ free ≠ msgID) ∨ (1 ≤ msgID ∧ msgID ∈ used)

/-- The two functions are the search and the assignment of its result. -/
theorem allocates_search_iff (inRange : start ≤ maxMsgId) {assigned : Option (Nat × Nat)}
    (isSearch : assigned = (searchMsgId used start (maxMsgId + 1) (nextMsgId start)).map
      fun msgid => (msgid, if msgid ≠ 0 then msgid else start)) :
    Allocates used start assigned ↔ Searchable used start := by
  subst isSearch
  rcases @searchMsgId_spec used start inRange with ⟨msgid, found, free, other⟩ | ⟨onlyLast, spec⟩
  · have nonzero : msgid ≠ 0 := Nat.ne_of_gt free.1
    rw [found]
    refine iff_of_true ⟨msgid, msgid, ?_, fun _ => ⟨free, rfl⟩,
      fun none => absurd free (none msgid)⟩
      (.inl ⟨msgid, free, other⟩)
    simp [nonzero]
  · have noOther : ¬∃ free, Free used free ∧ free ≠ start := by
      rintro ⟨msgid, free, other⟩
      exact other (onlyLast msgid free)
    rw [Searchable, or_iff_right noOther]
    split at spec
    next positive =>
      rw [spec, and_iff_right positive]
      constructor
      · rintro ⟨msgid, last, same, finds, -⟩
        by_contra unused
        cases same
        have zero := (finds ⟨start, positive, inRange, unused⟩).1.1
        exact absurd zero (by decide)
      · intro inUse
        have noneFree (msgid : Nat) : ¬Free used msgid := by
          intro free
          rw [onlyLast msgid free] at free
          exact free.2.2 inUse
        exact ⟨0, start, rfl, fun ⟨msgid, free⟩ => absurd free (noneFree msgid),
          fun _ => ⟨rfl, rfl⟩⟩
    next zero =>
      rw [spec]
      refine iff_of_false ?_ (fun both => zero both.1)
      rintro ⟨msgid, last, same, -⟩
      cases same

theorem assignMsgId_eq (c : Clients) :
    (MQTTProtocol.assignMsgId c).map (fun (msgid, c) => (msgid, c.msgID)) =
      (searchMsgId (ids c.outboundMsgs) c.msgID (maxMsgId + 1) (nextMsgId c.msgID)).map
        fun msgid => (msgid, if msgid ≠ 0 then msgid else c.msgID) := by
  unfold MQTTProtocol.assignMsgId
  split
  next isNone => rw [isNone]; rfl
  next msgid isSome =>
    rw [isSome]
    by_cases zero : msgid = 0 <;> simp [zero]

theorem assignMsgId_async_eq (commands : List QueuedCommand) (s : MQTTAsyncs) :
    (MQTTAsync.assignMsgId commands s).map (fun (msgid, s) => (msgid, s.c.msgID)) =
      (searchMsgId ({ s with commands := commands }.usedMsgIds) s.c.msgID (maxMsgId + 1)
        (nextMsgId s.c.msgID)).map fun msgid =>
          (msgid, if msgid ≠ 0 then msgid else s.c.msgID) := by
  unfold MQTTAsync.assignMsgId
  split
  next isNone => rw [isNone]; rfl
  next msgid isSome =>
    rw [isSome]
    by_cases zero : msgid = 0 <;> simp [zero]

/-- Both functions do what they have to exactly when some id other than the last one is free, or the
last one is in use as well. -/
theorem allocates_iff (c : Clients) (commands : List QueuedCommand) (s : MQTTAsyncs)
    (inRange : c.msgID ≤ maxMsgId) (inRange' : s.c.msgID ≤ maxMsgId) :
    (Allocates (ids c.outboundMsgs) c.msgID
        ((MQTTProtocol.assignMsgId c).map fun (msgid, c) => (msgid, c.msgID)) ↔
      Searchable (ids c.outboundMsgs) c.msgID) ∧
    (Allocates ({ s with commands := commands }.usedMsgIds) s.c.msgID
        ((MQTTAsync.assignMsgId commands s).map fun (msgid, s) => (msgid, s.c.msgID)) ↔
      Searchable ({ s with commands := commands }.usedMsgIds) s.c.msgID) := by
  constructor
  · exact allocates_search_iff inRange (assignMsgId_eq c)
  · exact allocates_search_iff inRange' (assignMsgId_async_eq commands s)

/-- A client with the message ids `msgids` in flight. -/
def clientWith (msgID : Nat) (msgids : List Nat) : Clients :=
  { Session.create mqttVersion311 true none with
    msgID := msgID
    outboundMsgs := msgids.map fun msgid =>
      { qos := 1, retain := false, msgid := msgid, mqttVersion := mqttVersion311, properties := [],
        publish := none, lastTouch := 0, nextMessageType := none } }

theorem ids_clientWith (msgID : Nat) (msgids : List Nat) :
    ids (clientWith msgID msgids).outboundMsgs = msgids := by
  simp only [clientWith, ids, List.map_map]
  exact List.map_id msgids

/-- After 1, the id 2 is assigned when nothing is in flight. -/
theorem allocates_iff_idle :
    Allocates (ids (clientWith 1 []).outboundMsgs) (clientWith 1 []).msgID
        ((MQTTProtocol.assignMsgId (clientWith 1 [])).map fun (msgid, c) => (msgid, c.msgID)) ∧
      Allocates (AsyncSession.create mqttVersion311 true 10 none).usedMsgIds 0
        ((MQTTAsync.assignMsgId [] (AsyncSession.create mqttVersion311 true 10 none)).map
          fun (msgid, s) => (msgid, s.c.msgID)) := by
  have both := allocates_iff (clientWith 1 []) [] (AsyncSession.create mqttVersion311 true 10 none)
    (by decide) (by decide)
  constructor
  · apply both.1.mpr
    exact .inl ⟨2, ⟨by decide, by decide, by simp [ids_clientWith]⟩, by decide⟩
  · apply both.2.mpr
    exact .inl ⟨2, ⟨by decide, by decide, by decide⟩, by decide⟩

/-- The last id is 5 and has been given back, and all others are in flight: 0 is returned. -/
theorem not_allocates :
    ¬Allocates (ids (clientWith 5 ((List.range' 1 maxMsgId).erase 5)).outboundMsgs)
      (clientWith 5 ((List.range' 1 maxMsgId).erase 5)).msgID
      ((MQTTProtocol.assignMsgId (clientWith 5 ((List.range' 1 maxMsgId).erase 5))).map
        fun (msgid, c) => (msgid, c.msgID)) := by
  have inRange : (clientWith 5 ((List.range' 1 maxMsgId).erase 5)).msgID ≤ maxMsgId := by
    change 5 ≤ 65535
    omega
  rw [allocates_search_iff inRange (assignMsgId_eq _), ids_clientWith]
  have distinct : (List.range' 1 maxMsgId).Nodup := List.nodup_range'
  rintro (⟨msgid, ⟨positive, bound, unused⟩, other⟩ | ⟨_, inUse⟩)
  · apply unused
    apply (List.mem_erase_of_ne other).mpr
    rw [List.mem_range'_1]
    omega
  · exact distinct.not_mem_erase inUse

end MessageIds

end Paho
