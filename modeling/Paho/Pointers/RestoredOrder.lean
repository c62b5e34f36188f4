import Paho.Pointers.ListRuns
import Paho.Protocol.SendingOrder

/-!
# The list of restored messages in memory

`MQTTPersistence_insertInOrder` and `MQTTPersistence_wrapMsgID` on the elements of `outboundMsgs`,
and the lists of messages that they make.
-/

namespace Paho

open Records

namespace Lists

/-- The message that a content points to. -/
def messageAt (content : Option Messages) : ListProgram Messages Messages :=
  fun memory => content.map fun message => (message, memory)

/-- The loop of `MQTTPersistence_insertInOrder`. -/
def indexFrom (msgid : Nat) (current : Option Nat) : ListProgram Messages (Option Nat) := do
  let current ← listNextElement current
  if current = none then return none
  else
    let message ← messageAt (← load current).content
    if msgid < message.msgid then
      -- the condition of the loop comes to the next element before it sees the index
      let _ ← listNextElement current
      return current
    -- `apply` leaves no mark of its place around the call
    else by apply indexFrom; exact msgid; exact current
partial_fixpoint

/-- `MQTTPersistence_insertInOrder`. -/
def insertInOrder (malloc : Malloc Nat (ListElement Messages)) (content : Messages)
    (size : UInt64) :
    ListProgram Messages Unit := do
  let index ← indexFrom content.msgid none
  let _ ← listInsert malloc (some content) size index

/-- The loop of `MQTTPersistence_wrapMsgID`. -/
def wrapFrom (current : Option Nat) (gap : Int) (wrapel : Option Nat) :
    ListProgram Messages (Option Nat) := do
  let current ← listNextElement current
  if current = none then return wrapel
  else
    let element ← load current
    let message ← messageAt element.content
    let prev ← messageAt (← load element.prev).content
    let curgap : Int := message.msgid - prev.msgid
    if curgap > gap then by apply wrapFrom; exact current; exact curgap; exact current
    else by apply wrapFrom; exact current; exact gap; exact wrapel
partial_fixpoint

/-- Where `MQTTPersistence_wrapMsgID` finds that the ids wrap. -/
def findWrap : ListProgram Messages (Option Nat) := do
  let outboundMsgs ← look
  if outboundMsgs.count > 0 then
    let first ← messageAt (← load outboundMsgs.first).content
    let last ← messageAt (← load outboundMsgs.last).content
    let gap : Int := maxMsgId - last.msgid + first.msgid
    let current ← listNextElement none
    wrapFrom current gap none
  else return none

/-- `MQTTPersistence_wrapMsgID`. -/
def wrapMsgID : ListProgram Messages Unit := do
  let wrapel ← findWrap
  if wrapel = none then return ()
  else
    -- put `wrapel` at the beginning of the queue
    let outboundMsgs ← look
    store outboundMsgs.first fun el => { el with prev := outboundMsgs.last }
    store outboundMsgs.last fun el => { el with next := outboundMsgs.first }
    assign fun outboundMsgs => { outboundMsgs with first := wrapel }
    let prev := (← load wrapel).prev
    assign fun outboundMsgs => { outboundMsgs with last := prev }
    store wrapel fun el => { el with prev := none }
    store prev fun el => { el with next := none }

/-- Insert these messages in turn. -/
def insertAll (size : UInt64) : List (Malloc Nat (ListElement Messages) × Messages) →
    ListProgram Messages Unit
  | [] => return ()
  | (malloc, content) :: stored => do
      insertInOrder malloc content size
      insertAll size stored

/-- The elements of a list of messages. -/
def elementsOf (linked : List (Nat × Messages)) : Elements Messages :=
  linked.map fun element => (element.1, some element.2)

section Specification

variable {linked xs ys : List (Nat × Messages)}
  {rest contents : Multiset (Nat × ListElement Messages)} {vars : ListVars} {addr : Nat}
  {message : Messages}

theorem elementsOf_append : elementsOf (xs ++ ys) = elementsOf xs ++ elementsOf ys :=
  List.map_append

theorem messageAt_spec {α : Type} {continuation : Messages → ListProgram Messages α}
    {post : α → Multiset (Nat × ListElement Messages) → ListVars → Prop}
    (continues : Runs (continuation message) contents vars post) :
    Runs (messageAt (some message) >>= continuation) contents vars post :=
  continues

/-- What `MQTTPersistence_insertInOrder` inserts at: the elements in front and behind. -/
def InsertsAt (msgid : Nat) (xs ys : List (Nat × Messages)) : Prop :=
  (∀ element ∈ xs, element.2.msgid ≤ msgid) ∧ ∀ element ∈ ys.head?, msgid < element.2.msgid

theorem insertInOrder_eq {content : Messages} (insertsAt : InsertsAt content.msgid xs ys) :
    MQTTPersistence.insertInOrder content ((xs ++ ys).map Prod.snd) =
      xs.map Prod.snd ++ content :: ys.map Prod.snd := by
  induction xs with
  | nil =>
      rcases ys with _ | ⟨y, ys⟩
      · rfl
      · exact if_pos (insertsAt.2 y rfl)
  | cons x xs ih =>
      have notHere : ¬content.msgid < x.2.msgid := Nat.not_lt.mpr (insertsAt.1 x List.mem_cons_self)
      have next := ih ⟨fun element mem => insertsAt.1 element (List.mem_cons_of_mem x mem),
        insertsAt.2⟩
      rw [List.cons_append, List.map_cons, MQTTPersistence.insertInOrder, if_neg notHere, next]
      rfl

theorem indexFrom_spec {msgid : Nat} (xs ys : List (Nat × Messages))
    (represents : Represents (elementsOf xs ++ elementsOf ys) rest contents vars)
    (front : ∀ element ∈ xs, element.2.msgid ≤ msgid) :
    Runs (indexFrom msgid (lastOf none (elementsOf xs))) contents vars fun index contents' vars' =>
      contents' = contents ∧ vars' = vars ∧ ∃ front back, xs ++ ys = front ++ back ∧
        InsertsAt msgid front back ∧ index = firstOf (elementsOf back) none := by
  induction ys generalizing xs with
  | nil =>
      rw [indexFrom]
      refine listNextElement_spec _ _ represents
        (Runs.pure ⟨rfl, rfl, xs, [], rfl, ⟨front, ?_⟩, rfl⟩)
      exact fun _ none => by cases none
  | cons y ys ih =>
      rcases y with ⟨addr, message⟩
      have moved : Represents (elementsOf (xs ++ [(addr, message)]) ++ elementsOf ys)
        rest contents vars := by
        rwa [elementsOf_append, List.append_assoc]
      have isLast : lastOf none (elementsOf (xs ++ [(addr, message)])) = some addr := by
        rw [elementsOf_append, lastOf_append]
        rfl
      rw [indexFrom]
      refine listNextElement_spec _ _ represents ?_
      rw [if_neg (show firstOf (elementsOf ((addr, message) :: ys)) none ≠ none from
        Option.some_ne_none addr)]
      refine Runs.load _ (represents.mem_contents _) (messageAt_spec ?_)
      by_cases here : msgid < message.msgid
      · rw [if_pos here, show firstOf (elementsOf ((addr, message) :: ys)) none = some addr from
          rfl, ← isLast]
        refine listNextElement_spec _ _ moved
          (Runs.pure ⟨rfl, rfl, xs, (addr, message) :: ys, rfl, ⟨front, ?_⟩, isLast⟩)
        rintro _ ⟨⟩
        exact here
      · rw [if_neg here, show firstOf (elementsOf ((addr, message) :: ys)) none = some addr from
          rfl, ← isLast]
        have next := ih _ moved fun element mem => by
          rcases List.mem_append.mp mem with mem | mem
          · exact front element mem
          · rw [List.mem_singleton.mp mem]
            exact Nat.le_of_not_lt here
        rwa [List.append_assoc] at next

/-- `MQTTPersistence_insertInOrder` where `malloc` succeeds. -/
theorem insertInOrder_spec {malloc : Malloc Nat (ListElement Messages)} {content : Messages}
    {size : UInt64} (succeeds : malloc.Succeeds)
    (represents : Represents (elementsOf linked) rest contents vars) :
    Runs (insertInOrder malloc content size) contents vars fun _ contents' vars' => ∃ linked',
      linked'.map Prod.snd = MQTTPersistence.insertInOrder content (linked.map Prod.snd) ∧
        Represents (elementsOf linked') rest contents' vars' := by
  have inserted {front back : List (Nat × Messages)} (split : linked = front ++ back)
      (insertsAt : InsertsAt content.msgid front back) (addr : Nat)
      {contents' : Multiset (Nat × ListElement Messages)} {vars' : ListVars}
      (after : Represents (elementsOf front ++ (addr, some content) :: elementsOf back) rest
        contents' vars') :
      ∃ linked', linked'.map Prod.snd = MQTTPersistence.insertInOrder content
        (linked.map Prod.snd) ∧
        Represents (elementsOf linked') rest contents' vars' := by
    refine ⟨front ++ (addr, content) :: back, ?_, ?_⟩
    · rw [split, insertInOrder_eq insertsAt, List.map_append, List.map_cons]
    · rwa [elementsOf_append]
  rw [insertInOrder]
  refine Runs.bind _ (indexFrom_spec [] linked represents (fun _ none => by cases none)) ?_
  rintro index _ _ ⟨rfl, rfl, front, back, split, insertsAt, rfl⟩
  rw [List.nil_append] at split
  rcases back with _ | ⟨⟨place, message⟩, back⟩
  · have isNone : firstOf (elementsOf []) none = none := rfl
    rw [isNone, listInsert_none]
    refine Runs.bind _ (listAppend_spec represents) ?_
    rintro _ _ _ (⟨-, -, -, records, holds, failed⟩ | ⟨addr, -, -, after, -⟩)
    · exact absurd failed (holds.result_ne_none succeeds)
    · rw [split, List.append_nil] at after
      exact Runs.pure (inserted split insertsAt addr after)
  · rw [split, elementsOf_append] at represents
    refine Runs.bind _ (listInsert_spec represents) ?_
    rintro _ _ _ (⟨-, -, -, records, holds, failed⟩ | ⟨addr, -, -, after⟩)
    · exact absurd failed (holds.result_ne_none succeeds)
    · exact Runs.pure (inserted split insertsAt addr after)

/-- The pointer to the element at a position; 0 stands for none. -/
def pointerAt (linked : List (Nat × Messages)) (position : Nat) : Option Nat :=
  if position = 0 then none else linked[position]?.map Prod.fst

theorem wrapFrom_spec (xs : List (Nat × Messages)) (gap : Int) (found : Nat)
    (represents : Represents (elementsOf (xs ++ [(addr, message)]) ++ elementsOf ys) rest
      contents vars) :
    Runs (wrapFrom (some addr) gap (pointerAt (xs ++ (addr, message) :: ys) found)) contents vars
      fun wrapel contents' vars' => contents' = contents ∧ vars' = vars ∧
        wrapel = pointerAt (xs ++ (addr, message) :: ys)
          (MQTTPersistence.wrapPosition message.msgid (xs.length + 1) gap found
            (ys.map Prod.snd)) := by
  have isLast : lastOf none (elementsOf (xs ++ [(addr, message)])) = some addr := by
    rw [elementsOf_append, lastOf_append]
    rfl
  induction ys generalizing xs addr message gap found with
  | nil =>
      rw [wrapFrom, ← isLast]
      exact listNextElement_spec _ _ represents (Runs.pure ⟨rfl, rfl, rfl⟩)
  | cons y ys ih =>
      rcases y with ⟨next, nextMessage⟩
      have moved : Represents (elementsOf (xs ++ [(addr, message)] ++ [(next, nextMessage)]) ++
        elementsOf ys)
          rest contents vars := by
        rwa [elementsOf_append, List.append_assoc]
      rw [wrapFrom, ← isLast]
      refine listNextElement_spec _ _ represents ?_
      rw [if_neg (show firstOf (elementsOf ((next, nextMessage) :: ys)) none ≠ none from
        Option.some_ne_none next)]
      refine Runs.load _ (represents.mem_contents _) (messageAt_spec ?_)
      have before : (addr, ⟨lastOf none (elementsOf xs), some next, some message⟩) ∈ contents := by
        have here : Represents
          (elementsOf xs ++ (addr, some message) :: elementsOf ((next, nextMessage) :: ys))
            rest contents vars := by
          rwa [elementsOf_append, List.append_assoc] at represents
        exact here.mem_contents _
      rw [isLast]
      refine Runs.load _ before (messageAt_spec ?_)
      have position : pointerAt (xs ++ [(addr, message)] ++ (next, nextMessage) :: ys)
        (xs.length + 1) =
          some next := by
        rw [pointerAt, if_neg (Nat.succ_ne_zero _), List.getElem?_append_right (by simp)]
        simp
      have goesOn (gap : Int) (found : Nat) := ih (xs ++ [(addr, message)]) gap found
        moved (by rw [elementsOf_append, lastOf_append]; rfl)
      rw [List.length_append, List.length_singleton, List.append_assoc,
        List.singleton_append] at goesOn
      rw [List.append_assoc, List.singleton_append] at position
      rw [List.map_cons, MQTTPersistence.wrapPosition]
      dsimp only
      split
      · have further := goesOn (nextMessage.msgid - message.msgid) (xs.length + 1)
        rwa [position] at further
      · exact goesOn _ _

/-- The end of `MQTTPersistence_wrapMsgID`: the links are set so that the list begins at another
element. -/
theorem rotate_spec {found : Option Messages} {front back : Elements Messages}
    (represents : Represents (front ++ (addr, found) :: back) rest contents vars)
    (some_front : front ≠ []) :
    Runs (do
      let outboundMsgs ← look
      store outboundMsgs.first fun el => { el with prev := outboundMsgs.last }
      store outboundMsgs.last fun el => { el with next := outboundMsgs.first }
      assign fun outboundMsgs => { outboundMsgs with first := some addr }
      let prev := (← load (some addr)).prev
      assign fun outboundMsgs => { outboundMsgs with last := prev }
      store (some addr) fun el => { el with prev := none }
      store prev fun el => { el with next := none }) contents vars
      fun _ contents' vars' => Represents ((addr, found) :: back ++ front) rest contents' vars' ∧
        vars'.count = vars.count := by
  have first : vars.first = firstOf front (some addr) := by
    rw [represents.first_eq, firstOf_append, firstOf]
  have last : vars.last = lastOf none ((addr, found) :: back) := by
    rw [represents.last_eq, lastOf_append, lastOf, lastOf]
  have some_back : (addr, found) :: back ≠ [] := List.cons_ne_nil _ _
  have lastFront (prev : Option Nat) : lastOf none front = lastOf prev front := by
    cases front with
    | nil => exact absurd rfl some_front
    | cons => rfl
  have firstFront (next : Option Nat) : firstOf front (some addr) = firstOf front next := by
    cases front with
    | nil => exact absurd rfl some_front
    | cons => rfl
  refine Runs.look ?_
  rw [first, last]
  refine storePrev_spec front (some addr) none
    (links (lastOf none front) ((addr, found) :: back) none + rest)
    some_front ?_ ?_
  · rw [represents.contents_eq, links_append, firstOf, add_assoc]
  refine storeNext_spec (lastOf none front) none
    (links (lastOf none ((addr, found) :: back)) front (some addr) + rest) some_back ?_ ?_
  · ac_rfl
  refine Runs.assign
    (Runs.load ⟨lastOf none front, firstOf back (firstOf front (some addr)), found⟩ ?_ ?_)
  · rw [links]
    simp
  refine Runs.assign (storePrev_spec ((addr, found) :: back) (firstOf front (some addr))
    (lastOf none front)
    (links (lastOf none ((addr, found) :: back)) front (some addr) + rest) some_back ?_ ?_)
  · rfl
  dsimp only
  rw [lastFront (lastOf none ((addr, found) :: back)), ← bind_pure (store _ _)]
  refine storeNext_spec _ (some addr)
    (links none ((addr, found) :: back) (firstOf front (some addr)) + rest) some_front ?_ ?_
  · ac_rfl
  refine Runs.pure ⟨⟨?_, rfl, ?_, ?_, ?_⟩, rfl⟩
  · rw [links_append, firstFront none]
    ac_rfl
  · rw [lastOf_append]
  · rw [represents.count_eq, List.length_append, List.length_append, Nat.add_comm]
  · intro place isCurrent
    rcases represents.current_mem place isCurrent with ⟨content, mem⟩
    exact ⟨content, List.perm_append_comm.mem_iff.mp mem⟩

/-- Where the list of messages is rotated to. -/
def wrapPositionOf : List Messages → Nat
  | [] => 0
  | first :: messages =>
      let last := (first :: messages).getLast (List.cons_ne_nil first messages)
      MQTTPersistence.wrapPosition first.msgid 1 (maxMsgId - last.msgid + first.msgid) 0 messages

theorem wrapMsgID_eq_rotation (messages : List Messages) : MQTTPersistence.wrapMsgID messages =
    messages.drop (wrapPositionOf messages) ++ messages.take (wrapPositionOf messages) := by
  cases messages <;> rfl

theorem findWrap_spec (represents : Represents (elementsOf linked) rest contents vars) :
    Runs findWrap contents vars fun wrapel contents' vars' => contents' = contents ∧ vars' = vars ∧
      wrapel = pointerAt linked (wrapPositionOf (linked.map Prod.snd)) := by
  rw [findWrap]
  refine Runs.look ?_
  rcases linked with _ | ⟨⟨addr, message⟩, linked⟩
  · have count : vars.count = 0 := represents.count_eq
    rw [if_neg (by omega)]
    exact Runs.pure ⟨rfl, rfl, rfl⟩
  · have count := represents.count_eq
    rw [elementsOf, List.length_map, List.length_cons] at count
    rcases List.eq_nil_or_concat' ((addr, message) :: linked) with none
      | ⟨front, ⟨lastAddr, lastMessage⟩, split⟩
    · cases none
    have first : vars.first = some addr := represents.first_eq
    have isLast : vars.last = some lastAddr := by
      rw [represents.last_eq, split, elementsOf_append, lastOf_append]
      rfl
    have lastMem : (lastAddr,
      ⟨lastOf none (elementsOf front), none, some lastMessage⟩) ∈ contents := by
      have here := represents
      rw [split, elementsOf_append] at here
      exact here.mem_contents _
    have getLast : (message :: linked.map Prod.snd).getLast
      (List.cons_ne_nil _ _) = lastMessage := by
      have whole : ((((addr, message) :: linked).map Prod.snd).getLast?) = some lastMessage := by
        rw [split, List.map_append, List.map_singleton, List.getLast?_concat]
      exact Option.some.inj ((List.getLast?_eq_some_getLast _).symm.trans whole)
    rw [if_pos (by omega), first, isLast]
    refine Runs.load _ (represents.mem_contents []) (messageAt_spec ?_)
    refine Runs.load _ lastMem (messageAt_spec ?_)
    refine listNextElement_spec [] _ represents ?_
    have scan := wrapFrom_spec [] (maxMsgId - lastMessage.msgid + message.msgid) 0
      represents
    rw [List.map_cons, wrapPositionOf, getLast]
    exact scan

/-- `MQTTPersistence_wrapMsgID`. -/
theorem wrapMsgID_spec (represents : Represents (elementsOf linked) rest contents vars) :
    Runs wrapMsgID contents vars fun _ contents' vars' => ∃ linked', linked'.Perm linked ∧
      linked'.map Prod.snd = MQTTPersistence.wrapMsgID (linked.map Prod.snd) ∧
      Represents (elementsOf linked') rest contents' vars' ∧ vars'.count = vars.count := by
  rw [wrapMsgID]
  refine Runs.bind _ (findWrap_spec represents) ?_
  rintro _ _ _ ⟨rfl, rfl, rfl⟩
  generalize position_eq : wrapPositionOf (linked.map Prod.snd) = position
  have rotated : MQTTPersistence.wrapMsgID (linked.map Prod.snd) =
      (linked.drop position ++ linked.take position).map Prod.snd := by
    rw [wrapMsgID_eq_rotation, position_eq, List.map_append, List.map_drop, List.map_take]
  have perm : (linked.drop position ++ linked.take position).Perm linked :=
    List.perm_append_comm.trans (.of_eq (List.take_append_drop position linked))
  cases here : pointerAt linked position with
  | none =>
      have stays : linked.drop position ++ linked.take position = linked := by
        unfold pointerAt at here
        split at here
        case isTrue start => simp [start]
        case isFalse later =>
          have behind := List.getElem?_eq_none_iff.mp (Option.map_eq_none_iff.mp here)
          rw [List.drop_of_length_le behind, List.take_of_length_le behind, List.nil_append]
      rw [if_pos rfl]
      exact Runs.pure ⟨linked, .refl _, by rw [rotated, stays], represents, rfl⟩
  | some addr =>
      unfold pointerAt at here
      split at here
      case isTrue => cases here
      case isFalse later =>
        rcases Option.map_eq_some_iff.mp here with ⟨⟨place, message⟩, isThere, rfl⟩
        rcases List.getElem?_eq_some_iff.mp isThere with ⟨inside, is⟩
        have behind : linked.drop position = (place, message) :: linked.drop (position + 1) := by
          rw [List.drop_eq_getElem_cons inside, is]
        have some_front : elementsOf (linked.take position) ≠ [] := by
          rw [elementsOf, Ne, List.map_eq_nil_iff, List.take_eq_nil_iff]
          rintro (start | none)
          · exact later start
          · rw [none] at inside
            cases inside
        have parts := represents
        rw [← List.take_append_drop position linked, behind, elementsOf_append] at parts
        rw [if_neg (Option.some_ne_none place)]
        refine (rotate_spec parts some_front).imp ?_
        rintro _ contents' vars' ⟨after, count⟩
        refine ⟨_, perm, rotated.symm, ?_, count⟩
        rw [elementsOf_append, behind]
        exact after

/-- All messages are inserted where no `malloc` fails. -/
theorem insertAll_spec (size : UInt64)
    {stored : List (Malloc Nat (ListElement Messages) × Messages)}
    (succeeds : ∀ insertion ∈ stored, insertion.1.Succeeds)
    (represents : Represents (elementsOf linked) rest contents vars) :
    Runs (insertAll size stored) contents vars fun _ contents' vars' => ∃ linked',
      linked'.map Prod.snd = MQTTPersistence.insertAll (linked.map Prod.snd) (stored.map Prod.snd) ∧
        Represents (elementsOf linked') rest contents' vars' := by
  induction stored generalizing linked contents vars with
  | nil => exact Runs.pure ⟨linked, rfl, represents⟩
  | cons insertion stored ih =>
      rcases insertion with ⟨malloc, content⟩
      refine Runs.bind _ (insertInOrder_spec (succeeds _ List.mem_cons_self) represents) ?_
      rintro _ contents' vars' ⟨linked', isInserted, after⟩
      have next := ih (fun insertion mem => succeeds insertion (List.mem_cons_of_mem _ mem)) after
      rw [isInserted] at next
      exact next

end Specification

open MQTTPersistence in
/-- The messages in flight are restored in the order in which they were sent: in the list of the
client, and in memory, where the rotation keeps the elements and the links. -/
theorem restored_in_sendingOrder (order : SendingOrder) :
    (∀ c : Clients, ∀ keys : List PersistenceKey, c.exchange.WellKeyed → keys.Perm c.recordKeys →
      (∀ id, id ∈ order.ids ↔ (c.record (key .publishSent c.mqttVersion id)).isSome) →
      (Session.restart c keys).outboundMsgs.map Messages.msgid = order.ids) ∧
    ∀ size, ∀ stored : List (Malloc Nat (ListElement Messages) × Messages),
      (∀ insertion ∈ stored, insertion.1.Succeeds) →
      (stored.map fun insertion => insertion.2.msgid).Perm order.ids →
      ∃ memory linked memory' linked',
        Lists.insertAll size stored ⟨fun _ => none, listZero⟩ = some ((), memory) ∧
        WellFormed memory (elementsOf linked) ∧
        Lists.wrapMsgID memory = some ((), memory') ∧ WellFormed memory' (elementsOf linked') ∧
        linked'.Perm linked ∧ memory'.vars.count = memory.vars.count ∧
        (linked.map Prod.snd).Perm (stored.map Prod.snd) ∧
        linked'.map (fun element => element.2.msgid) = order.ids := by
  refine ⟨fun c keys => restart_sendingOrder order, fun size stored succeeds perm => ?_⟩
  have start : Represents (elementsOf []) 0 0 listZero :=
    ⟨rfl, rfl, rfl, rfl, fun _ isCurrent => by cases isCurrent⟩
  rcases insertAll_spec size succeeds start _ Holds.empty with
    ⟨⟨⟩, records, contents, vars, done, holds, linked, isInserted, represents⟩
  rcases wrapMsgID_spec represents _ holds with
    ⟨⟨⟩, records', contents', vars', done', holds', linked', permLinked, isWrapped, after, count⟩
  have permStored : (linked.map Prod.snd).Perm (stored.map Prod.snd) := by
    rw [isInserted]
    exact insertAll_perm
  have ids_eq := map_wrapMsgID
    (show Ascending (linked.map Prod.snd) by
      rw [isInserted]; exact ascending_insertAll List.Pairwise.nil) order (by
      refine (permStored.map Messages.msgid).trans ?_
      rw [List.map_map]
      exact perm)
  refine ⟨_, linked, _, linked', done, wellFormed_of_represents holds represents, done',
    wellFormed_of_represents holds' after, permLinked, count, permStored, ?_⟩
  rw [← ids_eq, ← isWrapped, List.map_map]
  rfl

end Lists

end Paho
