import Paho.Protocol.RetryPasses

/-!
# Resending after a reconnection

What the retry passes of one connection send again. Two counters decide whether there is another
pass after one that is cut short. The messages that were in flight when the connection was made
are all sent again, in their order, if no pass that is cut short brings the counters together.
-/

namespace Paho

section Order

/-- In a list without repetitions, what comes before an element stands on its left. -/
theorem mem_left_of_sublist {first second : Nat} {left right : List Nat}
    (distinct : (left ++ second :: right).Nodup)
    (before : [first, second].Sublist (left ++ second :: right)) : first ∈ left := by
  induction left with
  | nil =>
      have absent : second ∉ right := (List.nodup_cons.mp distinct).1
      cases before with
      | cons _ rest => exact absurd (rest.subset (by simp)) absent
      | cons_cons _ rest => exact absurd (rest.subset (by simp)) absent
  | cons other left ih =>
      cases before with
      | cons _ rest =>
          exact List.mem_cons_of_mem _ (ih (List.nodup_cons.mp distinct).2 rest)
      | cons_cons _ rest => exact List.mem_cons_self

/-- An element that occurs once splits a list in one way. -/
theorem left_eq_of_split {element : Nat} {left right left' right' : List Nat}
    (distinct : (left ++ element :: right).Nodup)
    (same : left ++ element :: right = left' ++ element :: right') : left = left' := by
  induction left generalizing left' with
  | nil =>
      cases left' with
      | nil => rfl
      | cons other left' =>
          rcases List.cons.inj same with ⟨rfl, rfl⟩
          exact absurd (by simp) (List.nodup_cons.mp distinct).1
  | cons other left ih =>
      cases left' with
      | nil =>
          rcases List.cons.inj same with ⟨rfl, _⟩
          exact absurd (by simp) (List.nodup_cons.mp distinct).1
      | cons other' left' =>
          rcases List.cons.inj same with ⟨rfl, rest⟩
          exact congrArg (other :: ·) (ih (List.nodup_cons.mp distinct).2 rest)

/-- A split of two lists put together splits one of them. -/
theorem split_append {element : Nat} {first second left right : List Nat}
    (same : first ++ second = left ++ element :: right) :
    (∃ rest, first = left ++ element :: rest ∧ right = rest ++ second) ∨
      ∃ rest, second = rest ++ element :: right := by
  rcases List.append_eq_append_iff.mp same with ⟨rest, _, second⟩ | ⟨rest, first, second⟩
  · exact .inr ⟨rest, second⟩
  · cases rest with
    | nil => exact .inr ⟨[], second.symm⟩
    | cons other rest =>
        rcases List.cons.inj second with ⟨rfl, right⟩
        exact .inl ⟨rest, first, right⟩

end Order

namespace Clients

/-- Every message in flight that is left over from before this connection was sent again. -/
def ResentAll (c : Clients) : Prop :=
  ∀ m ∈ c.outboundMsgs, c.LeftOver m.msgid → m.msgid ∈ c.resends

/-- The messages left over from before this connection are sent again in their order: whenever
one is sent again, the unacknowledged ones before it were sent again earlier. -/
def ResentInOrder (c : Clients) : Prop :=
  ∀ first second, [first, second].Sublist (ids c.outboundMsgs) →
    c.LeftOver first → c.LeftOver second → c.Unacknowledged first →
      ∀ newer older, c.resends = newer ++ second :: older → first ∈ older

/-- An unacknowledged message that was touched on this connection was sent again. -/
def TouchedResent (c : Clients) : Prop :=
  ∀ m ∈ c.outboundMsgs, c.LeftOver m.msgid → c.Unacknowledged m.msgid → m.lastTouch ≠ 0 →
    m.msgid ∈ c.resends

end Clients

/-- What the retry passes of the present connection have sent so far. -/
structure Resending (c : Clients) : Prop where
  complete : c.connectSent = c.connectCount → c.ResentAll
  ordered : c.ResentInOrder
  touched : c.TouchedResent

/-- The connection is closed, or open and the books are right. -/
def Settled (c : Clients) : Prop :=
  Closed c ∨ (c.connected = true ∧ c.good = true ∧ Resending c)

theorem Quiet.resending {c c' : Clients} (quiet : Quiet c c') (resending : Resending c) :
    Resending c' where
  complete := by
    intro same m' mem leftOver
    rw [quiet.sent, quiet.count] at same
    rw [quiet.resends]
    rcases quiet.touched m' mem with ⟨m, mem, id, _⟩
    rw [← id]
    exact resending.complete same m mem (id ▸ quiet.leftOver leftOver)
  ordered := by
    intro first second before leftOver leftOver' unacknowledged
    rw [quiet.resends]
    exact resending.ordered first second (before.trans quiet.order) (quiet.leftOver leftOver)
      (quiet.leftOver leftOver') (quiet.unacknowledged unacknowledged)
  touched := by
    intro m' mem leftOver unacknowledged lastTouch
    rw [quiet.resends]
    rcases quiet.touched m' mem with ⟨m, mem, id, same | received⟩
    · rw [← id] at leftOver unacknowledged ⊢
      exact resending.touched m mem (quiet.leftOver leftOver) (quiet.unacknowledged unacknowledged)
        (same ▸ lastTouch)
    · exact absurd received (id ▸ unacknowledged)

namespace Passes

variable {due : Messages → Bool} {regardless : Bool} {visited : List Messages} {c c' : Clients}

theorem since (passes : Passes due regardless visited c c') :
    ∃ events, sinceConnected c'.trace = events ++ sinceConnected c.trace ∧
      (∀ event ∈ events, event.OfPass) ∧
        resentIds events = (ids (visited.filter due)).reverse := by
  rcases passes.trace with ⟨events, trace, ofPass, resent⟩
  refine ⟨events, ?_, ofPass, resent⟩
  rw [trace, sinceConnected_append fun mem => ofPass _ mem]

theorem resends (passes : Passes due regardless visited c c') :
    c'.resends = (ids (visited.filter due)).reverse ++ c.resends := by
  rcases passes.since with ⟨events, since, _, resent⟩
  unfold Clients.resends
  rw [since, resentIds_append, resent]

theorem leftOver (passes : Passes due regardless visited c c') {msgid : Nat} :
    c'.LeftOver msgid ↔ c.LeftOver msgid := by
  rcases passes.since with ⟨events, since, ofPass, _⟩
  unfold Clients.LeftOver
  rw [since]
  constructor
  · intro leftOver event mem
    exact leftOver event (List.mem_append_right _ mem)
  · intro leftOver event mem
    rcases List.mem_append.mp mem with new | old
    · have other := ofPass event new
      cases event <;> first | rfl | exact other.elim
    · exact leftOver event old

theorem unacknowledged (passes : Passes due regardless visited c c') {msgid : Nat}
    (unacknowledged : c'.Unacknowledged msgid) : c.Unacknowledged msgid := by
  rcases passes.since with ⟨events, since, _⟩
  intro mem
  apply unacknowledged
  rw [since]
  exact List.mem_append_right _ mem

theorem touchedResent (passes : Passes due regardless visited c c') (touched : c.TouchedResent) :
    c'.TouchedResent := by
  intro m' mem leftOver unacknowledged lastTouch
  rw [passes.resends]
  rcases passes.touched m' mem with ⟨m, mem, id, same⟩ | sent
  · rw [← id] at leftOver unacknowledged ⊢
    exact List.mem_append_right _ (touched m mem (passes.leftOver.mp leftOver)
      (passes.unacknowledged unacknowledged) (same ▸ lastTouch))
  · exact List.mem_append_left _ (List.mem_reverse.mpr sent)

/-- What a pass sends for messages in flight comes in their order, and after what was sent
before; a message that the pass leaves out was sent before. -/
theorem resentInOrder (passes : Passes due regardless visited c c')
    (distinct : (ids c.outboundMsgs).Nodup) (isPrefix : visited <+: c.outboundMsgs)
    (leftOut : ∀ m m', due m = true → due m' = false → m'.lastTouch ≠ 0)
    (ordered : c.ResentInOrder) (touched : c.TouchedResent) : c'.ResentInOrder := by
  intro first second before leftOver leftOver' unacknowledged newer older resends
  rw [passes.order] at before
  have leftOver := passes.leftOver.mp leftOver
  have leftOver' := passes.leftOver.mp leftOver'
  have unacknowledged := passes.unacknowledged unacknowledged
  rw [passes.resends] at resends
  rcases split_append resends with ⟨rest, sent, rfl⟩ | ⟨rest, sent⟩
  · apply List.mem_append.mpr
    rcases isPrefix with ⟨unvisited, split⟩
    -- the message with the second id is due, and the first one is visited before it
    have sent : ids (visited.filter due) = rest.reverse ++ second :: newer.reverse := by
      have reversed := congrArg List.reverse sent
      simpa using reversed
    have isSent : second ∈ ids (visited.filter due) := by simp [sent]
    rcases mem_ids.mp isSent with ⟨m, isVisited, rfl⟩
    rcases List.mem_filter.mp isVisited with ⟨mem, isDue⟩
    rcases List.append_of_mem mem with ⟨left, right, rfl⟩
    have allIds : ids c.outboundMsgs = ids left ++ m.msgid :: ids (right ++ unvisited) := by
      rw [← split]
      simp
    rw [allIds] at before distinct
    rcases mem_ids.mp (mem_left_of_sublist distinct before) with ⟨m', mem', rfl⟩
    have inFlight : m' ∈ c.outboundMsgs := by
      rw [← split]
      simp [mem']
    cases isDue' : due m' with
    | true =>
        left
        rw [List.filter_append, List.filter_cons_of_pos isDue, ids_append, ids_cons] at sent
        have fewer : (ids (left.filter due) ++ m.msgid :: ids (right.filter due)).Nodup := by
          refine List.Nodup.sublist ?_ distinct
          apply List.Sublist.append
          · exact List.filter_sublist.map _
          · apply List.Sublist.cons_cons
            rw [ids_append]
            exact (List.filter_sublist.map _).trans (List.sublist_append_left _ _)
        rw [← List.mem_reverse, ← left_eq_of_split fewer sent]
        exact mem_ids_of_mem (List.mem_filter.mpr ⟨mem', isDue'⟩)
    | false =>
        right
        exact touched m' inFlight leftOver unacknowledged (leftOut m m' isDue isDue')
  · exact ordered first second before leftOver leftOver' unacknowledged rest older sent

/-- One pass over the messages in flight. -/
theorem resending (passes : Passes due regardless visited c c')
    (distinct : (ids c.outboundMsgs).Nodup) (isPrefix : visited <+: c.outboundMsgs)
    (leftOut : ∀ m m', due m = true → due m' = false → m'.lastTouch ≠ 0)
    (ordered : c.ResentInOrder) (touched : c.TouchedResent)
    (complete : c'.connectSent = c'.connectCount →
      ∀ m ∈ c.outboundMsgs, c.LeftOver m.msgid → m.msgid ∈ c'.resends) : Resending c' where
  complete := by
    intro same m' mem leftOver
    have known : m'.msgid ∈ ids c.outboundMsgs := passes.order ▸ mem_ids_of_mem mem
    rcases mem_ids.mp known with ⟨m, mem, id⟩
    rw [← id] at leftOver ⊢
    exact complete same m mem (passes.leftOver.mp leftOver)
  ordered := passes.resentInOrder distinct isPrefix leftOut ordered touched
  touched := passes.touchedResent touched

end Passes

theorem interruptedAt_le {writes : List CompletionCode} {messages : List Messages} {k : Nat}
    (cut : interruptedAt writes messages = some k) : k ≤ messages.length := by
  induction writes generalizing messages k with
  | nil => cases cut
  | cons rc writes ih =>
      cases messages with
      | nil => cases (interruptedAt_nil (rc :: writes)).symm.trans cut
      | cons m rest =>
          cases rc with
          | complete =>
              rcases Option.map_eq_some_iff.mp cut with ⟨k, rest, rfl⟩
              exact Nat.succ_le_succ (ih rest)
          | interrupted =>
              simp only [interruptedAt, Option.ite_none_right_eq_some, Option.some.injEq] at cut
              simp only [List.length_cons]
              omega
          | socketError => cases cut

/-- A pass that sends for every message it visits. -/
theorem reaches_regardless {now : Nat} {retryInterval : Int} {writes : List CompletionCode}
    {messages visited : List Messages}
    (reaches : Reaches (isDue now true retryInterval) writes messages visited) :
    (interruptedAt writes messages = none ∧ visited = messages) ∨
      ∃ k, interruptedAt writes messages = some k ∧ visited = messages.take k ∧
        visited.length = k := by
  have all (messages : List Messages) : messages.filter (isDue now true retryInterval) = messages :=
    List.filter_eq_self.mpr fun _ _ => rfl
  unfold Reaches at reaches
  rw [all, all] at reaches
  cases cut : interruptedAt writes messages with
  | none =>
      rw [cut] at reaches
      exact .inl ⟨rfl, reaches⟩
  | some k =>
      rw [cut] at reaches
      refine .inr ⟨k, rfl, reaches, ?_⟩
      change visited = _ at reaches
      rw [reaches, List.length_take]
      exact Nat.min_eq_left (interruptedAt_le cut)

/-- A pass for every message in flight keeps the books right, if an interruption that brings the
counters together leaves no message behind. -/
theorem retryLoop_regardless {now : Nat} {c : Clients} (awaits : ∀ m ∈ c.outboundMsgs, m.Due)
    (distinct : (ids c.outboundMsgs).Nodup) (connected : c.connected = true)
    (good : c.good = true) (idle : c.net.pendingWrites = false)
    (ordered : c.ResentInOrder) (touched : c.TouchedResent)
    (reached : ∀ k ∈ interruptedAt c.net.writes c.outboundMsgs,
      (∃ m ∈ c.outboundMsgs.drop k, c.LeftOver m.msgid ∧ m.msgid ∉ c.resends) →
        c.connectSent + k ≠ c.connectCount) :
    let c' := MQTTProtocol.retryLoop now true c c.outboundMsgs
    Settled c' := by
  intro c'
  rcases retryLoop_spec now true awaits connected good idle with
    ⟨closed, _⟩ | ⟨visited, passes, isPrefix, reaches⟩
  · exact .inl closed
  · refine .inr ⟨passes.connected, passes.good, ?_⟩
    have all : visited.filter (isDue now true c.retryInterval) = visited :=
      List.filter_eq_self.mpr fun _ _ => rfl
    have resends := passes.resends
    rw [all] at resends
    apply passes.resending distinct isPrefix isDue_leftOut ordered touched
    · intro same m mem leftOver
      rw [resends, List.mem_append, List.mem_reverse]
      rcases reaches_regardless reaches with ⟨_, rfl⟩ | ⟨k, cut, rfl, length⟩
      · exact .inl (mem_ids_of_mem mem)
      · have sent : c.connectSent + k = c.connectCount := by
          rw [passes.sent, passes.count, if_pos rfl, length] at same
          exact same
        rcases List.mem_append.mp (List.take_append_drop k c.outboundMsgs ▸ mem) with
          visited | unvisited
        · exact .inl (mem_ids_of_mem visited)
        · right
          by_contra unsent
          exact reached k cut ⟨m, unvisited, leftOver, unsent⟩ sent

/-- A pass after the interval keeps the books right: a message that it leaves out was touched on
this connection. -/
theorem retryLoop_timed {now : Nat} {c : Clients} (awaits : ∀ m ∈ c.outboundMsgs, m.Due)
    (distinct : (ids c.outboundMsgs).Nodup) (connected : c.connected = true)
    (good : c.good = true) (idle : c.net.pendingWrites = false) (resending : Resending c) :
    let c' := MQTTProtocol.retryLoop now false c c.outboundMsgs
    Settled c' := by
  intro c'
  rcases retryLoop_spec now false awaits connected good idle with
    ⟨closed, _⟩ | ⟨visited, passes, isPrefix, _⟩
  · exact .inl closed
  · refine .inr ⟨passes.connected, passes.good, ?_⟩
    apply passes.resending distinct isPrefix isDue_leftOut resending.ordered resending.touched
    intro same m mem leftOver
    rw [passes.sent, passes.count] at same
    rw [passes.resends]
    exact List.mem_append_right _ (resending.complete same m mem leftOver)

/-- A retry pass on an open connection. -/
theorem retry_resending {c : Clients} {doRetry : Bool} (awaits : ∀ m ∈ c.outboundMsgs, m.Due)
    (distinct : (ids c.outboundMsgs).Nodup) (connected : c.connected = true)
    (good : c.good = true) (resending : Resending c)
    (reached : doRetry = true → c.net.pendingWrites = false → c.connectSent < c.connectCount →
      ∀ k ∈ interruptedAt c.net.writes c.outboundMsgs,
        (∃ m ∈ c.outboundMsgs.drop k, c.LeftOver m.msgid ∧ m.msgid ∉ c.resends) →
          c.connectSent + k ≠ c.connectCount) :
    let c' := MQTTProtocol.retry c.clock doRetry false c
    Settled c' := by
  have unchanged : Settled c := .inr ⟨connected, good, resending⟩
  simp only [MQTTProtocol.retry, connected, good, Socket.noPendingWrites, Bool.not_true,
    Bool.false_eq_true, if_false, Bool.not_not]
  split
  · exact unchanged
  next notPending =>
    have idle : c.net.pendingWrites = false := by simpa using notPending
    split
    next isRetry =>
      simp only [MQTTProtocol.retries, Bool.false_eq_true, if_false]
      split
      · exact unchanged
      · cases counts : decide (c.connectSent < c.connectCount) with
        | true =>
            exact retryLoop_regardless awaits distinct connected good idle resending.ordered
              resending.touched (reached isRetry idle (of_decide_eq_true counts))
        | false => exact retryLoop_timed awaits distinct connected good idle resending
    · exact unchanged

/-- What `MQTTProtocol_startPublish` does before it sends the PUBLISH. -/
def Clients.started (c : Clients) (m : Messages) : Clients :=
  { c with
    outboundMsgs := c.outboundMsgs ++ [m]
    trace := .started m.msgid m.qos :: c.trace }

theorem started_resending {c : Clients} (resending : Resending c) (m : Messages) :
    Resending (c.started m) := by
  have notLeftOver : ¬(c.started m).LeftOver m.msgid := by
    intro leftOver
    have other := leftOver (.started m.msgid m.qos) List.mem_cons_self
    simp [Event.starts] at other
  have leftOver {msgid : Nat} (leftOver : (c.started m).LeftOver msgid) : c.LeftOver msgid :=
    fun event mem => leftOver event (List.mem_cons_of_mem _ mem)
  have unacknowledged {msgid : Nat} (unacknowledged : (c.started m).Unacknowledged msgid) :
      c.Unacknowledged msgid :=
    fun mem => unacknowledged (List.mem_cons_of_mem _ mem)
  have isOld {other : Messages} (mem : other ∈ (c.started m).outboundMsgs)
      (left : (c.started m).LeftOver other.msgid) : other ∈ c.outboundMsgs := by
    rcases List.mem_append.mp mem with old | new
    · exact old
    · rw [List.mem_singleton.mp new] at left
      exact absurd left notLeftOver
  constructor
  · intro same other mem left
    exact resending.complete same other (isOld mem left) (leftOver left)
  · intro first second before left left' unacked
    have appended : ids (c.started m).outboundMsgs = ids c.outboundMsgs ++ [m.msgid] :=
      ids_append _ _
    rw [appended] at before
    have old : [first, second].Sublist (ids c.outboundMsgs) := by
      rcases List.sublist_append_iff.mp before with ⟨left, right, split, old, new⟩
      rcases List.sublist_singleton.mp new with rfl | rfl
      · rwa [split, List.append_nil]
      · have isNew : second = m.msgid := by
          have last := congrArg List.getLast? split
          simpa using last
        exact absurd (isNew ▸ left') notLeftOver
    exact resending.ordered first second old (leftOver left) (leftOver left')
      (unacknowledged unacked)
  · intro other mem left unacked lastTouch
    exact resending.touched other (isOld mem left) (leftOver left)
      (unacknowledged unacked) lastTouch

theorem startPublish_resending {c : Clients} (resending : Resending c) (publish : Publish)
    (qos : Nat) (retained : Bool) :
    Resending (MQTTProtocol.startPublish c publish qos retained).2 ∧
      (MQTTProtocol.startPublish c publish qos retained).2.connected = c.connected ∧
        (MQTTProtocol.startPublish c publish qos retained).2.good = c.good := by
  unfold MQTTProtocol.startPublish
  split
  · have quiet := quiet_send_publish
      (c.started (MQTTProtocol.createMessage publish qos retained c.clock))
      { publish with
        properties := (MQTTProtocol.createMessage publish qos retained c.clock).properties }
      false qos retained
    exact ⟨quiet.resending (started_resending resending _), quiet.connected, quiet.good⟩
  · have quiet := quiet_send_publish c publish false qos retained
    exact ⟨quiet.resending resending, quiet.connected, quiet.good⟩

theorem publish_settled {c : Clients} (connected : c.connected = true) (good : c.good = true)
    (resending : Resending c) (message : Session.Message) :
    Settled (Session.publish c message) := by
  have unchanged : Settled c := .inr ⟨connected, good, resending⟩
  unfold Session.publish
  split
  · exact unchanged
  · split
    · rcases startPublish_resending resending
        (Session.publishPacket c.mqttVersion message false 0) 0 message.retained with
        ⟨resent, sameConnected, sameGood⟩
      exact .inr ⟨sameConnected.trans connected, sameGood.trans good, resent⟩
    · cases assigned : MQTTProtocol.assignMsgId c with
      | none => exact unchanged
      | some result =>
          rcases result with ⟨msgId, after⟩
          have quiet : Quiet c after := by
            unfold MQTTProtocol.assignMsgId at assigned
            split at assigned
            · cases assigned
            · rcases Prod.mk.inj (Option.some.inj assigned) with ⟨_, rfl⟩
              split
              · exact .of_events rfl rfl rfl rfl rfl [] rfl (by simp)
              · exact .refl c
          dsimp only
          split
          · exact .inr ⟨quiet.connected.trans connected, quiet.good.trans good,
              quiet.resending resending⟩
          · rcases startPublish_resending (quiet.resending resending)
              (Session.publishPacket after.mqttVersion message false msgId) message.qos
              message.retained with ⟨resent, sameConnected, sameGood⟩
            exact .inr ⟨(sameConnected.trans quiet.connected).trans connected,
              (sameGood.trans quiet.good).trans good, resent⟩

/-- The messages in flight as a new connection finds them. -/
def untouchedMessages (messages : List Messages) : List Messages :=
  messages.map fun m => { m with lastTouch := 0 }

theorem ids_untouchedMessages (messages : List Messages) :
    ids (untouchedMessages messages) = ids messages := by
  simp [untouchedMessages, ids]

theorem interruptedAt_untouchedMessages (writes : List CompletionCode)
    (messages : List Messages) :
    interruptedAt writes (untouchedMessages messages) = interruptedAt writes messages := by
  induction writes generalizing messages with
  | nil => rfl
  | cons rc writes ih =>
      cases messages with
      | nil => rw [interruptedAt_nil]; rw [untouchedMessages, List.map_nil, interruptedAt_nil]
      | cons m rest =>
          cases rc with
          | complete => exact congrArg (Option.map (· + 1)) (ih rest)
          | interrupted => rfl
          | socketError => rfl

/-- Nothing is in flight. -/
theorem resending_of_empty {c : Clients} (empty : c.outboundMsgs = []) : Resending c where
  complete := by
    intro _ m mem
    rw [empty] at mem
    cases mem
  ordered := by
    intro first second before
    rw [empty] at before
    cases before
  touched := by
    intro m mem
    rw [empty] at mem
    cases mem

namespace Session

open Machine

/-- `MQTTAsync_completeConnection` keeps the session. -/
def KeepsSession (c : Clients) (sessionPresent : Bool) : Prop :=
  c.cleansession = false ∧ c.cleanstart = false ∧
    (mqttVersion311 ≤ c.mqttVersion → sessionPresent = true)

/-- No pass of this step that is cut short by the interruption of a PUBLISH brings the counters
together and leaves a message behind that was not sent again on this connection. -/
def LeavesNoneBehind (c : Clients) (input : Input) : Prop :=
  match input.action with
  | .connect sessionPresent =>
      c.connected = false → KeepsSession c sessionPresent →
        ∀ k ∈ interruptedAt input.writes c.outboundMsgs, k < c.outboundMsgs.length →
          c.connectSent + k ≠ c.outboundMsgs.length
  | .retry true =>
      c.connected = true → c.net.pendingWrites = false → c.connectSent < c.connectCount →
        ∀ k ∈ interruptedAt input.writes c.outboundMsgs,
          (∃ m ∈ c.outboundMsgs.drop k, c.LeftOver m.msgid ∧ m.msgid ∉ c.resends) →
            c.connectSent + k ≠ c.connectCount
  | _ => True

instance decidableKeepsSession (c : Clients) (sessionPresent : Bool) :
    Decidable (KeepsSession c sessionPresent) :=
  inferInstanceAs (Decidable (_ ∧ _))

instance decidableLeavesNoneBehind (c : Clients) (input : Input) :
    Decidable (LeavesNoneBehind c input) := by
  rcases input with ⟨action, now, writes, moreToTry⟩
  cases action with
  | connect sessionPresent =>
      dsimp only [LeavesNoneBehind]
      infer_instance
  | retry doRetry =>
      cases doRetry with
      | false => exact isTrue trivial
      | true =>
          dsimp only [LeavesNoneBehind]
          infer_instance
  | _ => exact isTrue trivial

/-- The pass on a new connection. -/
theorem retry_connected {c : Clients} (awaits : ∀ m ∈ c.outboundMsgs, m.Due)
    (distinct : (ids c.outboundMsgs).Nodup) (connected : c.connected = true)
    (good : c.good = true) (idle : c.net.pendingWrites = false) (fresh : c.resends = [])
    (untouched : ∀ m ∈ c.outboundMsgs, m.lastTouch = 0)
    (reached : ∀ k ∈ interruptedAt c.net.writes c.outboundMsgs, k < c.outboundMsgs.length →
      c.connectSent + k ≠ c.outboundMsgs.length) :
    Settled (MQTTProtocol.retry 0 true true c) := by
  have retried : MQTTProtocol.retry 0 true true c =
      MQTTProtocol.retryLoop 0 true { c with connectCount := c.outboundMsgs.length }
        c.outboundMsgs := by
    simp [MQTTProtocol.retry, MQTTProtocol.retries, connected, good, idle,
      Socket.noPendingWrites]
  rw [retried]
  apply retryLoop_regardless (c := { c with connectCount := c.outboundMsgs.length }) awaits distinct
    connected good idle
  · intro first second _ _ _ _ newer older resends
    change c.resends = _ at resends
    rw [fresh] at resends
    exact absurd resends (by simp)
  · intro m mem _ _ lastTouch
    exact absurd (untouched m mem) lastTouch
  · rintro k cut ⟨m, mem, _⟩
    apply reached k cut
    have nonempty := List.length_pos_of_mem mem
    rw [List.length_drop] at nonempty
    change 0 < c.outboundMsgs.length - k at nonempty
    omega

/-- A connection is made with whatever is in flight. -/
theorem completeConnection_settled {c : Clients} {sessionPresent : Bool}
    (awaits : ∀ m ∈ c.outboundMsgs, m.Due) (distinct : (ids c.outboundMsgs).Nodup)
    (idle : c.net.pendingWrites = false)
    (reached : KeepsSession c sessionPresent →
      ∀ k ∈ interruptedAt c.net.writes c.outboundMsgs, k < c.outboundMsgs.length →
        c.connectSent + k ≠ c.outboundMsgs.length) :
    Settled (MQTTAsync.completeConnection c sessionPresent) := by
  have cleaned (after : Clients) (connected : after.connected = true) (good : after.good = true)
      (empty : after.outboundMsgs = []) :
      Settled (if 0 < after.outboundMsgs.length then
        MQTTProtocol.retry 0 true true
          { after with outboundMsgs := untouchedMessages after.outboundMsgs }
        else after) := by
    rw [if_neg (by simp [empty])]
    exact .inr ⟨connected, good, resending_of_empty empty⟩
  unfold MQTTAsync.completeConnection
  dsimp only
  split
  · exact cleaned _ rfl rfl rfl
  next cleans =>
    split
    · exact cleaned _ rfl rfl rfl
    next noSession =>
      have keeps : KeepsSession c sessionPresent := by
        refine ⟨?_, ?_, ?_⟩
        · simp_all
        · simp_all
        · intro version
          simpa [version] using noSession
      split
      next present =>
        have sameIds := ids_untouchedMessages c.outboundMsgs
        have sameLength : (untouchedMessages c.outboundMsgs).length = c.outboundMsgs.length :=
          List.length_map _
        apply retry_connected
        · intro m mem
          rcases List.mem_map.mp mem with ⟨old, oldMem, rfl⟩
          exact awaits old oldMem
        · change (ids (untouchedMessages c.outboundMsgs)).Nodup
          rw [sameIds]
          exact distinct
        · rfl
        · rfl
        · exact idle
        · rfl
        · intro m mem
          rcases List.mem_map.mp mem with ⟨old, _, rfl⟩
          rfl
        · intro k cut unvisited
          change k ∈ interruptedAt c.net.writes (untouchedMessages c.outboundMsgs) at cut
          change k < (untouchedMessages c.outboundMsgs).length at unvisited
          change c.connectSent + k ≠ (untouchedMessages c.outboundMsgs).length
          rw [interruptedAt_untouchedMessages] at cut
          rw [sameLength] at unvisited ⊢
          exact reached keeps k cut unvisited
      next absent =>
        refine .inr ⟨rfl, rfl, resending_of_empty ?_⟩
        simpa using absent

/-- The client after a round of restoring, however the round ends. -/
def restoringClients : MQTTPersistence.Restoring → Clients
  | .continues c => c
  | .failed c => c
  | .exits c => c

/-- Restoring a session does not open a connection. -/
theorem restoreKey_closed {c : Clients} (closed : Closed c) (k : PersistenceKey) :
    Closed (restoringClients (MQTTPersistence.restoreKey c k)) := by
  unfold MQTTPersistence.restoreKey
  split
  · exact closed
  · split
    · exact closed
    · split
      · exact closed
      · split
        · exact closed
        · exact closed
        · split <;> exact closed
        · exact closed

/-- What a round keeps, the loop keeps. -/
theorem restoreKeys_keeps {Inv : Clients → Prop}
    (round : ∀ c k, Inv c → Inv (restoringClients (MQTTPersistence.restoreKey c k))) {c : Clients}
    (inv : Inv c) (keys : List PersistenceKey) :
    Inv (restoringClients (MQTTPersistence.restoreKeys c keys)) := by
  induction keys generalizing c with
  | nil => exact inv
  | cons k keys ih =>
      have restored := round c k inv
      unfold MQTTPersistence.restoreKeys
      split
      next after result =>
        rw [result] at restored
        exact ih restored
      next after result =>
        rw [result] at restored
        exact restored
      next after result =>
        rw [result] at restored
        exact restored

/-- What a round and the rotation keep holds of the session that is restored. -/
theorem restart_keeps {Inv : Clients → Prop}
    (round : ∀ c k, Inv c → Inv (restoringClients (MQTTPersistence.restoreKey c k)))
    (wraps : ∀ c : Clients, Inv c →
      Inv { c with outboundMsgs := MQTTPersistence.wrapMsgID c.outboundMsgs })
    {c : Clients} (inv : Inv ((fresh c).log .restarted)) (keys : List PersistenceKey) :
    Inv (restart c keys) := by
  have restored := restoreKeys_keeps round inv keys
  unfold restart MQTTPersistence.restorePackets
  split
  next after result =>
    rw [result] at restored
    exact wraps after restored
  next after result =>
    rw [result] at restored
    exact wraps after restored
  next after result =>
    rw [result] at restored
    exact restored

theorem restart_closed (c : Clients) (keys : List PersistenceKey) : Closed (restart c keys) :=
  @restart_keeps Closed (fun _ k closed => restoreKey_closed closed k) (fun _ closed => closed)
    c ⟨rfl, rfl⟩ keys

theorem due_outboundMsgs {c : Clients} (inFlight : c.exchange.InFlight) :
    ∀ m ∈ c.outboundMsgs, m.Due :=
  fun m mem => inFlight.due m.untouched (List.mem_map_of_mem mem)

theorem distinct_outboundMsgs {c : Clients} (inFlight : c.exchange.InFlight) :
    (ids c.outboundMsgs).Nodup := by
  have distinct := inFlight.distinct
  rwa [Clients.exchange, ids_map_untouched] at distinct

/-- One step keeps the books right. -/
theorem step_settled {c : Clients} {input : Input} (inFlight : c.exchange.InFlight)
    (settled : Settled c) (guard : LeavesNoneBehind c input) : Settled (step c input) := by
  have awaits : ∀ m ∈ (provide c input).outboundMsgs, m.Due := due_outboundMsgs inFlight
  have distinct : (ids (provide c input).outboundMsgs).Nodup := distinct_outboundMsgs inFlight
  have provided : Settled (provide c input) := by
    rcases settled with closed | ⟨connected, good, resending⟩
    · exact .inl closed
    · have quiet : Quiet c (provide c input) := .of_events rfl rfl rfl rfl rfl [] rfl (by simp)
      exact .inr ⟨connected, good, quiet.resending resending⟩
  unfold step
  unfold LeavesNoneBehind at guard
  cases action : input.action with
  | restart keys => exact .inl (restart_closed _ keys)
  | connectionLost =>
      simp only [act]
      split
      · exact .inl (closed_closeSession _)
      · exact provided
  | connect sessionPresent =>
      simp only [act]
      split
      · exact provided
      next notConnected =>
        rcases provided with closed | ⟨connected, _, _⟩
        · rw [action] at guard
          exact completeConnection_settled awaits distinct closed.2 (guard closed.1)
        · exact absurd connected notConnected
  | publish message =>
      simp only [act]
      split
      next connected =>
        rcases provided with closed | ⟨connected, good, resending⟩
        · exact absurd connected (by simp [closed.1])
        · exact publish_settled connected good resending message
      · exact provided
  | receive packet =>
      simp only [act]
      split
      next connected =>
        rcases provided with closed | ⟨connected, good, resending⟩
        · exact absurd connected (by simp [closed.1])
        · have quiet := quiet_receive (provide c input) packet
          exact .inr ⟨quiet.connected.trans connected, quiet.good.trans good,
            quiet.resending resending⟩
      · exact provided
  | retry doRetry =>
      rcases provided with closed | ⟨connected, good, resending⟩
      · left
        simp only [act, MQTTProtocol.retry, closed.1, Bool.not_false, if_true]
        exact closed
      · apply retry_resending awaits distinct connected good resending
        intro isRetry idle counts
        rw [action, isRetry] at guard
        exact guard connected idle counts
  | continueWrite succeeded =>
      simp only [act]
      split
      next pending =>
        rcases provided with closed | ⟨connected, good, resending⟩
        · exact absurd pending (by simp [closed.2])
        · have idle : Quiet (provide c input)
              { provide c input with
                net := { (provide c input).net with pendingWrites := false } } :=
            .of_events rfl rfl rfl rfl rfl [] rfl (by simp)
          have settle {after : Clients} (quiet : Quiet (provide c input) after) : Settled after :=
            .inr ⟨quiet.connected.trans connected, quiet.good.trans good,
              quiet.resending resending⟩
          split
          · exact settle (idle.trans (quiet_writeAvailable _))
          · exact settle idle
      · exact provided

/-- A pass whose writes complete, and that comes later than the retry interval, leaves every
unacknowledged message sent again. -/
theorem retry_reachesAll {c : Clients} {input : Input} (inFlight : c.exchange.InFlight)
    (settled : Settled c) (connected : c.connected = true) (action : input.action = .retry true)
    (idle : c.net.pendingWrites = false) (completes : ∀ rc ∈ input.writes, rc = .complete)
    (late : max c.retryInterval 10 * 1000 < input.now) :
    let c' := step c input
    ∀ m ∈ c'.outboundMsgs, c'.LeftOver m.msgid → c'.Unacknowledged m.msgid →
      m.msgid ∈ c'.resends := by
  intro c' m mem leftOver unacknowledged
  have awaits : ∀ m ∈ (provide c input).outboundMsgs, m.Due := due_outboundMsgs inFlight
  rcases settled with closed | ⟨_, good, resending⟩
  · exact absurd connected (by simp [closed.1])
  have quiet : Quiet c (provide c input) := .of_events rfl rfl rfl rfl rfl [] rfl (by simp)
  have provided := quiet.resending resending
  have connected : (provide c input).connected = true := connected
  have good : (provide c input).good = true := good
  have idle : (provide c input).net.pendingWrites = false := idle
  have completes : ∀ rc ∈ (provide c input).net.writes, rc = .complete := completes
  have reaches (regardless : Bool)
      (passed : c' = MQTTProtocol.retryLoop input.now regardless (provide c input)
        (provide c input).outboundMsgs) : m.msgid ∈ c'.resends := by
    rcases retryLoop_spec input.now regardless awaits connected good idle with
      ⟨_, fails⟩ | ⟨visited, passes, _, reached⟩
    · exact absurd completes fails
    rw [reached.all completes, ← passed] at passes
    rcases mem_ids.mp (passes.order ▸ mem_ids_of_mem mem) with ⟨old, oldMem, id⟩
    rw [passes.resends, List.mem_append, List.mem_reverse]
    rw [← id] at leftOver unacknowledged ⊢
    cases due : isDue input.now regardless (provide c input).retryInterval old with
    | true => exact .inl (mem_ids_of_mem (List.mem_filter.mpr ⟨oldMem, due⟩))
    | false =>
        right
        apply provided.touched old oldMem (passes.leftOver.mp leftOver)
          (passes.unacknowledged unacknowledged)
        intro untouched
        have interval : (provide c input).retryInterval = c.retryInterval := rfl
        simp only [isDue, untouched, interval, Bool.or_eq_false_iff,
          decide_eq_false_iff_not] at due
        omega
  have unfolded : c' = MQTTProtocol.retries input.now (provide c input) false := by
    have clock : (provide c input).clock = input.now := rfl
    simp only [c', step, act, action, MQTTProtocol.retry, connected, good, Socket.noPendingWrites,
      idle, clock, Bool.not_true, Bool.not_false, Bool.false_eq_true, if_false, if_true]
  simp only [MQTTProtocol.retries, Bool.false_eq_true, if_false] at unfolded
  split at unfolded
  next stopped =>
    rw [unfolded] at mem leftOver ⊢
    simp only [Bool.not_false, Bool.true_and, Bool.and_eq_true, decide_eq_true_eq,
      beq_iff_eq] at stopped
    exact provided.complete stopped.2 m mem leftOver
  · exact reaches _ unfolded

end Session

end Paho
