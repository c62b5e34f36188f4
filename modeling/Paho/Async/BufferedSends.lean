import Paho.Async.CommandOrder

/-!
# Sending from several threads

`MQTTAsync_send` compares the number of buffered messages with its limit and then calls
`MQTTAsync_addCommand`, which takes the mutex anew and has an own rule for a full buffer. Between
the two, another thread may have filled the buffer.
-/

namespace Paho

namespace SharedCommands

/-- The list of commands and the calls of `MQTTAsync_send` that have passed the check. -/
structure Sends (Thread Client Content : Type) where
  list : Commands Client Content
  sending : Thread → Option (QueuedCommand Client Content)

namespace Commands

variable {Client Content : Type} [DecidableEq Client] {s s' : Commands Client Content}
  {input : Input Client Content} {client : Client} {command : QueuedCommand Client Content}
  {commands : List (QueuedCommand Client Content)}

section Bound

/-- The buffers hold no more than their limits, or what was restored. -/
def WithinLimits (s : Commands Client Content) : Prop :=
  ∀ client options, s.createOptions client = some options →
    s.noBufferedMessages client ≤ max options.maxBufferedMessages (s.restored client)

theorem withinLimits_change (within : s.WithinLimits) (change : Change s input s') :
    s'.WithinLimits := by
  intro client options isOptions
  cases change with
  | unchanged => exact within client options isOptions
  | created client' createOptions stored new =>
      simp only [create] at isOptions ⊢
      by_cases same : client = client'
      · subst same
        rw [Function.update_self, Function.update_self]
        exact Int.le_max_right _ _
      · rw [Function.update_of_ne same] at isOptions
        rw [Function.update_of_ne same, Function.update_of_ne same]
        exact within client options isOptions
  | first command head single known => exact within client options isOptions
  | last command tail other known => exact within client options isOptions
  | buffered command tail publish known room =>
      simp only at isOptions ⊢
      by_cases same : client = command.client
      · subst same
        rw [Function.update_self]
        have small := room options isOptions
        omega
      · rw [Function.update_of_ne same]
        exact within client options isOptions
  | replaced command tail publish known options' isOptions' full =>
      exact within client options isOptions
  | processed status command front back commands others =>
      have before := within client options isOptions
      simp only
      split
      · by_cases same : client = command.client
        · subst same
          rw [Function.update_self]
          omega
        · rw [Function.update_of_ne same]
          exact before
      · exact before

end Bound

section Keeping

/-- The publications that a client has added were taken or wait, in order. -/
def KeepsAdded (client : Client) (s : Commands Client Content) : Prop :=
  s.added.filter (publishOf client) =
    s.taken.filter (publishOf client) ++ s.commands.filter (publishOf client)

/-- When a publication of the client is added, the buffer is not full. -/
def HasRoom (client : Client) (s : Commands Client Content)
    (command : QueuedCommand Client Content) : Prop :=
  command.kind.isPublish = true → command.client = client → command.client ∈ s.clients →
    ∀ options, s.createOptions client = some options →
      s.noBufferedMessages client < options.maxBufferedMessages

/-- Deleting a publication of one client leaves those of the others. -/
theorem filter_eraseP_other {other : Client} (different : other ≠ client) :
    (commands.eraseP (publishOf other)).filter (publishOf client) =
      commands.filter (publishOf client) := by
  induction commands with
  | nil => rfl
  | cons first rest ih =>
      rw [List.eraseP_cons]
      by_cases isOther : publishOf other first = true
      · have notClient : publishOf client first = false := by
          simp only [publishOf, Bool.and_eq_true, decide_eq_true_eq] at isOther
          exact publishOf_other fun same => different (isOther.1.symm.trans same)
        rw [isOther, cond_true, List.filter_cons, notClient, if_neg Bool.false_ne_true]
      · rw [eq_false_of_ne_true isOther, cond_false, List.filter_cons, List.filter_cons, ih]

theorem keepsAdded_change (kept : s.KeepsAdded client)
    (room : ∀ command, input = .add command → s.HasRoom client command)
    (change : Change s input s') : s'.KeepsAdded client := by
  unfold KeepsAdded at kept ⊢
  cases change with
  | unchanged => exact kept
  | created client' createOptions stored new =>
      simp only [create, List.filter_append, kept, List.append_assoc]
  | first command head single known =>
      have notPublish : publishOf client command = false := by
        cases kind : command.kind with
        | operation operation => simp [kind, Kind.atHead] at head
        | _ => simp [publishOf, kind, Kind.isPublish]
      simp only [List.filter_cons, notPublish, Bool.false_eq_true, if_false]
      exact kept
  | last command tail other known =>
      simp only [List.filter_append, kept, List.append_assoc]
  | buffered command tail publish known room' =>
      simp only [List.filter_append, kept, List.append_assoc]
  | replaced command tail publish known options isOptions full =>
      by_cases same : command.client = client
      · subst same
        have small := room command rfl publish rfl known options isOptions
        omega
      · simp only [filter_eraseP_other same, List.filter_append, kept, List.append_assoc]
  | processed status command front back commands others =>
      rw [commands] at kept
      simp only [List.filter_append, List.filter_cons] at kept ⊢
      by_cases isPublish : publishOf client command = true
      · have same : command.client = client := by
          simp only [publishOf, Bool.and_eq_true, decide_eq_true_eq] at isPublish
          exact isPublish.1
        have none : front.filter (publishOf client) = [] := by
          apply List.filter_eq_nil_iff.mpr
          intro other mem isOther
          simp only [publishOf, Bool.and_eq_true, decide_eq_true_eq] at isOther
          exact others other mem (isOther.1.trans same.symm)
        simp only [kept, none, isPublish, if_true, List.nil_append, List.filter_nil,
          List.append_assoc, List.singleton_append]
      · simp only [kept, eq_false_of_ne_true isPublish, Bool.false_eq_true, if_false,
          List.filter_nil, List.append_nil]

/-- When the buffer is full, an accepted publication is lost. -/
theorem hasRoom_of_keepsAdded (kept : s.KeepsAdded client)
    (after : (s.step (.add command)).KeepsAdded client) (tail : command.kind.atHead = false) :
    s.HasRoom client command := by
  intro publish same known options isOptions
  subst same
  by_contra notRoom
  have full : decide (options.maxBufferedMessages ≤ s.noBufferedMessages command.client) = true :=
    decide_eq_true (Int.not_lt.mp notRoom)
  have mem : ∃ other ∈ s.commands ++ [command], publishOf command.client other = true :=
    ⟨command, List.mem_append_right _ List.mem_cons_self, publishOf_self publish⟩
  have erased := @countP_eraseP _ _ _ command.client (s.commands ++ [command]) command.client mem
  simp only [KeepsAdded, step, if_pos known, addCommand, tail, Bool.false_eq_true, if_false,
    publish, if_true, checkBuffer, isOptions, full] at after
  have before := congrArg List.length kept
  have lengths := congrArg List.length after
  simp only [List.length_append, ← List.countP_eq_length_filter, List.countP_append,
    List.countP_singleton, publishOf_self publish, if_true] at before lengths erased
  omega

end Keeping

end Commands

namespace Sends

variable {Thread Client Content : Type} [DecidableEq Client] [DecidableEq Thread]

/-- Whether `MQTTAsync_send` returns `MQTTASYNC_MAX_BUFFERED_MESSAGES`. -/
def refuses (s : Sends Thread Client Content) (client : Client) : Bool :=
  match s.list.createOptions client with
  | none => false
  | some options =>
      (decide (options.struct_version < 2) || !options.deleteOldestMessages) &&
        decide (options.maxBufferedMessages ≤ s.list.noBufferedMessages client)

/-- What the threads do. -/
inductive Input (Thread Client Content : Type) where
  /-- A thread calls `MQTTAsync_send`, which goes on to `MQTTAsync_addCommand` unless the buffer is
  full. -/
  | check (thread : Thread) (client : Client) (qos : Int) (content : Content)
  /-- The call goes on with `MQTTAsync_addCommand` and returns success. -/
  | submit (thread : Thread)
  | create (client : Client) (createOptions : Option CreateOptions)
      (stored : List (Operation × Content))
  /-- Another command is added. -/
  | add (command : QueuedCommand Client Content)
  | process (status : Client → Status)

/-- One step of a thread. Only `MQTTAsync_send` adds publications. -/
def step (s : Sends Thread Client Content) :
    Input Thread Client Content → Sends Thread Client Content
  | .check thread client qos content =>
      match s.sending thread with
      | some _ => s
      | none =>
          if client ∉ s.list.clients ∨ refuses s client = true then s
          else
            let pub := ⟨client, .operation (.publish qos), content⟩
            { s with sending := Function.update s.sending thread (some pub) }
  | .submit thread =>
      match s.sending thread with
      | none => s
      | some pub =>
          { list := s.list.step (.add pub)
            sending := Function.update s.sending thread none }
  | .create client createOptions stored =>
      { s with list := s.list.step (.create client createOptions stored) }
  | .add command =>
      if command.kind.isPublish then s else { s with list := s.list.step (.add command) }
  | .process status => { s with list := s.list.step (.process status) }

/-- No client yet, and no call. -/
def empty : Sends Thread Client Content :=
  { list := .empty, sending := fun _ => none }

variable {s : Sends Thread Client Content} {input : Input Thread Client Content} {client : Client}

/-- The guard: when a call goes on, the buffer of its client is not full. -/
def Room (client : Client) (s : Sends Thread Client Content) :
    Input Thread Client Content → Prop
  | .submit thread => ∀ pub, s.sending thread = some pub → s.list.HasRoom client pub
  | _ => True

/-- The calls under way add publications. -/
def SendsPublications (s : Sends Thread Client Content) : Prop :=
  ∀ thread pub, s.sending thread = some pub → pub.kind.isPublish = true

theorem sendsPublications_step (sends : s.SendsPublications) :
    (s.step input).SendsPublications := by
  intro thread pub isSending
  cases input with
  | check thread' client qos content =>
      simp only [step] at isSending
      cases isBusy : s.sending thread' with
      | some other =>
          rw [isBusy] at isSending
          exact sends thread pub isSending
      | none =>
          rw [isBusy] at isSending
          simp only at isSending
          split at isSending
          · exact sends thread pub isSending
          · by_cases same : thread = thread'
            · subst same
              simp only [Function.update_self, Option.some.injEq] at isSending
              rw [← isSending]
              rfl
            · simp only [Function.update_of_ne same] at isSending
              exact sends thread pub isSending
  | submit thread' =>
      simp only [step] at isSending
      cases isBusy : s.sending thread' with
      | none =>
          rw [isBusy] at isSending
          exact sends thread pub isSending
      | some other =>
          rw [isBusy] at isSending
          simp only at isSending
          by_cases same : thread = thread'
          · subst same
            rw [Function.update_self] at isSending
            cases isSending
          · rw [Function.update_of_ne same] at isSending
            exact sends thread pub isSending
  | create client createOptions stored => exact sends thread pub isSending
  | add command =>
      simp only [step] at isSending
      split at isSending <;> exact sends thread pub isSending
  | process status => exact sends thread pub isSending

/-- A step is a call that changes the list, or leaves it as it is. -/
theorem list_step :
    (s.step input).list = s.list ∨
      ∃ call, (s.step input).list = s.list.step call ∧
        ∀ command, call = .add command → command.kind.isPublish = true →
          ∃ thread, input = .submit thread ∧ s.sending thread = some command := by
  cases input with
  | check thread client qos content =>
      left
      simp only [step]
      split
      · rfl
      · split <;> rfl
  | submit thread =>
      simp only [step]
      cases isBusy : s.sending thread with
      | none => exact .inl rfl
      | some pub =>
          refine .inr ⟨.add pub, rfl, ?_⟩
          intro command same _
          cases same
          exact ⟨thread, rfl, isBusy⟩
  | create client createOptions stored =>
      exact .inr ⟨.create client createOptions stored, rfl, fun _ same => by cases same⟩
  | add command =>
      simp only [step]
      split
      · exact .inl rfl
      next notPublish =>
        refine .inr ⟨.add command, rfl, ?_⟩
        intro command' same publish
        cases same
        exact absurd publish notPublish
  | process status => exact .inr ⟨.process status, rfl, fun _ same => by cases same⟩

theorem withinLimits_step (within : s.list.WithinLimits) : (s.step input).list.WithinLimits := by
  rcases @list_step _ _ _ _ _ s input with same | ⟨call, same, _⟩
  · rw [same]
    exact within
  · rw [same]
    exact Commands.withinLimits_change within Commands.change_step

theorem keepsAdded_step (kept : s.list.KeepsAdded client) (room : s.Room client input) :
    (s.step input).list.KeepsAdded client := by
  rcases @list_step _ _ _ _ _ s input with same | ⟨call, same, submitted⟩
  · rw [same]
    exact kept
  · rw [same]
    refine Commands.keepsAdded_change kept ?_ Commands.change_step
    intro command isAdd publish
    rcases submitted command isAdd publish with ⟨thread, rfl, isBusy⟩
    exact room command isBusy publish

theorem room_of_keepsAdded (sends : s.SendsPublications) (kept : s.list.KeepsAdded client)
    (after : (s.step input).list.KeepsAdded client) : s.Room client input := by
  cases input with
  | submit thread =>
      intro pub isBusy
      have list : (s.step (.submit thread)).list = s.list.step (.add pub) := by
        simp only [step, isBusy]
      rw [list] at after
      have tail : pub.kind.atHead = false := by
        have publish := sends thread pub isBusy
        cases kind : pub.kind with
        | operation operation => rfl
        | _ => simp [kind, Kind.isPublish] at publish
      exact Commands.hasRoom_of_keepsAdded kept after tail
  | _ => trivial

/-- No buffer grows beyond its limit or what was restored. The publications of a client that were
accepted are taken or wait, in every state of a run, exactly when no call goes on while the buffer
is full. -/
theorem accepted_kept_iff (inputs : List (Input Thread Client Content)) (client : Client) :
    (∀ options, (Machine.run step empty inputs).list.createOptions client = some options →
        (Machine.run step empty inputs).list.noBufferedMessages client ≤
          max options.maxBufferedMessages
            ((Machine.run step empty inputs).list.restored client)) ∧
      ((∀ front back : List (Input Thread Client Content), inputs = front ++ back →
          (Machine.run step empty front).list.KeepsAdded client) ↔
        Machine.Guarded step (Room client) (empty : Sends Thread Client Content) inputs) := by
  have startWithin : (empty : Sends Thread Client Content).list.WithinLimits :=
    fun _ _ isOptions => by cases isOptions
  have startSends : (empty : Sends Thread Client Content).SendsPublications :=
    fun _ _ isSending => by cases isSending
  refine ⟨?_, ?_, ?_⟩
  · exact @Machine.invariant_of_run _ _ step (fun s => s.list.WithinLimits)
      (fun _ _ within => withinLimits_step within) _ startWithin inputs client
  · intro holds
    apply Machine.guarded_iff.mpr
    intro front back split input isNext
    have sends := @Machine.invariant_of_run _ _ step SendsPublications
      (fun _ _ sends => sendsPublications_step sends) _ startSends front
    cases back with
    | nil => cases isNext
    | cons following back =>
        cases isNext
        have after := holds (front ++ [input]) back (by rw [split, List.append_assoc]; rfl)
        rw [Machine.run_append] at after
        exact room_of_keepsAdded sends (holds front (input :: back) split) after
  · intro guarded front back split
    rw [split, Machine.guarded_append] at guarded
    exact @Machine.invariant_of_guarded _ _ step (Room client)
      (fun s : Sends Thread Client Content => s.list.KeepsAdded client)
      (fun _ _ kept room => keepsAdded_step kept room) _ _ rfl guarded.1

/-- The options of a client whose buffer holds one message. -/
def oneMessage : CreateOptions :=
  { struct_version := 2, maxBufferedMessages := 1, deleteOldestMessages := false }

/-- Two threads pass the check before either goes on: the first message is deleted. -/
theorem not_accepted_kept :
    ¬∀ (inputs : List (Input Nat Unit Nat)) (client : Unit) (options : CreateOptions),
      (Machine.run step empty inputs).list.createOptions client = some options →
        options.deleteOldestMessages = false →
          (Machine.run step empty inputs).list.KeepsAdded client := by
  intro kept
  have lost := kept
    [.create () (some oneMessage) [], .check 1 () 1 10, .check 2 () 1 20, .submit 1, .submit 2] ()
    oneMessage (by rfl) rfl
  exact absurd lost (by unfold Commands.KeepsAdded; decide)

end Sends

end SharedCommands

end Paho
