import Paho.Async.SharedCommands

/-!
# Order and number of commands

What one call can do to the list of commands, and what holds of the list after any calls for any
clients: the commands of a client are taken in the order in which they were added, and
`noBufferedMessages` counts its publications. That a client has one CONNECT or internal DISCONNECT
at most is so only while no other client's command is in front of it: the search for a duplicate
goes backwards from the first element.
-/

namespace Paho

namespace SharedCommands

variable {Client Content : Type} [DecidableEq Client]

namespace Commands

variable {s s' : Commands Client Content} {input : Input Client Content} {client : Client}
  {command : QueuedCommand Client Content} {commands rest : List (QueuedCommand Client Content)}
  {status : Client → Status} {ignored_clients : List Client}

section Steps

/-- The command that is found is the first one of its client. -/
theorem detachCommand_spec
    (found : detachCommand status ignored_clients commands = some (command, rest)) :
    command.client ∉ ignored_clients ∧
      ∃ front back, commands = front ++ command :: back ∧ rest = front ++ back ∧
        ∀ other ∈ front, other.client ≠ command.client := by
  induction commands generalizing ignored_clients rest with
  | nil => cases found
  | cons cmd commands ih =>
      rw [detachCommand] at found
      split at found
      next ignored =>
        rcases Option.map_eq_some_iff.mp found with ⟨⟨command', rest'⟩, foundRest, same⟩
        cases same
        rcases ih foundRest with ⟨notIgnored, front, back, rfl, rfl, others⟩
        refine ⟨notIgnored, cmd :: front, back, rfl, rfl, ?_⟩
        intro other mem
        rcases List.mem_cons.mp mem with rfl | mem
        · exact fun same => notIgnored (same ▸ ignored)
        · exact others other mem
      next notIgnored =>
        split at found
        · cases found
          exact ⟨notIgnored, [], commands, rfl, rfl, List.forall_mem_nil _⟩
        · rcases Option.map_eq_some_iff.mp found with ⟨⟨command', rest'⟩, foundRest, same⟩
          cases same
          rcases ih foundRest with ⟨notIgnored', front, back, rfl, rfl, others⟩
          rw [List.mem_append, not_or, List.mem_singleton] at notIgnored'
          refine ⟨notIgnored'.1, cmd :: front, back, rfl, rfl, ?_⟩
          intro other mem
          rcases List.mem_cons.mp mem with rfl | mem
          · exact Ne.symm notIgnored'.2
          · exact others other mem

/-- What a call can do. -/
inductive Change (s : Commands Client Content) : Input Client Content → Commands Client Content →
    Prop where
  | unchanged (input : Input Client Content) : Change s input s
  | created (client : Client) (createOptions : Option CreateOptions)
      (stored : List (Operation × Content)) (new : client ∉ s.clients) :
      Change s (.create client createOptions stored) (s.create client createOptions stored)
  | first (command : QueuedCommand Client Content) (head : command.kind.atHead = true)
      (single : findConnection command.client (s.commands.take 1) = none)
      (known : command.client ∈ s.clients) :
      Change s (.add command) { s with commands := command :: s.commands }
  | last (command : QueuedCommand Client Content) (tail : command.kind.atHead = false)
      (other : command.kind.isPublish = false) (known : command.client ∈ s.clients) :
      Change s (.add command)
        { s with commands := s.commands ++ [command], added := s.added ++ [command] }
  | buffered (command : QueuedCommand Client Content) (tail : command.kind.atHead = false)
      (publish : command.kind.isPublish = true) (known : command.client ∈ s.clients)
      (room : ∀ options, s.createOptions command.client = some options →
        s.noBufferedMessages command.client < options.maxBufferedMessages) :
      Change s (.add command)
        { s with
          commands := s.commands ++ [command]
          noBufferedMessages :=
            Function.update s.noBufferedMessages command.client
              (s.noBufferedMessages command.client + 1)
          added := s.added ++ [command] }
  | replaced (command : QueuedCommand Client Content) (tail : command.kind.atHead = false)
      (publish : command.kind.isPublish = true) (known : command.client ∈ s.clients)
      (options : CreateOptions) (isOptions : s.createOptions command.client = some options)
      (full : options.maxBufferedMessages ≤ s.noBufferedMessages command.client) :
      Change s (.add command)
        { s with
          commands := (s.commands ++ [command]).eraseP (publishOf command.client)
          added := s.added ++ [command] }
  | processed (status : Client → Status) (command : QueuedCommand Client Content)
      (front back : List (QueuedCommand Client Content))
      (commands : s.commands = front ++ command :: back)
      (others : ∀ other ∈ front, other.client ≠ command.client) :
      Change s (.process status)
        { s with
          commands := front ++ back
          noBufferedMessages :=
            if command.kind.isPublish then
              Function.update s.noBufferedMessages command.client
                (s.noBufferedMessages command.client - 1)
            else s.noBufferedMessages
          taken := s.taken ++ [command] }

theorem change_addCommand (known : command.client ∈ s.clients) :
    Change s (.add command) (s.addCommand command).1 := by
  unfold addCommand
  split
  next head =>
    split
    · exact Change.unchanged _
    next single => exact Change.first command head single known
  next tail =>
    have tail' := eq_false_of_ne_true tail
    dsimp only
    split
    next publish =>
      unfold checkBuffer
      cases isOptions : s.createOptions command.client with
      | none =>
          apply Change.buffered command tail' publish known
          intro options isSome
          rw [isOptions] at isSome
          cases isSome
      | some options =>
          dsimp only
          split
          next full =>
            exact Change.replaced command tail' publish known options isOptions
              (of_decide_eq_true full)
          next notFull =>
            apply Change.buffered command tail' publish known
            intro options' isSome
            rw [isOptions] at isSome
            cases isSome
            exact Int.not_le.mp fun full => notFull (decide_eq_true full)
    next other => exact Change.last command tail' (eq_false_of_ne_true other) known

theorem change_step : Change s input (s.step input) := by
  cases input with
  | create client createOptions stored =>
      simp only [step]
      split
      · exact Change.unchanged _
      next new => exact Change.created client createOptions stored new
  | add command =>
      simp only [step]
      split
      next known => exact change_addCommand known
      · exact Change.unchanged _
  | process status =>
      simp only [step, processCommand]
      split
      · exact Change.unchanged _
      next command rest found =>
        rcases detachCommand_spec found with ⟨_, front, back, commands, rfl, others⟩
        exact Change.processed status command front back commands others

end Steps

section Order

/-- Whether a command is a SUBSCRIBE, UNSUBSCRIBE, PUBLISH or DISCONNECT that a client added. -/
def ordered (client : Client) (command : QueuedCommand Client Content) : Bool :=
  decide (command.client = client) && !command.kind.atHead

/-- What was taken and what waits are, for each client, in the order in which they were added. -/
def InOrder (s : Commands Client Content) : Prop :=
  ∀ client, (s.taken.filter (ordered client) ++ s.commands.filter (ordered client)).Sublist
    (s.added.filter (ordered client))

theorem inOrder_change (inOrder : s.InOrder) (change : Change s input s') : s'.InOrder := by
  intro client
  have before := inOrder client
  cases change with
  | unchanged => exact before
  | created client' createOptions stored new =>
      simp only [create, List.filter_append, ← List.append_assoc]
      exact before.append (List.Sublist.refl _)
  | first command head single known =>
      have skipped : ordered client command = false := by simp [ordered, head]
      simp only [List.filter_cons, skipped, Bool.false_eq_true, if_false]
      exact before
  | last command tail other known =>
      simp only [List.filter_append, ← List.append_assoc]
      exact before.append (List.Sublist.refl _)
  | buffered command tail publish known room =>
      simp only [List.filter_append, ← List.append_assoc]
      exact before.append (List.Sublist.refl _)
  | replaced command tail publish known options isOptions full =>
      simp only [List.filter_append]
      apply List.Sublist.trans _ (before.append (List.Sublist.refl _))
      rw [List.append_assoc, ← @List.filter_append _ _ s.commands [command]]
      exact (List.Sublist.refl _).append (List.eraseP_sublist.filter _)
  | processed status command front back commands others =>
      rw [commands] at before
      simp only [List.filter_append, List.filter_cons] at before ⊢
      by_cases isOrdered : ordered client command = true
      · -- Nothing of this client stands before the command.
        have same : command.client = client := by
          simp only [ordered, Bool.and_eq_true, decide_eq_true_eq] at isOrdered
          exact isOrdered.1
        have none : front.filter (ordered client) = [] := by
          apply List.filter_eq_nil_iff.mpr
          intro other mem isOther
          simp only [ordered, Bool.and_eq_true, decide_eq_true_eq] at isOther
          exact others other mem (isOther.1.trans same.symm)
        simp only [none, isOrdered, if_true, List.nil_append, List.filter_nil,
          List.append_assoc, List.singleton_append] at before ⊢
        exact before
      · simp only [eq_false_of_ne_true isOrdered, Bool.false_eq_true, if_false, List.filter_nil,
          List.append_nil] at before ⊢
        exact before

/-- The commands of each client are taken in the order in which they were added. -/
theorem taken_inOrder (inputs : List (Input Client Content)) (client : Client) :
    ((Machine.run step empty inputs).taken.filter (ordered client)).Sublist
      ((Machine.run step empty inputs).added.filter (ordered client)) := by
  have start : (empty : Commands Client Content).InOrder := fun _ => List.Sublist.refl _
  have inOrder := @Machine.invariant_of_run _ _ step InOrder
    (fun _ _ inOrder => inOrder_change inOrder change_step) _ start inputs
  exact (List.sublist_append_left _ _).trans (inOrder client)

end Order

section Counting

/-- The publications of a client in the list. -/
def buffered (s : Commands Client Content) (client : Client) : Nat :=
  s.commands.countP (publishOf client)

/-- `noBufferedMessages` counts the publications in the list. -/
structure Counted (s : Commands Client Content) : Prop where
  known : ∀ command ∈ s.commands, command.client ∈ s.clients
  count : ∀ client, s.noBufferedMessages client = s.buffered client

theorem publishOf_self (publish : command.kind.isPublish = true) :
    publishOf command.client command = true := by
  simp [publishOf, publish]

theorem publishOf_other (different : command.client ≠ client) :
    publishOf client command = false := by
  simp [publishOf, different]

/-- A publication of a client that is deleted counts for that client only. -/
theorem countP_eraseP {other : Client}
    (mem : ∃ command ∈ commands, publishOf client command = true) :
    (commands.eraseP (publishOf client)).countP (publishOf other) +
        (if other = client then 1 else 0) = commands.countP (publishOf other) := by
  rcases mem with ⟨command, mem, isPublish⟩
  rcases List.exists_of_eraseP mem isPublish with ⟨erased, front, back, _, isErased, split, rest⟩
  rw [rest, split, List.countP_append, List.countP_append, List.countP_cons]
  have isClient : erased.client = client := by
    simp only [publishOf, Bool.and_eq_true, decide_eq_true_eq] at isErased
    exact isErased.1
  by_cases same : other = client
  · subst same
    rw [if_pos rfl, if_pos isErased]
    omega
  · have notOther : publishOf other erased = false :=
      publishOf_other fun same' => same (same'.symm.trans isClient)
    rw [if_neg same, notOther, if_neg Bool.false_ne_true]
    omega

theorem countP_restored {stored : List (Operation × Content)} {other : Client}
    (different : client ≠ other) :
    (stored.map fun record =>
      (⟨client, .operation record.1, record.2⟩ : QueuedCommand Client Content)).countP
        (publishOf other) = 0 := by
  apply List.countP_eq_zero.mpr
  intro command mem
  rcases List.mem_map.mp mem with ⟨record, _, rfl⟩
  rw [publishOf_other different]
  exact Bool.false_ne_true

theorem known_change (known : ∀ command ∈ s.commands, command.client ∈ s.clients)
    (change : Change s input s') : ∀ command ∈ s'.commands, command.client ∈ s'.clients := by
  intro command mem
  cases change with
  | unchanged => exact known command mem
  | created client createOptions stored new =>
      rcases List.mem_append.mp mem with mem | mem
      · exact List.mem_cons_of_mem _ (known command mem)
      · rcases List.mem_map.mp mem with ⟨record, _, rfl⟩
        exact List.mem_cons_self
  | first command' head single known' =>
      rcases List.mem_cons.mp mem with rfl | mem
      · exact known'
      · exact known command mem
  | last command' tail other known' | buffered command' tail publish known' room =>
      rcases List.mem_append.mp mem with mem | mem
      · exact known command mem
      · rw [List.mem_singleton.mp mem]
        exact known'
  | replaced command' tail publish known' options isOptions full =>
      rcases List.mem_append.mp (List.mem_of_mem_eraseP mem) with mem | mem
      · exact known command mem
      · rw [List.mem_singleton.mp mem]
        exact known'
  | processed status command' front back commands others =>
      apply known
      rw [commands]
      rcases List.mem_append.mp mem with mem | mem
      · exact List.mem_append_left _ mem
      · exact List.mem_append_right _ (List.mem_cons_of_mem _ mem)

theorem counted_change (counted : s.Counted) (change : Change s input s') : s'.Counted := by
  refine ⟨known_change counted.known change, ?_⟩
  intro client
  have count := counted.count client
  unfold buffered at count ⊢
  cases change with
  | unchanged => exact count
  | created client' createOptions stored new =>
      simp only [create, List.countP_append]
      by_cases same : client = client'
      · subst same
        have none : s.commands.countP (publishOf client) = 0 := by
          apply List.countP_eq_zero.mpr
          intro command mem isPublish
          simp only [publishOf, Bool.and_eq_true, decide_eq_true_eq] at isPublish
          exact new (isPublish.1 ▸ counted.known command mem)
        rw [Function.update_self, none, Nat.zero_add]
      · rw [Function.update_of_ne same, countP_restored (Ne.symm same), Nat.add_zero]
        exact count
  | first command head single known =>
      have notPublish : publishOf client command = false := by
        cases kind : command.kind with
        | operation operation => simp [kind, Kind.atHead] at head
        | _ => simp [publishOf, kind, Kind.isPublish]
      simp only [List.countP_cons, notPublish, Bool.false_eq_true, if_false, Nat.add_zero]
      exact count
  | last command tail other known =>
      simp only [List.countP_append, List.countP_singleton, publishOf, other, Bool.and_false,
        Bool.false_eq_true, if_false, Nat.add_zero]
      exact count
  | buffered command tail publish known room =>
      simp only [List.countP_append, List.countP_singleton]
      by_cases same : client = command.client
      · subst same
        rw [Function.update_self, publishOf_self publish, if_pos rfl]
        omega
      · rw [Function.update_of_ne same, publishOf_other (Ne.symm same),
          if_neg Bool.false_ne_true]
        exact count
  | replaced command tail publish known options isOptions full =>
      have mem : ∃ other ∈ s.commands ++ [command], publishOf command.client other = true :=
        ⟨command, List.mem_append_right _ List.mem_cons_self, publishOf_self publish⟩
      have erased := @countP_eraseP _ _ _ command.client (s.commands ++ [command]) client mem
      rw [List.countP_append, List.countP_singleton] at erased
      by_cases same : client = command.client
      · subst same
        rw [publishOf_self publish, if_pos rfl, if_pos rfl] at erased
        simp only
        omega
      · rw [publishOf_other (Ne.symm same), if_neg Bool.false_ne_true, if_neg same] at erased
        simp only
        omega
  | processed status command front back commands others =>
      rw [commands, List.countP_append, List.countP_cons] at count
      simp only [List.countP_append]
      by_cases isPublish : command.kind.isPublish = true
      · rw [if_pos isPublish]
        by_cases same : client = command.client
        · subst same
          rw [publishOf_self isPublish, if_pos rfl] at count
          rw [Function.update_self]
          omega
        · rw [publishOf_other (Ne.symm same), if_neg Bool.false_ne_true] at count
          rw [Function.update_of_ne same]
          omega
      · rw [if_neg isPublish]
        have notPublish : publishOf client command = false := by
          simp [publishOf, eq_false_of_ne_true isPublish]
        rw [notPublish, if_neg Bool.false_ne_true] at count
        omega

theorem counted_run (inputs : List (Input Client Content)) :
    (Machine.run step empty inputs).Counted := by
  have start : (empty : Commands Client Content).Counted := ⟨List.forall_mem_nil _, fun _ => rfl⟩
  exact @Machine.invariant_of_run _ _ step Counted
    (fun _ _ counted => counted_change counted change_step) _ start inputs

/-- `noBufferedMessages` of each client is the number of its publications in the list. -/
theorem noBufferedMessages_eq (inputs : List (Input Client Content)) (client : Client) :
    (Machine.run step empty inputs).noBufferedMessages client =
        (Machine.run step empty inputs).commands.countP (publishOf client) ∧
      0 ≤ (Machine.run step empty inputs).noBufferedMessages client := by
  have count := (counted_run inputs).count client
  refine ⟨count, ?_⟩
  rw [count]
  exact Int.natCast_nonneg _

end Counting

section Connections

/-- The run of CONNECT and DISCONNECT commands at the head of the list. -/
def leading (s : Commands Client Content) : List (QueuedCommand Client Content) :=
  s.commands.takeWhile fun command => command.kind.isConnection

/-- Whether a command is a CONNECT or an internal DISCONNECT of a client. -/
def connectionOf (client : Client) (command : QueuedCommand Client Content) : Bool :=
  decide (command.client = client) && command.kind.atHead

/-- Each client has one CONNECT or internal DISCONNECT at most in the leading run. -/
def OneConnection (s : Commands Client Content) : Prop :=
  ∀ client, s.leading.countP (connectionOf client) ≤ 1

/-- A second CONNECT or internal DISCONNECT is answered with `MQTTASYNC_COMMAND_IGNORED`. -/
def IgnoresSecond (s : Commands Client Content) : Input Client Content → Prop
  | .add command =>
      command.client ∈ s.clients → command.kind.atHead = true →
        (∃ other ∈ s.leading, connectionOf command.client other = true) →
          (s.addCommand command).2 = .commandIgnored
  | _ => True

/-- The guard: where the leading run has a CONNECT or internal DISCONNECT of the client, the first
command of the list is a CONNECT or DISCONNECT of that client. -/
def FirstIsOwn (s : Commands Client Content) : Input Client Content → Prop
  | .add command =>
      command.client ∈ s.clients → command.kind.atHead = true →
        (∃ other ∈ s.leading, connectionOf command.client other = true) →
          ∃ first ∈ s.commands.head?, first.kind.isConnection = true ∧
            first.client = command.client
  | _ => True

/-- CONNECT and internal DISCONNECT commands stand in front of all others. -/
def HeadsFirst (s : Commands Client Content) : Prop :=
  s.commands.Pairwise fun a b => b.kind.atHead = true → a.kind.atHead = true

/-- The search visits the first command only. -/
theorem findConnection_first :
    findConnection client (s.commands.take 1) ≠ none ↔
      ∃ first ∈ s.commands.head?, first.kind.isConnection = true ∧ first.client = client := by
  cases s.commands with
  | nil => simp [findConnection]
  | cons first rest =>
      by_cases connection : first.kind.isConnection = true <;>
        by_cases same : first.client = client <;>
          simp [findConnection, connection, same]

/-- A second command is ignored exactly when the guard is met. -/
theorem ignoresSecond_iff : s.IgnoresSecond input ↔ s.FirstIsOwn input := by
  cases input with
  | create client createOptions stored => exact Iff.rfl
  | process status => exact Iff.rfl
  | add command =>
      have ignored (head : command.kind.atHead = true) :
          (s.addCommand command).2 = .commandIgnored ↔
            findConnection command.client (s.commands.take 1) ≠ none := by
        unfold addCommand
        rw [if_pos head]
        cases findConnection command.client (s.commands.take 1) <;> simp
      constructor
      · intro answers known head second
        exact findConnection_first.mp ((ignored head).mp (answers known head second))
      · intro meets known head second
        exact (ignored head).mpr (findConnection_first.mpr (meets known head second))

theorem headsFirst_change (heads : s.HeadsFirst) (change : Change s input s') : s'.HeadsFirst := by
  have appended {added : List (QueuedCommand Client Content)}
      (tail : ∀ command ∈ added, command.kind.atHead = false) :
      (s.commands ++ added).Pairwise fun a b => b.kind.atHead = true → a.kind.atHead = true := by
    apply List.pairwise_append.mpr
    refine ⟨heads, ?_, ?_⟩
    · apply List.pairwise_of_forall_mem_list
      intro a _ b mem head
      rw [tail b mem] at head
      cases head
    · intro a _ b mem head
      rw [tail b mem] at head
      cases head
  have single {command : QueuedCommand Client Content} (tail : command.kind.atHead = false) :
      ∀ other ∈ [command], other.kind.atHead = false := by
    intro other mem
    rw [List.mem_singleton.mp mem]
    exact tail
  cases change with
  | unchanged => exact heads
  | created client createOptions stored new =>
      apply appended
      intro command mem
      rcases List.mem_map.mp mem with ⟨record, _, rfl⟩
      rfl
  | first command head single known =>
      exact List.pairwise_cons.mpr ⟨fun _ _ _ => head, heads⟩
  | last command tail other known => exact appended (single tail)
  | buffered command tail publish known room => exact appended (single tail)
  | replaced command tail publish known options isOptions full =>
      exact (appended (single tail)).sublist List.eraseP_sublist
  | processed status command front back commands others =>
      have split : s.HeadsFirst := heads
      unfold HeadsFirst at split ⊢
      rw [commands] at split
      exact split.sublist (List.Sublist.append_left (List.sublist_cons_self _ _) _)

omit [DecidableEq Client] in
/-- All CONNECT and internal DISCONNECT commands are in the leading run. -/
theorem mem_leading (heads : s.HeadsFirst) (mem : command ∈ s.commands)
    (head : command.kind.atHead = true) : command ∈ s.leading := by
  unfold HeadsFirst at heads
  unfold leading
  generalize s.commands = commands at heads mem ⊢
  induction commands with
  | nil => cases mem
  | cons first rest ih =>
      rcases List.pairwise_cons.mp heads with ⟨before, heads'⟩
      rcases List.mem_cons.mp mem with rfl | mem
      · simp only [List.takeWhile_cons, Kind.isConnection_of_atHead head, if_true]
        exact List.mem_cons_self
      · have connection := Kind.isConnection_of_atHead (before command mem head)
        simp only [List.takeWhile_cons, connection, if_true]
        exact List.mem_cons_of_mem _ (ih heads' mem)

/-- The whole list has one CONNECT or internal DISCONNECT of each client at most. -/
structure Single (s : Commands Client Content) : Prop where
  heads : s.HeadsFirst
  one : ∀ client, s.commands.countP (connectionOf client) ≤ 1

theorem Single.oneConnection (single : s.Single) : s.OneConnection := by
  intro client
  exact Nat.le_trans (List.takeWhile_sublist _).countP_le (single.one client)

theorem countP_connectionOf_of_tail {added : List (QueuedCommand Client Content)}
    (tail : ∀ command ∈ added, command.kind.atHead = false) :
    added.countP (connectionOf client) = 0 := by
  apply List.countP_eq_zero.mpr
  intro command mem
  simp [connectionOf, tail command mem]

theorem single_change (single : s.Single) (meets : s.FirstIsOwn input)
    (change : Change s input s') : s'.Single := by
  refine ⟨headsFirst_change single.heads change, ?_⟩
  intro client
  have one := single.one client
  have appended {added : List (QueuedCommand Client Content)}
      (tail : ∀ command ∈ added, command.kind.atHead = false) :
      (s.commands ++ added).countP (connectionOf client) ≤ 1 := by
    rw [List.countP_append, countP_connectionOf_of_tail tail]
    exact one
  have alone {command : QueuedCommand Client Content} (tail : command.kind.atHead = false) :
      ∀ other ∈ [command], other.kind.atHead = false := by
    intro other mem
    rw [List.mem_singleton.mp mem]
    exact tail
  cases change with
  | unchanged => exact one
  | created client' createOptions stored new =>
      apply appended
      intro command mem
      rcases List.mem_map.mp mem with ⟨record, _, rfl⟩
      rfl
  | first command head notFound known =>
      rw [List.countP_cons]
      by_cases same : command.client = client
      · -- The guard leaves only the case that the client has no such command.
        subst same
        have none : s.commands.countP (connectionOf command.client) = 0 := by
          apply List.countP_eq_zero.mpr
          intro other mem isConnection
          have head' : other.kind.atHead = true := by
            simp only [connectionOf, Bool.and_eq_true] at isConnection
            exact isConnection.2
          have own := meets known head
            ⟨other, mem_leading single.heads mem head', isConnection⟩
          exact absurd notFound (findConnection_first.mpr own)
        rw [none]
        split <;> omega
      · have notOwn : connectionOf client command = false := by simp [connectionOf, same]
        rw [notOwn, if_neg Bool.false_ne_true]
        exact one
  | last command tail other known => exact appended (alone tail)
  | buffered command tail publish known room => exact appended (alone tail)
  | replaced command tail publish known options isOptions full =>
      exact Nat.le_trans List.eraseP_sublist.countP_le (appended (alone tail))
  | processed status command front back commands others =>
      rw [commands] at one
      have rest : (front ++ back).Sublist (front ++ command :: back) :=
        List.Sublist.append_left (List.sublist_cons_self _ _) _
      exact Nat.le_trans rest.countP_le one

/-- In every state of a run each client has one connection command at most, and each second one is
ignored, exactly when every call meets the guard. -/
theorem oneConnection_iff (inputs : List (Input Client Content)) :
    (∀ front back : List (Input Client Content), inputs = front ++ back →
        (Machine.run step empty front).OneConnection ∧
          ∀ input ∈ back.head?, (Machine.run step empty front).IgnoresSecond input) ↔
      Machine.Guarded step FirstIsOwn (empty : Commands Client Content) inputs := by
  have start : (empty : Commands Client Content).Single :=
    ⟨List.Pairwise.nil, fun _ => Nat.zero_le 1⟩
  constructor
  · intro holds
    apply Machine.guarded_iff.mpr
    intro front back split input isNext
    exact ignoresSecond_iff.mp ((holds front back split).2 input isNext)
  · intro guarded front back split
    have single : (Machine.run step (empty : Commands Client Content) front).Single := by
      rw [split, Machine.guarded_append] at guarded
      exact @Machine.invariant_of_guarded _ _ step FirstIsOwn Single
        (fun _ _ single meets => single_change single meets change_step) _ _ start guarded.1
    refine ⟨single.oneConnection, ?_⟩
    intro input isNext
    exact ignoresSecond_iff.mpr (Machine.guarded_iff.mp guarded front back split input isNext)

/-- Two clients connect, and the first one connects again. -/
theorem not_oneConnection :
    ¬∀ inputs : List (Input Nat Unit),
      (Machine.run step empty inputs).OneConnection := by
  intro holds
  have one := holds
    [.create 1 none [], .create 2 none [], .add ⟨1, .connect, ()⟩, .add ⟨2, .connect, ()⟩,
      .add ⟨1, .connect, ()⟩] 1
  exact absurd one (by decide)

end Connections

end Commands

end SharedCommands

end Paho
