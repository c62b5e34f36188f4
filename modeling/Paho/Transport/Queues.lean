import Paho.Transport.Sockets
import Mathlib.Data.List.Nodup

/-!
# The read queue of a socket

The default queue and the list of saved queues, seen as one queue for each socket. While one
socket is read, the default queue is empty or belongs to it; every operation changes the queue of
its own socket only.
-/

namespace Paho

namespace Sockets

open SocketBuffer

/-- The queue of a socket that has none yet. -/
def freshQueue (socket : SOCKET) : SocketQueue :=
  { SocketQueue.empty with socket := socket }

/-- The queue of a socket: a saved one, the default queue if it is in use for the socket, or a
new one. -/
def queue (s : Sockets) (socket : SOCKET) : SocketQueue :=
  match find s socket with
  | some queue => queue
  | none => if s.def_queue.socket = socket then s.def_queue else freshQueue socket

/-- The default queue is not in use, or in use for the socket that is read. -/
structure Serves (s : Sockets) (socket : SOCKET) : Prop where
  distinct : (s.queues.map SocketQueue.socket).Nodup
  default : s.def_queue = .empty ∨
    (s.def_queue.socket = socket ∧ find s socket = none ∧
      s.def_queue.index = s.def_queue.fixed_header.length ∧ s.def_queue.buf = [])

/-- The default queue is not in use. -/
structure Idle (s : Sockets) : Prop where
  distinct : (s.queues.map SocketQueue.socket).Nodup
  default : s.def_queue = .empty

/-- An operation on one socket leaves the queues and the kernel of the others as they are. -/
def OnlyFor (socket : SOCKET) (s s' : Sockets) : Prop :=
  ∀ other, 0 < other → other ≠ socket →
    s'.queue other = s.queue other ∧ s'.kernel other = s.kernel other

variable {s s' s'' : Sockets} {socket : SOCKET}

theorem OnlyFor.refl (socket : SOCKET) (s : Sockets) : OnlyFor socket s s :=
  fun _ _ _ => ⟨rfl, rfl⟩

theorem OnlyFor.trans (first : OnlyFor socket s s') (second : OnlyFor socket s' s'') :
    OnlyFor socket s s'' := by
  intro other positive different
  have before := first other positive different
  have after := second other positive different
  exact ⟨after.1.trans before.1, after.2.trans before.2⟩

theorem Idle.serves (idle : s.Idle) (socket : SOCKET) : s.Serves socket :=
  ⟨idle.distinct, .inl idle.default⟩

theorem find_socket {queue : SocketQueue} (found : find s socket = some queue) :
    queue.socket = socket := by
  simpa using List.find?_some found

@[simp]
theorem queue_socket (s : Sockets) (socket : SOCKET) : (s.queue socket).socket = socket := by
  unfold queue
  split
  next found => exact find_socket found
  · split
    next same => exact same
    · rfl

theorem queue_of_find {saved : SocketQueue} (found : find s socket = some saved) :
    s.queue socket = saved := by
  unfold queue
  rw [found]

theorem queue_of_empty (absent : find s socket = none) (default : s.def_queue = .empty)
    (positive : 0 < socket) : s.queue socket = freshQueue socket := by
  unfold queue
  rw [absent]
  have different : ¬SocketQueue.empty.socket = socket := Nat.ne_of_lt positive
  simp only [default, if_neg different]

theorem queue_of_default (absent : find s socket = none) (used : s.def_queue.socket = socket) :
    s.queue socket = s.def_queue := by
  unfold queue
  rw [absent]
  exact if_pos used

section Lists

variable {queues : List SocketQueue} {change : SocketQueue → SocketQueue} {other : SOCKET}

theorem find_update (keeps : ∀ queue, (change queue).socket = queue.socket) :
    (update socket change queues).find? (·.socket == socket) =
      (queues.find? (·.socket == socket)).map change := by
  induction queues with
  | nil => rfl
  | cons queue queues ih =>
      by_cases same : queue.socket = socket
      · simp [update, same, keeps]
      · simp [update, same, ih]

theorem find_update_other (keeps : ∀ queue, (change queue).socket = queue.socket)
    (different : other ≠ socket) :
    (update socket change queues).find? (·.socket == other) =
      queues.find? (·.socket == other) := by
  induction queues with
  | nil => rfl
  | cons queue queues ih =>
      by_cases same : queue.socket = socket
      · simp [update, same, keeps, Ne.symm different]
      · by_cases isOther : queue.socket = other
        · simp [update, isOther, different]
        · simp [update, same, isOther, ih]

theorem sockets_update (keeps : ∀ queue, (change queue).socket = queue.socket) :
    (update socket change queues).map SocketQueue.socket = queues.map SocketQueue.socket := by
  induction queues with
  | nil => rfl
  | cons queue queues ih =>
      by_cases same : queue.socket = socket <;> simp [update, same, keeps, ih]

theorem find_eraseP (distinct : (queues.map SocketQueue.socket).Nodup) :
    (queues.eraseP (·.socket == socket)).find? (·.socket == socket) = none := by
  induction queues with
  | nil => rfl
  | cons queue queues ih =>
      rw [List.map_cons, List.nodup_cons] at distinct
      by_cases same : queue.socket = socket
      · have absent : ∀ other ∈ queues, ¬other.socket = socket := by
          intro other mem isSocket
          apply distinct.1
          rw [same, ← isSocket]
          exact List.mem_map_of_mem mem
        simpa [same] using absent
      · simp [same, ih distinct.2]

theorem find_eraseP_other (different : other ≠ socket) :
    (queues.eraseP (·.socket == socket)).find? (·.socket == other) =
      queues.find? (·.socket == other) := by
  induction queues with
  | nil => rfl
  | cons queue queues ih =>
      by_cases same : queue.socket = socket
      · simp [same, Ne.symm different]
      · by_cases isOther : queue.socket = other
        · simp [isOther, different]
        · simp [same, isOther, ih]

theorem sockets_eraseP (distinct : (queues.map SocketQueue.socket).Nodup) :
    ((queues.eraseP (·.socket == socket)).map SocketQueue.socket).Nodup :=
  distinct.sublist (List.eraseP_sublist.map SocketQueue.socket)

end Lists

/-- The queue of another socket than the one that is served does not depend on the default
queue. -/
theorem queue_other {other : SOCKET} (serves : s.Serves socket) (positive : 0 < other)
    (different : other ≠ socket) :
    s.queue other = (find s other).getD (freshQueue other) := by
  unfold queue
  cases found : find s other with
  | some queue => rfl
  | none =>
      have notDefault : ¬s.def_queue.socket = other := by
        rcases serves.default with empty | ⟨used, _⟩
        · rw [empty]
          exact Nat.ne_of_lt positive
        · exact fun isOther => different (isOther.symm.trans used)
      simp [notDefault]

/-- Two states whose saved queues agree for the other sockets. -/
theorem onlyFor_of_find (serves : s.Serves socket) (serves' : s'.Serves socket)
    (kernel : ∀ other, other ≠ socket → s'.kernel other = s.kernel other)
    (saved : ∀ other, other ≠ socket → find s' other = find s other) : OnlyFor socket s s' := by
  intro other positive different
  refine ⟨?_, kernel other different⟩
  rw [queue_other serves positive different, queue_other serves' positive different,
    saved other different]

section Operations

variable (serves : s.Serves socket)

include serves

/-- A byte of the saved header is read again. -/
theorem getQueuedChar_of_saved {c : UInt8}
    (next : (s.queue socket).fixed_header[(s.queue socket).index]? = some c) :
    ∃ s', getQueuedChar s socket = (.complete, some c, s') ∧ s'.Serves socket ∧
      s'.queue socket = { s.queue socket with index := (s.queue socket).index + 1 } ∧
      s'.kernel = s.kernel ∧ OnlyFor socket s s' := by
  cases found : find s socket with
  | none =>
      exfalso
      unfold queue at next
      rw [found] at next
      dsimp only at next
      split at next
      · rcases serves.default with empty | ⟨_, _, atEnd, _⟩
        · rw [empty] at next
          cases next
        · rw [atEnd, List.getElem?_eq_none (Nat.le_refl _)] at next
          cases next
      · cases next
  | some saved =>
      have isSaved := queue_of_find found
      rw [isSaved] at next ⊢
      let change : SocketQueue → SocketQueue := fun queue => { queue with index := queue.index + 1 }
      let after : Sockets := { s with queues := update socket change s.queues }
      have found' : find after socket = some (change saved) := by
        have updated := @find_update socket s.queues change fun _ => rfl
        rw [show s.queues.find? (·.socket == socket) = some saved from found] at updated
        exact updated
      have serves' : after.Serves socket := by
        refine ⟨?_, ?_⟩
        · exact (@sockets_update socket s.queues change fun _ => rfl).symm ▸ serves.distinct
        · rcases serves.default with empty | ⟨_, absent, _⟩
          · exact .inl empty
          · rw [absent] at found
            cases found
      refine ⟨after, ?_, serves', queue_of_find found', rfl, ?_⟩
      · unfold getQueuedChar
        rw [found]
        dsimp only
        rw [next]
      · apply onlyFor_of_find serves serves' fun _ _ => rfl
        exact fun other different => find_update_other (fun _ => rfl) different

omit serves in
/-- The saved header is used up. -/
theorem getQueuedChar_of_end
    (atEnd : (s.queue socket).fixed_header.length ≤ (s.queue socket).index)
    (room : (s.queue socket).index ≤ 4) :
    getQueuedChar s socket = (.interrupted, none, s) := by
  unfold getQueuedChar
  cases found : find s socket with
  | none => rfl
  | some saved =>
      rw [queue_of_find found] at atEnd room
      dsimp only
      rw [List.getElem?_eq_none atEnd]
      exact if_neg (by omega)

/-- A byte of the header is kept. -/
theorem queueChar_spec (positive : 0 < socket) (c : UInt8)
    (atEnd : (s.queue socket).index = (s.queue socket).fixed_header.length)
    (room : (s.queue socket).index ≤ 4) (noData : (s.queue socket).buf = []) :
    (queueChar s socket c).Serves socket ∧
      (queueChar s socket c).queue socket =
        { s.queue socket with
          fixed_header := (s.queue socket).fixed_header ++ [c]
          index := (s.queue socket).index + 1 } ∧
      (queueChar s socket c).kernel = s.kernel ∧ OnlyFor socket s (queueChar s socket c) := by
  have appended {queue : SocketQueue} (atEnd : queue.index = queue.fixed_header.length)
      (room : queue.index ≤ 4) : appendChar c queue =
        { queue with fixed_header := queue.fixed_header ++ [c], index := queue.index + 1 } := by
    unfold appendChar
    rw [if_neg (by omega), atEnd, List.take_length]
  have keeps : ∀ queue, (appendChar c queue).socket = queue.socket := by
    intro queue
    unfold appendChar
    split <;> rfl
  cases found : find s socket with
  | some saved =>
      have isSaved := queue_of_find found
      have after : queueChar s socket c =
          { s with queues := update socket (appendChar c) s.queues } := by
        unfold queueChar
        rw [found]
      rw [after]
      rw [isSaved] at atEnd room ⊢
      have found' : find { s with queues := update socket (appendChar c) s.queues } socket =
          some (appendChar c saved) := by
        have updated := @find_update socket s.queues (appendChar c) keeps
        rw [show s.queues.find? (·.socket == socket) = some saved from found] at updated
        exact updated
      have serves' : Serves { s with queues := update socket (appendChar c) s.queues } socket := by
        refine ⟨?_, ?_⟩
        · rw [sockets_update keeps]
          exact serves.distinct
        · rcases serves.default with empty | ⟨_, absent, _⟩
          · exact .inl empty
          · rw [absent] at found
            cases found
      refine ⟨serves', ?_, rfl, ?_⟩
      · rw [queue_of_find found', appended atEnd room]
      · apply onlyFor_of_find serves serves' fun _ _ => rfl
        exact fun other different => find_update_other keeps different
  | none =>
      -- the default queue is taken, or is the socket's already
      have after : queueChar s socket c =
          { s with def_queue := appendChar c (s.queue socket) } := by
        unfold queueChar queue
        rw [found]
        rcases serves.default with empty | ⟨used, _⟩
        · have notSocket : ¬(0 : SOCKET) = socket := Nat.ne_of_lt positive
          simp [empty, SocketQueue.empty, freshQueue, notSocket]
        · have nonzero : ¬socket = 0 := Nat.ne_of_gt positive
          simp [used, nonzero]
      have absent : find { s with def_queue := appendChar c (s.queue socket) } socket = none :=
        found
      have isSocket : (appendChar c (s.queue socket)).socket = socket := by
        rw [keeps, queue_socket]
      have serves' : Serves { s with def_queue := appendChar c (s.queue socket) } socket := by
        refine ⟨serves.distinct, .inr ⟨isSocket, absent, ?_, ?_⟩⟩
        · rw [appended atEnd room]
          simp [atEnd]
        · rw [appended atEnd room]
          exact noData
      rw [after]
      refine ⟨serves', ?_, rfl, ?_⟩
      · rw [queue_of_default absent isSocket, appended atEnd room]
      · exact onlyFor_of_find serves serves' (fun _ _ => rfl) fun _ _ => rfl

theorem getQueuedData_eq : getQueuedData s socket = (s.queue socket).buf := by
  unfold getQueuedData
  cases found : find s socket with
  | some saved => rw [queue_of_find found]
  | none =>
      unfold queue
      rw [found]
      rcases serves.default with empty | ⟨used, _, _, noData⟩
      · dsimp only
        split
        · rw [empty]
          rfl
        · rfl
      · simp [used, noData]

/-- What was read is saved, and the default queue is free again. -/
theorem interrupted_spec (positive : 0 < socket) (buf : Bytes) :
    (interrupted s socket buf).Idle ∧
      (interrupted s socket buf).queue socket =
        { s.queue socket with index := 0, buf := buf } ∧
      (interrupted s socket buf).kernel = s.kernel ∧
      OnlyFor socket s (interrupted s socket buf) := by
  cases found : find s socket with
  | some saved =>
      let change : SocketQueue → SocketQueue := fun queue => { queue with index := 0, buf := buf }
      have after : interrupted s socket buf =
          { s with queues := update socket change s.queues } := by
        unfold interrupted
        rw [found]
      have default : s.def_queue = .empty := by
        rcases serves.default with empty | ⟨_, absent, _⟩
        · exact empty
        · rw [absent] at found
          cases found
      have found' : find { s with queues := update socket change s.queues } socket =
          some (change saved) := by
        have updated := @find_update socket s.queues change fun _ => rfl
        rw [show s.queues.find? (·.socket == socket) = some saved from found] at updated
        exact updated
      have idle : Idle { s with queues := update socket change s.queues } := by
        exact ⟨(@sockets_update socket s.queues change fun _ => rfl).symm ▸ serves.distinct,
          default⟩
      rw [after, queue_of_find found]
      refine ⟨idle, queue_of_find found', rfl, ?_⟩
      apply onlyFor_of_find serves (idle.serves socket) fun _ _ => rfl
      exact fun other different => find_update_other (fun _ => rfl) different
  | none =>
      let saved : SocketQueue := { s.def_queue with socket := socket, index := 0, buf := buf }
      have after : interrupted s socket buf =
          { s with queues := s.queues ++ [saved], def_queue := .empty } := by
        unfold interrupted
        rw [found]
      have isSaved : saved = { s.queue socket with index := 0, buf := buf } := by
        unfold queue
        rw [found]
        rcases serves.default with empty | ⟨used, _⟩
        · have notSocket : ¬(0 : SOCKET) = socket := Nat.ne_of_lt positive
          simp [saved, empty, SocketQueue.empty, freshQueue, notSocket]
        · simp [saved, used]
      have absent : ∀ queue ∈ s.queues, ¬queue.socket = socket := by
        simpa [find] using found
      have found' : find { s with queues := s.queues ++ [saved], def_queue := .empty } socket =
          some saved := by
        have none : s.queues.find? (·.socket == socket) = none := found
        simp [find, List.find?_append, none, saved]
      have idle : Idle { s with queues := s.queues ++ [saved], def_queue := .empty } := by
        refine ⟨?_, rfl⟩
        rw [List.map_append]
        refine List.nodup_append.mpr ⟨serves.distinct, List.nodup_singleton _, ?_⟩
        rintro first mem last isLast rfl
        rcases List.mem_map.mp mem with ⟨queue, isQueue, same⟩
        exact absent queue isQueue (same.trans (List.mem_singleton.mp isLast))
      rw [after]
      refine ⟨idle, ?_, rfl, ?_⟩
      · rw [queue_of_find found', isSaved]
      · apply onlyFor_of_find serves (idle.serves socket) fun _ _ => rfl
        intro other different
        simp [find, List.find?_append, saved, Ne.symm different]

/-- What was read of a packet is forgotten. -/
theorem complete_spec (positive : 0 < socket) :
    (complete s socket).Idle ∧ (complete s socket).queue socket = freshQueue socket ∧
      (complete s socket).kernel = s.kernel ∧ OnlyFor socket s (complete s socket) := by
  have idle : (complete s socket).Idle := ⟨sockets_eraseP serves.distinct, rfl⟩
  refine ⟨idle, ?_, rfl, ?_⟩
  · exact queue_of_empty (find_eraseP serves.distinct) rfl positive
  · apply onlyFor_of_find serves (idle.serves socket) fun _ _ => rfl
    exact fun other different => find_eraseP_other different

theorem cleanup_eq (positive : 0 < socket) : cleanup s socket = complete s socket := by
  unfold cleanup complete
  rcases serves.default with empty | ⟨used, _⟩
  · have notSocket : ¬(0 : SOCKET) = socket := Nat.ne_of_lt positive
    simp [empty, SocketQueue.empty, notSocket]
  · simp [used]

end Operations

end Sockets

end Paho
