import Paho.Transport.ReadySockets

/-!
# Rounds of `Socket_getReadySocket`

After `poll` has answered, the calls of `Socket_getReadySocket` go over the sockets that were
polled, one socket a call, until no other is ready. Meanwhile packets are sent, and sockets are
opened and closed.
-/

namespace Paho

namespace SocketModule

/-- What `isReady` returns for a socket. -/
def ready (s : SocketModule) (socket : SOCKET) : Bool :=
  (s.readEvents socket).pollhup || (s.readEvents socket).pollnval ||
    (decide (socket ∈ s.connect_pending) && (s.writeEvents socket).pollout) ||
    ((s.readEvents socket).pollin && (s.writeEvents socket).pollout &&
      (s.write_pending.find? (·.1 == socket)).isNone)

/-- What other calls leave as it is. -/
structure SameRound (s s' : SocketModule) : Prop where
  saved : s'.saved = s.saved
  cur_fd : s'.cur_fd = s.cur_fd
  readEvents : s'.readEvents = s.readEvents
  writeEvents : s'.writeEvents = s.writeEvents

/-- The calls that are left of a round, with the state before each and the socket that it returns,
up to the state before the first call that polls again or returns no socket. -/
inductive Round : SocketModule → List (SocketModule × SOCKET) → SocketModule → Prop
  | returns {s before after last : SocketModule} {answers : PollAnswers}
  {socket : SOCKET} {rc : Int}
      {calls : List (SocketModule × SOCKET)} (same : SameRound s before)
      (noPoll : before.beforeWrites answers = none)
      (got : before.getReadySocket answers = some (socket, rc, after)) (isSocket : socket ≠ 0)
      (rest : Round after calls last) : Round s ((before, socket) :: calls) last
  | polls {s last polled : SocketModule} {answers : PollAnswers} (same : SameRound s last)
      (poll : last.beforeWrites answers = some polled) : Round s [] last
  | nothing {s last after : SocketModule} {answers : PollAnswers} {rc : Int}
      (same : SameRound s last) (noPoll : last.beforeWrites answers = none)
      (got : last.getReadySocket answers = some (0, rc, after)) : Round s [] last

section Rounds

variable {s s' last : SocketModule} {index : Nat} {answers : PollAnswers}
  {calls : List (SocketModule × SOCKET)} {socket : SOCKET}

/-- What a search for a socket that is ready leaves as it is. -/
structure Searched (s s' : SocketModule) : Prop where
  fds : s'.fds = s.fds
  saved : s'.saved = s.saved
  readEvents : s'.readEvents = s.readEvents
  writeEvents : s'.writeEvents = s.writeEvents

theorem Searched.trans {s'' : SocketModule} (first : Searched s s') (second : Searched s' s'') :
    Searched s s'' :=
  ⟨second.fds.trans first.fds, second.saved.trans first.saved,
    second.readEvents.trans first.readEvents, second.writeEvents.trans first.writeEvents⟩

theorem isReady_spec (s : SocketModule) (index : Nat) :
    ∃ s', s.isReady index = (s.ready (s.saved.getD index 0), s') ∧ Searched s s' ∧
      (s.ready (s.saved.getD index 0) = false → s'.ready = s.ready) := by
  unfold isReady ready
  dsimp only
  generalize s.saved.getD index 0 = socket
  by_cases broken : ((s.readEvents socket).pollhup || (s.readEvents socket).pollnval) = true
  · rw [if_pos broken, broken, Bool.true_or, Bool.true_or]
    exact ⟨s, rfl, ⟨rfl, rfl, rfl, rfl⟩, nofun⟩
  have notBroken := Bool.eq_false_iff.mpr broken
  rw [if_neg broken, notBroken, Bool.false_or]
  by_cases connects : socket ∈ s.connect_pending ∧ (s.writeEvents socket).pollout = true
  · rw [if_pos connects, decide_eq_true connects.1, connects.2, Bool.true_and, Bool.true_or]
    exact ⟨_, rfl, ⟨rfl, rfl, rfl, rfl⟩, nofun⟩
  have noConnect : (decide (socket ∈ s.connect_pending) && (s.writeEvents socket).pollout) =
      false := by
    rw [Bool.and_eq_false_iff, decide_eq_false_iff_not]
    by_cases pending : socket ∈ s.connect_pending
    · exact .inr (Bool.eq_false_iff.mpr fun writable => connects ⟨pending, writable⟩)
    · exact .inl pending
  rw [if_neg connects, noConnect, Bool.false_or]
  cases events : (s.readEvents socket).pollin && (s.writeEvents socket).pollout with
  | false => exact ⟨s, rfl, ⟨rfl, rfl, rfl, rfl⟩, fun _ => rfl⟩
  | true =>
      rw [if_pos rfl, Bool.true_and, noPendingWrites]
      split
      next none => exact ⟨s, by rw [none], ⟨rfl, rfl, rfl, rfl⟩, fun _ => rfl⟩
      next pending =>
        rw [Bool.not_eq_true] at pending
        exact ⟨{ s with pending_current := some socket }, by rw [pending], ⟨rfl, rfl, rfl, rfl⟩,
          fun _ => rfl⟩

/-- The search stops at the first index whose socket is ready. -/
theorem advance_spec (indices : List Nat) (s : SocketModule) :
    Searched s (advance indices s) ∧
      ((∃ front index back, indices = front ++ index :: back ∧
          (∀ k ∈ front, s.ready (s.saved.getD k 0) = false) ∧
          s.ready (s.saved.getD index 0) = true ∧ (advance indices s).cur_fd = some index) ∨
        (∀ k ∈ indices, s.ready (s.saved.getD k 0) = false) ∧
          (advance indices s).cur_fd = none) := by
  induction indices generalizing s with
  | nil => exact ⟨⟨rfl, rfl, rfl, rfl⟩, .inr ⟨nofun, rfl⟩⟩
  | cons index rest ih =>
      rcases isReady_spec s index with ⟨s', result, searched, keeps⟩
      cases isReady : s.ready (s.saved.getD index 0) with
      | true =>
          rw [advance, result, isReady]
          exact ⟨⟨searched.fds, searched.saved, searched.readEvents, searched.writeEvents⟩,
            .inl ⟨[], index, rest, rfl, nofun, isReady, rfl⟩⟩
      | false =>
          rw [advance, result, isReady]
          dsimp only
          rcases ih s' with ⟨searched', found⟩
          refine ⟨searched.trans searched', ?_⟩
          rw [keeps isReady, searched.saved] at found
          rcases found with ⟨front, index', back, split, before, isReady', isIndex⟩
            | ⟨none, noIndex⟩
          · refine .inl ⟨index :: front, index', back, by rw [split]; rfl, ?_, isReady', isIndex⟩
            intro k mem
            rcases List.mem_cons.mp mem with rfl | mem
            · exact isReady
            · exact before k mem
          · refine .inr ⟨?_, noIndex⟩
            intro k mem
            rcases List.mem_cons.mp mem with rfl | mem
            · exact isReady
            · exact none k mem

/-- The sockets that are left of a round. -/
def left (s : SocketModule) : List SOCKET :=
  match s.cur_fd with
  | none => []
  | some index => s.saved.drop index

theorem map_indices (s : SocketModule) (index : Nat) :
    (s.indices index).map (s.saved.getD · 0) = s.saved.drop index := by
  apply List.ext_getElem
  · rw [indices, List.length_map, List.length_range', List.length_drop]
  · intro i inside _
    rw [List.length_map, indices, List.length_range'] at inside
    have bound : index + i < s.saved.length := by omega
    simp [indices, List.getElem?_eq_getElem bound]

/-- What the calls find in a search, and what they leave for the next one. -/
theorem advance_left (s : SocketModule) (index : Nat) :
    Searched s (advance (s.indices index) s) ∧
      ((∃ skipped next, s.saved.drop index =
            skipped ++ s.saved.getD next 0 :: s.saved.drop (next + 1) ∧
          (∀ other ∈ skipped, s.ready other = false) ∧ s.ready (s.saved.getD next 0) = true ∧
          (advance (s.indices index) s).cur_fd = some next) ∨
        (∀ other ∈ s.saved.drop index, s.ready other = false) ∧
          (advance (s.indices index) s).cur_fd = none) := by
  rcases advance_spec (s.indices index) s with ⟨searched, found | ⟨none, noIndex⟩⟩
  · rcases found with ⟨front, next, back, split, before, isReady, isNext⟩
    refine ⟨searched, .inl ⟨front.map (s.saved.getD · 0), next, ?_, ?_, isReady, isNext⟩⟩
    · have behind : back = s.indices (next + 1) := by
        rw [indices, List.range'_eq_append_iff] at split
        rcases split with ⟨k, inside, -, isRest⟩
        rcases List.range'_eq_cons_iff.mp isRest.symm with ⟨rfl, some_left, rfl⟩
        rw [indices]
        congr 1
        omega
      rw [← map_indices, split, List.map_append, List.map_cons, behind, map_indices]
    · intro other mem
      rcases List.mem_map.mp mem with ⟨k, isK, rfl⟩
      exact before k isK
  · refine ⟨searched, .inr ⟨fun other mem => ?_, noIndex⟩⟩
    rw [← map_indices] at mem
    rcases List.mem_map.mp mem with ⟨k, isK, rfl⟩
    exact none k isK

/-- The socket at an index is returned, and the next search begins behind it. -/
theorem takeSocket_left (s : SocketModule) (next : Nat) :
    (s.takeSocket next).2.2.left = s.saved.drop (next + 1) := by
  rw [takeSocket, left]
  by_cases last : next + 1 = s.saved.length
  · rw [if_pos last, last, List.drop_length]
  · rw [if_neg last]

/-- A call that does not poll takes the first socket that is ready, if there is one. -/
theorem withoutPoll_spec (s : SocketModule) :
    (∃ skipped socket after, s.withoutPoll = (socket, 0, after) ∧ Searched s after ∧
      s.left = skipped ++ socket :: after.left ∧ (∀ other ∈ skipped, s.ready other = false) ∧
      s.ready socket = true) ∨
    (∃ after, s.withoutPoll = (0, 0, after)) ∧ ∀ other ∈ s.left, s.ready other = false := by
  unfold withoutPoll
  by_cases empty : s.fds = [] ∧ s.saved = []
  · rw [if_pos empty]
    refine .inr ⟨⟨s, rfl⟩, ?_⟩
    unfold left
    split
    · nofun
    · rw [empty.2, List.drop_nil]
      nofun
  rw [if_neg empty]
  cases isCurrent : s.cur_fd with
  | none =>
      dsimp only
      rw [isCurrent]
      refine .inr ⟨⟨_, rfl⟩, ?_⟩
      rw [left, isCurrent]
      nofun
  | some index =>
      have isLeft : s.left = s.saved.drop index := by rw [left, isCurrent]
      rw [isLeft]
      dsimp only
      rcases advance_left s index with ⟨searched, found | ⟨none, noIndex⟩⟩
      · rcases found with ⟨skipped, next, split, before, isReady, isNext⟩
        rw [isNext]
        refine .inl ⟨skipped, s.saved.getD next 0,
          ((advance (s.indices index) s).takeSocket next).2.2, ?_, ?_, ?_, before, isReady⟩
        · rw [← searched.saved]
          rfl
        · exact ⟨searched.fds, searched.saved, searched.readEvents, searched.writeEvents⟩
        · rw [takeSocket_left, searched.saved, split]
      · rw [noIndex]
        exact .inr ⟨⟨_, rfl⟩, none⟩

/-- A call that polls has found none of the sockets that were left. -/
theorem beforeWrites_left {polled : SocketModule} (polls : s.beforeWrites answers = some polled) :
    ∀ other ∈ s.left, s.ready other = false := by
  unfold beforeWrites at polls
  split at polls
  · cases polls
  cases isCurrent : s.cur_fd with
  | none =>
      rw [left, isCurrent]
      nofun
  | some index =>
      rw [left, isCurrent]
      rw [isCurrent] at polls
      rcases advance_left s index with ⟨-, found | ⟨none, -⟩⟩
      · rcases found with ⟨_, next, _, _, _, isNext⟩
        simp [isNext] at polls
      · exact none

theorem SameRound.left (same : SameRound s s') : s'.left = s.left := by
  unfold SocketModule.left
  rw [same.cur_fd, same.saved]

/-- The calls of a round return the sockets in their order, each while it is ready; and one that is
ready at every call is returned. -/
theorem Round.spec (round : Round s calls last) (zero : 0 ∉ s.saved) :
    (calls.map Prod.snd).Sublist s.left ∧ (∀ call ∈ calls, call.1.ready call.2 = true) ∧
      ∀ other ∈ s.left, (∀ call ∈ calls, call.1.ready other = true) → last.ready other = true →
        other ∈ calls.map Prod.snd := by
  induction round with
  | @returns s before after last answers socket rc calls same noPoll got isSocket rest ih =>
      rw [getReadySocket, noPoll] at got
      dsimp only at got
      rcases withoutPoll_spec before with found | ⟨⟨after', result⟩, -⟩
      · rcases found with ⟨skipped, socket', after', result, searched, split, others, isReady⟩
        rw [result] at got
        cases got
        rw [same.left] at split
        rcases ih (by rwa [searched.saved, same.saved]) with ⟨sublist, ready, complete⟩
        refine ⟨?_, ?_, ?_⟩
        · rw [split, List.map_cons]
          exact (sublist.cons_cons socket).trans (List.sublist_append_right _ _)
        · intro call mem
          rcases List.mem_cons.mp mem with rfl | mem
          · exact isReady
          · exact ready call mem
        · intro other mem steady steady'
          rw [split] at mem
          rcases List.mem_append.mp mem with early | mem
          · have := steady (before, socket) List.mem_cons_self
            rw [others other early] at this
            cases this
          · rcases List.mem_cons.mp mem with rfl | mem
            · exact List.mem_cons_self
            · exact List.mem_cons_of_mem _ (complete other mem
                (fun call isCall => steady call (List.mem_cons_of_mem _ isCall)) steady')
      · rw [result] at got
        cases got
        exact absurd rfl isSocket
  | polls same poll =>
      refine ⟨List.nil_sublist _, nofun, fun other mem _ isReady => ?_⟩
      rw [← same.left] at mem
      rw [beforeWrites_left poll other mem] at isReady
      cases isReady
  | @nothing s last after answers rc same noPoll got =>
      refine ⟨List.nil_sublist _, nofun, fun other mem _ isReady => ?_⟩
      rw [← same.left] at mem
      rw [getReadySocket, noPoll] at got
      dsimp only at got
      rcases withoutPoll_spec last with found | ⟨-, none⟩
      · rcases found with ⟨skipped, socket', after', result, searched, split, -, -⟩
        rw [result] at got
        cases got
        have inLeft : (0 : SOCKET) ∈ s.left := by
          rw [← same.left, split]
          exact List.mem_append_right _ List.mem_cons_self
        unfold SocketModule.left at inLeft
        split at inLeft
        · cases inLeft
        · exact absurd (List.mem_of_mem_drop inLeft) zero
      · rw [none other mem] at isReady
        cases isReady

theorem noPendingWrites_searched (s : SocketModule) (socket : SOCKET) :
    Searched s (s.noPendingWrites socket).2 := by
  unfold noPendingWrites
  split
  · exact ⟨rfl, rfl, rfl, rfl⟩
  · exact ⟨rfl, rfl, rfl, rfl⟩

theorem callBack_searched (s : SocketModule) (visit : Visit) (socket : SOCKET) (rc : Int) :
    Searched s (s.callBack visit socket rc) := by
  have all : ∀ (checked : List SOCKET) (s : SocketModule),
      Searched s (checked.foldl (fun s socket => (s.noPendingWrites socket).2) s) := by
    intro checked
    induction checked with
    | nil => exact fun s => ⟨rfl, rfl, rfl, rfl⟩
    | cons socket checked ih =>
        exact fun s => (noPendingWrites_searched s socket).trans (ih _)
  unfold callBack
  split
  · exact all visit.checked s
  · rcases all visit.checked
      { s.write socket visit.available with
        write_pending := s.write_pending ++ (visit.interrupted.map fun pw => (socket, pw)).toList }
      with ⟨fds, saved, readEvents, writeEvents⟩
    exact ⟨fds, saved, readEvents, writeEvents⟩

/-- `Socket_continueWrites` does not change what was polled. -/
theorem continueWrites_searched {visits : List Visit} {current : Option SOCKET}
    {result result' : Int × SOCKET} (returns : continueWrites visits current s result =
      some (result', s')) : Searched s s' := by
  induction visits generalizing current s result with
  | nil =>
      cases current with
      | none => cases returns; exact ⟨rfl, rfl, rfl, rfl⟩
      | some socket => cases returns
  | cons visit visits ih =>
      cases current with
      | none => cases returns; exact ⟨rfl, rfl, rfl, rfl⟩
      | some socket =>
          rw [continueWrites] at returns
          split at returns
          · cases returns
          split at returns
          · cases returns
          split at returns
          · dsimp only at returns
            split at returns
            · rcases ih returns with ⟨fds, saved, readEvents, writeEvents⟩
              exact ⟨fds, saved, readEvents, writeEvents⟩
            · rcases (callBack_searched _ visit socket _).trans (ih returns) with
                ⟨fds, saved, readEvents, writeEvents⟩
              exact ⟨fds, saved, readEvents, writeEvents⟩
          · exact ih returns

/-- All registered sockets are polled. -/
theorem beforeWrites_saved {polled : SocketModule} (polls : s.beforeWrites answers = some polled) :
    polled.saved = s.fds ∧ polled.writeEvents = answers.writeEvents := by
  unfold beforeWrites at polls
  split at polls
  · cases polls
  cases isCurrent : s.cur_fd with
  | none =>
      rw [isCurrent] at polls
      dsimp only at polls
      split at polls
      · cases polls
      · cases polls
        exact ⟨rfl, rfl⟩
  | some index =>
      rw [isCurrent] at polls
      dsimp only at polls
      split at polls
      · cases polls
      · cases polls
        exact ⟨(advance_left s index).1.fds, rfl⟩

/-- The call that polls begins a round with the first socket that is ready. -/
theorem getReadySocket_polls {polled after : SocketModule} {rc : Int}
    (polls : s.beforeWrites answers = some polled)
    (got : s.getReadySocket answers = some (socket, rc, after)) (good : rc = 0)
    (isSocket : socket ≠ 0) :
    ∃ (answered : SocketModule) (skipped : List SOCKET), answered.readEvents = answers.readEvents ∧
      answered.writeEvents = answers.writeEvents ∧ after.saved = s.fds ∧
      s.fds = skipped ++ socket :: after.left ∧
      (∀ other ∈ skipped, answered.ready other = false) ∧ answered.ready socket = true := by
  have isPolled := beforeWrites_saved polls
  obtain ⟨written, searched, rest⟩ : ∃ written, Searched polled written ∧
      written.afterWrites answers = (socket, rc, after) := by
    rw [getReadySocket, polls] at got
    dsimp only at got
    split at got
    · rw [Option.map_eq_some_iff] at got
      rcases got with ⟨⟨result, written⟩, returns, isResult⟩
      dsimp only at isResult
      split at isResult
      · cases isResult
        cases good
      · exact ⟨written, continueWrites_searched returns, isResult⟩
    · exact ⟨polled, ⟨rfl, rfl, rfl, rfl⟩, Option.some_inj.mp got⟩
  obtain ⟨answered, isAnswered⟩ : ∃ answered : SocketModule,
      answered = { written with readEvents := answers.readEvents } := ⟨_, rfl⟩
  have saved : answered.saved = s.fds := by
    rw [isAnswered]
    exact searched.saved.trans isPolled.1
  unfold afterWrites at rest
  rw [← isAnswered] at rest
  dsimp only at rest
  split at rest
  · cases rest
    cases good
  split at rest
  · cases rest
    exact absurd rfl isSocket
  rcases advance_left answered 0 with ⟨searched', found | ⟨-, noIndex⟩⟩
  · rcases found with ⟨skipped, next, split, before, isReady, isNext⟩
    rw [isNext] at rest
    have isSocket' : answered.saved.getD next 0 = socket := by
      rw [← searched'.saved]
      exact congrArg Prod.fst rest
    have isAfter := congrArg (fun result => result.2.2) rest
    dsimp only at isAfter
    refine ⟨answered, skipped, ?_, ?_, ?_, ?_, before, ?_⟩
    · rw [isAnswered]
    · rw [isAnswered]
      exact searched.writeEvents.trans isPolled.2
    · rw [← isAfter]
      exact searched'.saved.trans saved
    · rw [← isAfter, takeSocket_left, searched'.saved, ← saved, ← isSocket', ← split,
        List.drop_zero]
    · rwa [← isSocket']
  · rw [noIndex] at rest
    cases rest
    exact absurd rfl isSocket

/-- Two sockets that can be read and written. -/
def bothReady : SocketModule :=
  { fds := [3, 5]
    saved := []
    readEvents := fun _ => ⟨false, false, false, false⟩
    writeEvents := fun _ => ⟨false, false, false, false⟩
    cur_fd := none
    connect_pending := []
    write_pending := []
    pending_current := none
    written := fun _ => 0 }

/-- What `poll` answers for them. -/
def readable : PollAnswers :=
  { writeRc := 2
    writeEvents := fun _ => ⟨false, true, false, false⟩
    visits := []
    readRc := 2
    readEvents := fun _ => ⟨true, false, false, false⟩ }

/-- The state in their round. -/
def bothPolled (cur_fd : Option Nat) : SocketModule :=
  { bothReady with
    saved := [3, 5]
    readEvents := readable.readEvents
    writeEvents := readable.writeEvents
    cur_fd := cur_fd }

end Rounds

end SocketModule

end Paho
