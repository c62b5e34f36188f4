import Paho.Pointers.ListRuns
import Paho.Transport.PollTable

/-!
# Pending writes

`Socket_continueWrites` of the build with `poll`, over the pointers of `mod_s.write_pending`. While
the callbacks run, the mutex is released, and other threads can start writes. The socket in the
block of a content stands for the block: no socket is pending twice.
-/

namespace Paho

open Arrays Lists Records

namespace ContinueWrites

/-- A result of `Socket_continueWrite`. -/
inductive Outcome where
  | incomplete
  | complete
  | error
  deriving DecidableEq, Repr

def Outcome.rc : Outcome → Int
  | .incomplete => 0
  | .complete => 1
  | .error => -1

/-- `intcompare`. -/
def intcompare (a b : Option Int) : Bool :=
  a = b

/-- `Socket_noPendingWrites`. -/
def noPendingWrites (socket : Int) : ListProgram Int Bool := do
  return (← listFindItem (some socket) (some intcompare)) = none

/-- What the callbacks and other threads do to `mod_s.write_pending`: `Socket_noPendingWrites`, and
`Socket_putdatas` for a packet of which only a part is written. -/
inductive Action where
  | noPendingWrites (socket : Int)
  | putdatas (malloc : Malloc Nat (ListElement Int)) (socket : Int)

def Action.perform : Action → ListProgram Int Unit
  | .noPendingWrites socket => do
      let _ ← ContinueWrites.noPendingWrites socket
  | .putdatas malloc socket => do
      if ← ContinueWrites.noPendingWrites socket then
        let _ ← listAppend malloc (some socket) 4

def performAll : List Action → ListProgram Int Unit
  | [] => return ()
  | action :: actions => do
      action.perform
      performAll actions

/-- The search in `saved.fds_write`. For NULL there is nothing to read `revents` from. -/
def findWrite (saved : PollTable) (socket : Int) : Option Pollfd := do
  let found ← bsearch (PollTable.cmpsockfds socket) (saved.fds_write.getD []) saved.nfds.toNat
  let fd ← found
  (saved.fds_write.getD [])[fd]?

/-- `rc1` and `*sock`, the sockets of the calls of `Socket_continueWrite`, and how often the
callbacks were called. -/
structure Progress where
  rc1 : Int
  sock : Int
  attempts : List Int
  called : Nat
  deriving DecidableEq, Repr

/-- `Socket_continueWrite` is called for a socket. -/
def Progress.attempt (socket : Int) (progress : Progress) : Progress :=
  { progress with attempts := progress.attempts ++ [socket] }

/-- The callbacks are called. -/
def Progress.call (progress : Progress) : Progress :=
  { progress with called := progress.called + 1 }

/-- The end of an iteration. -/
def Progress.report (socket rc : Int) (progress : Progress) : Progress :=
  if rc = -1 then { progress with rc1 := -1, sock := socket } else progress

/-- An iteration of the loop of `Socket_continueWrites`: the next element, or `none` where the loop
ends. -/
def iterate (saved : PollTable) (outcome : Int → Nat → Outcome) (actions : Nat → List Action)
    (curpending : Option Nat) (progress : Progress) :
    ListProgram Int (Option (Option Nat × Progress)) := do
  if curpending = none then return none
  else
    let element ← load curpending
    match element.content with
    | none => return none
    | some socket =>
        let fd ← (findWrite saved socket : Option Pollfd)
        if fd.revents &&& PollTable.POLLOUT = 0 then
          let curpending ← listNextElement curpending
          return some (curpending, progress)
        else
          let rc := (outcome socket (progress.attempts.count socket)).rc
          let progress := progress.attempt socket
          if rc = 0 then
            let curpending ← listNextElement curpending
            return some (curpending, progress)
          else
            let (removed, _) ← listRemove (some socket)
            (if removed then pure ()
            else do
              let _ ← listNextElement curpending
              pure ())
            let curpending := (← look).current
            performAll (actions progress.called)
            return some (curpending, progress.call.report socket rc)

/-- The loop of `Socket_continueWrites`. -/
def continueFrom (saved : PollTable) (outcome : Int → Nat → Outcome) (actions : Nat → List Action)
    (curpending : Option Nat) (progress : Progress)
    (memory : Memory Nat (ListElement Int) ListVars) :
    Option (Progress × Memory Nat (ListElement Int) ListVars) :=
  StateT.run (do
    match ← iterate saved outcome actions curpending progress with
    | none => return progress
    | some (curpending, progress) =>
        -- `apply` leaves no mark of its place around the call
        by
          apply continueFrom
          exact saved
          exact outcome
          exact actions
          exact curpending
          exact progress) memory
partial_fixpoint

/-- `Socket_continueWrites`, with what `*sock` has been. -/
def continueWrites (saved : PollTable) (outcome : Int → Nat → Outcome)
    (actions : Nat → List Action) (sock : Int) :
    ListProgram Int Progress := do
  let curpending := (← look).first
  continueFrom saved outcome actions curpending ⟨0, sock, [], 0⟩

/-- Elements with their addresses and sockets. -/
abbrev Pending :=
  List (Nat × Int)

def elementsOf (pending : Pending) : Elements Int :=
  pending.map fun element => (element.1, some element.2)

/-- A list in memory. -/
def IsList (memory : Memory Nat (ListElement Int) ListVars) (pending : Pending) : Prop :=
  ∃ contents rest, Holds memory.records contents ∧
    Represents (elementsOf pending) rest contents memory.vars

/-- What `Socket_continueWrites` is called with: `mod_s.write_pending`, and the copy of `fds_write`
after `poll`, which has reported these sockets. -/
structure Snapshot where
  memory : Memory Nat (ListElement Int) ListVars
  pending : Pending
  isList : IsList memory pending
  nodup : (pending.map Prod.snd).Nodup
  saved : PollTable
  sorted : ((saved.fds_write.getD []).map Pollfd.fd).Pairwise (· ≤ ·)
  length : (saved.fds_write.getD []).length = saved.nfds.toNat
  writable : Int → Bool
  reported : ∀ fd ∈ saved.fds_write.getD [], fd.revents &&& PollTable.POLLOUT ≠ 0 ↔
    writable fd.fd = true
  found : ∀ element ∈ pending, element.2 ∈ (saved.fds_write.getD []).map Pollfd.fd

namespace Snapshot

variable (snapshot : Snapshot) (outcome : Int → Nat → Outcome) (actions : Nat → List Action)

/-- The first attempt completes the write, or fails. -/
def finishes (socket : Int) : Bool :=
  snapshot.writable socket && outcome socket 0 ≠ .incomplete

/-- Each writable pending socket is attempted once and no other one, and exactly those that
completed or failed are gone. Behind the others is what was started in the meantime. -/
def Serves : Prop :=
  ∀ sock, ∃ progress memory added,
    continueWrites snapshot.saved outcome actions sock snapshot.memory = some (progress, memory) ∧
      (∀ element ∈ snapshot.pending,
        progress.attempts.count element.2 = if snapshot.writable element.2 then 1 else 0) ∧
      IsList memory ((snapshot.pending.filter fun element =>
        !snapshot.finishes outcome element.2) ++ added)

/-- `current` is NULL and behind the first socket that is removed no socket is writable, or
`current` is there and it is the last one. -/
def Removable : Prop :=
  match snapshot.pending.dropWhile fun element => !snapshot.finishes outcome element.2 with
  | [] => True
  | element :: behind =>
      snapshot.memory.vars.current = none ∧ (∀ other ∈ behind, snapshot.writable other.2 = false) ∨
        snapshot.memory.vars.current = some element.1 ∧ behind = []

end Snapshot

section Elements

variable {pending : Pending} {rest contents : Multiset (Nat × ListElement Int)} {vars : ListVars}

theorem elementsOf_append (xs ys : Pending) : elementsOf (xs ++ ys) =
    elementsOf xs ++ elementsOf ys :=
  List.map_append

theorem elementsOf_cons (addr : Nat) (socket : Int) (pending : Pending) :
    elementsOf ((addr, socket) :: pending) = (addr, some socket) :: elementsOf pending :=
  rfl

theorem map_fst_elementsOf (pending : Pending) : (elementsOf pending).map Prod.fst =
    pending.map Prod.fst := by
  rw [elementsOf, List.map_map]
  rfl

theorem mem_elementsOf {addr : Nat} {content : Option Int} :
    (addr, content) ∈ elementsOf pending ↔ ∃ socket, content = some socket ∧
    (addr, socket) ∈ pending := by
  constructor
  · intro mem
    rcases List.mem_map.mp mem with ⟨⟨addr, socket⟩, isThere, same⟩
    cases same
    exact ⟨socket, rfl, isThere⟩
  · rintro ⟨socket, rfl, isThere⟩
    exact List.mem_map.mpr ⟨(addr, socket), isThere, rfl⟩

/-- An element in the middle. -/
theorem elementsOf_eq_append {xs ys : Elements Int} {addr : Nat} {content : Option Int}
    (split : elementsOf pending = xs ++ (addr, content) :: ys) :
    ∃ front socket behind, pending = front ++ (addr, socket) :: behind ∧ xs = elementsOf front ∧
      content = some socket ∧ ys = elementsOf behind := by
  rcases List.map_eq_append_iff.mp split with ⟨front, back, rfl, rfl, isBack⟩
  rcases List.map_eq_cons_iff.mp isBack with ⟨⟨addr, socket⟩, behind, rfl, same, rfl⟩
  cases same
  exact ⟨front, socket, behind, rfl, rfl, rfl, rfl⟩

/-- A socket that is there once is there at one place. -/
theorem split_unique {front behind front' behind' : Pending} {addr addr' : Nat} {socket : Int}
    (nodup : ((front ++ (addr, socket) :: behind).map Prod.snd).Nodup)
    (same : front ++ (addr, socket) :: behind = front' ++ (addr', socket) :: behind') :
    front' = front ∧ addr' = addr ∧ behind' = behind := by
  induction front generalizing front' with
  | nil =>
      rcases front' with _ | ⟨element, front'⟩
      · cases same
        exact ⟨rfl, rfl, rfl⟩
      · injection same with isElement isBehind
        have twice : socket ∈ behind.map Prod.snd := by simp [isBehind]
        exact absurd twice (List.nodup_cons.mp nodup).1
  | cons element front ih =>
      have apart := List.nodup_cons.mp nodup
      rcases front' with _ | ⟨element', front'⟩
      · injection same with isElement isBehind
        have twice : socket ∈ (front ++ (addr, socket) :: behind).map Prod.snd := by simp
        rw [isElement] at apart
        exact absurd twice apart.1
      · injection same with isElement isBehind
        rcases ih apart.2 isBehind with ⟨rfl, rfl, rfl⟩
        exact ⟨by rw [isElement], rfl, rfl⟩

/-- `Socket_noPendingWrites`. -/
theorem noPendingWrites_spec (socket : Int)
    (represents : Represents (elementsOf pending) rest contents vars) :
    Runs (noPendingWrites socket) contents vars fun none contents' vars' =>
      contents' = contents ∧ Represents (elementsOf pending) rest contents vars' ∧
        (none = true ↔ socket ∉ pending.map Prod.snd) ∧ (none = true → vars' = vars) := by
  rw [noPendingWrites]
  refine Runs.bind _ (listFindItem_spec represents) ?_
  rintro _ _ vars' ⟨rfl, ⟨rfl, rfl, noMatch⟩ | ⟨addr, content, rfl, mem, isMatch, rfl⟩⟩
  · refine Runs.pure ⟨rfl, represents, ?_, fun _ => rfl⟩
    refine ⟨fun _ isPending => ?_, fun _ => rfl⟩
    rcases List.mem_map.mp isPending with ⟨⟨addr, socket⟩, isThere, rfl⟩
    have other := noMatch (addr, some socket) (mem_elementsOf.mpr ⟨socket, rfl, isThere⟩)
    simp [matchesContent, intcompare] at other
  · refine Runs.pure ⟨rfl, { represents with current_mem := ?_ }, ?_, ?_⟩
    · rintro _ ⟨⟩
      exact ⟨content, mem⟩
    · rcases mem_elementsOf.mp mem with ⟨found, rfl, isThere⟩
      have same : found = socket := by simpa [matchesContent, intcompare] using isMatch
      subst same
      have isPending : found ∈ pending.map Prod.snd :=
        List.mem_map.mpr ⟨(addr, found), isThere, rfl⟩
      simp [isPending]
    · intro none
      cases none

/-- The actions only append. -/
theorem performAll_spec (actions : List Action)
    (represents : Represents (elementsOf pending) rest contents vars) :
    Runs (performAll actions) contents vars fun _ contents' vars' =>
      ∃ added, Represents (elementsOf (pending ++ added)) rest contents' vars' := by
  induction actions generalizing pending contents vars with
  | nil =>
      refine Runs.pure ⟨[], ?_⟩
      rwa [List.append_nil]
  | cons action actions ih =>
      rw [performAll]
      have first : Runs action.perform contents vars fun _ contents' vars' =>
          ∃ added, Represents (elementsOf (pending ++ added)) rest contents' vars' := by
        cases action with
        | noPendingWrites socket =>
            refine Runs.bind _ (noPendingWrites_spec socket represents) ?_
            rintro _ _ vars' ⟨rfl, represents', -⟩
            refine Runs.pure ⟨[], ?_⟩
            rwa [List.append_nil]
        | putdatas malloc socket =>
            refine Runs.bind _ (noPendingWrites_spec socket represents) ?_
            rintro none _ vars' ⟨rfl, represents', -⟩
            cases none with
            | false =>
                refine Runs.pure ⟨[], ?_⟩
                rwa [List.append_nil]
            | true =>
                refine Runs.bind _ (listAppend_spec represents') ?_
                rintro _ contents' vars'' (⟨rfl, rfl, rfl, -⟩ | ⟨addr, rfl, -, after, -⟩)
                · refine Runs.pure ⟨[], ?_⟩
                  rwa [List.append_nil]
                · refine Runs.pure ⟨[(addr, socket)], ?_⟩
                  rw [elementsOf_append]
                  exact after
      refine Runs.bind _ first ?_
      rintro _ contents' vars' ⟨added, represents'⟩
      refine (ih represents').imp ?_
      rintro _ contents'' vars'' ⟨more, represents''⟩
      refine ⟨added ++ more, ?_⟩
      rwa [← List.append_assoc]

end Elements

section Search

variable {saved : PollTable} {socket : Int}
  (sorted : ((saved.fds_write.getD []).map Pollfd.fd).Pairwise (· ≤ ·))
  (length : (saved.fds_write.getD []).length = saved.nfds.toNat)

include sorted length

/-- A socket of the array is found. -/
theorem findWrite_mem (mem : socket ∈ (saved.fds_write.getD []).map Pollfd.fd) :
    ∃ fd ∈ saved.fds_write.getD [], findWrite saved socket = some fd ∧ fd.fd = socket := by
  rw [findWrite, ← length]
  rcases bsearch_spec (PollTable.ascends socket sorted) with
    ⟨i, fd, found, isThere, equal⟩ | ⟨-, other⟩
  · refine ⟨fd, List.mem_of_getElem? isThere, ?_, (PollTable.cmpsockfds_eq_zero fd).mp equal⟩
    rw [found]
    exact isThere
  · rcases List.mem_map.mp mem with ⟨fd, isThere, rfl⟩
    exact absurd ((PollTable.cmpsockfds_eq_zero fd).mpr rfl) (other fd isThere)

theorem findWrite_notMem (notMem : socket ∉ (saved.fds_write.getD []).map Pollfd.fd) :
    findWrite saved socket = none := by
  rw [findWrite, ← length]
  rcases bsearch_spec (PollTable.ascends socket sorted) with ⟨i, fd, -, isThere, equal⟩ | ⟨found, -⟩
  · rw [← (PollTable.cmpsockfds_eq_zero fd).mp equal] at notMem
    exact absurd (List.mem_map_of_mem (List.mem_of_getElem? isThere)) notMem
  · rw [found]
    rfl

end Search

section Iterations

variable {saved : PollTable} {outcome : Int → Nat → Outcome} {actions : Nat → List Action}
  {progress : Progress} {front behind : Pending} {addr : Nat} {socket : Int}
  {rest contents : Multiset (Nat × ListElement Int)} {vars : ListVars} {fd : Pollfd}

/-- The element of an iteration. -/
theorem element_spec {post : Option (Option Nat × Progress) → Multiset (Nat × ListElement Int) →
      ListVars → Prop}
    {program : Int → Pollfd → ListProgram Int (Option (Option Nat × Progress))}
    (represents : Represents (elementsOf (front ++ (addr, socket) :: behind)) rest contents vars)
    (isFound : findWrite saved socket = some fd)
    (continues : Runs (program socket fd) contents vars post) :
    Runs (do
      if some addr = none then return none
      else
        let element ← load (some addr)
        match element.content with
        | none => return none
        | some socket => do
            let fd ← (findWrite saved socket : Option Pollfd)
            program socket fd) contents vars post := by
  rw [elementsOf_append, elementsOf_cons] at represents
  rw [if_neg (Option.some_ne_none addr)]
  refine Runs.load _ (represents.mem_contents (elementsOf front)) ?_
  dsimp only
  rw [isFound]
  exact continues

/-- The next element. -/
theorem next_spec (represents : Represents (elementsOf (front ++ (addr, socket) :: behind)) rest
      contents vars)
    (progress : Progress) :
    Runs (do
      let curpending ← listNextElement (some addr)
      return some (curpending, progress)) contents vars fun next contents' vars' =>
        next = some (firstOf (elementsOf behind) none, progress) ∧ contents' =
        contents ∧ vars' = vars := by
  have isLast : lastOf none (elementsOf front ++ [(addr, some socket)]) = some addr := by
    rw [lastOf_append]
    rfl
  rw [elementsOf_append, elementsOf_cons, List.append_cons] at represents
  rw [← isLast]
  exact listNextElement_spec _ _ represents (Runs.pure ⟨rfl, rfl, rfl⟩)

/-- `current` after the element at an address was removed. -/
def currentAfter (current : Option Nat) (addr : Nat) (behind : Pending) : Option Nat :=
  if current = some addr then firstOf (elementsOf behind) none else current

/-- What becomes of the loop at a socket that stays. -/
def passed (outcome : Int → Nat → Outcome) (fd : Pollfd) (socket : Int) (progress : Progress) :
    Option Progress :=
  if fd.revents &&& PollTable.POLLOUT = 0 then some progress
  else if outcome socket (progress.attempts.count socket) = .incomplete then
    some (progress.attempt socket)
  else none

theorem called_of_passed {progress' : Progress}
    (stays : passed outcome fd socket progress = some progress') :
    progress'.called = progress.called := by
  rw [passed] at stays
  split at stays
  case isTrue =>
    cases stays
    rfl
  case isFalse =>
    split at stays
    case isTrue =>
      cases stays
      rfl
    case isFalse => cases stays

/-- A socket that stays. -/
theorem iterate_passed {progress' : Progress} (actions : Nat → List Action)
    (represents : Represents (elementsOf (front ++ (addr, socket) :: behind)) rest contents vars)
    (isFound : findWrite saved socket = some fd)
    (stays : passed outcome fd socket progress = some progress') :
    Runs (iterate saved outcome actions (some addr) progress) contents vars
      fun next contents' vars' =>
      next = some (firstOf (elementsOf behind) none, progress') ∧ contents' =
      contents ∧ vars' = vars := by
  rw [iterate]
  refine element_spec represents isFound ?_
  dsimp only
  rw [passed] at stays
  split at stays
  case isTrue notReady =>
    cases stays
    rw [if_pos notReady]
    exact next_spec represents progress
  case isFalse ready =>
    rw [if_neg ready]
    split at stays
    case isTrue incomplete =>
      cases stays
      rw [incomplete, if_pos (show Outcome.incomplete.rc = 0 from rfl)]
      exact next_spec represents (progress.attempt socket)
    case isFalse => cases stays

/-- A socket that is removed. -/
theorem iterate_removed {post : Unit → Multiset (Nat × ListElement Int) → ListVars → Prop}
    (represents : Represents (elementsOf (front ++ (addr, socket) :: behind)) rest contents vars)
    (nodup : ((front ++ (addr, socket) :: behind).map Prod.snd).Nodup)
    (isFound : findWrite saved socket = some fd) (goes : passed outcome fd socket progress = none)
    (acts : ∀ contents' vars', Represents (elementsOf (front ++ behind)) rest contents' vars' →
      vars'.current = currentAfter vars.current addr behind →
      Runs (performAll (actions progress.called)) contents' vars' post) :
    Runs (iterate saved outcome actions (some addr) progress) contents vars
      fun next contents' vars' =>
      next = some (currentAfter vars.current addr behind,
        (progress.attempt socket).call.report socket
        (outcome socket (progress.attempts.count socket)).rc) ∧
        post () contents' vars' := by
  rw [iterate]
  refine element_spec represents isFound ?_
  dsimp only
  rw [passed] at goes
  split at goes
  case isTrue => cases goes
  case isFalse ready =>
    split at goes
    case isTrue => cases goes
    case isFalse other =>
      have nonzero : (outcome socket (progress.attempts.count socket)).rc ≠ 0 := by
        cases result : outcome socket (progress.attempts.count socket) with
        | incomplete => exact absurd result other
        | complete => decide
        | error => decide
      rw [if_neg ready, if_neg nonzero, listRemove]
      refine Runs.bind _ (listUnlink_current represents) ?_
      rintro _ contents' vars' (⟨-, -, -, noMatch⟩ | ⟨xs, addr', content, ys, split, isMatch, rfl,
        after, isCurrent⟩)
      · have isThere : (addr, some socket) ∈ elementsOf (front ++ (addr, socket) :: behind) :=
          mem_elementsOf.mpr ⟨socket, rfl, by simp⟩
        have other := noMatch _ isThere
        simp [matchesContent] at other
      · rcases elementsOf_eq_append split with ⟨front', socket', behind', same, rfl, rfl, rfl⟩
        have isSocket : socket' = socket := by simpa [matchesContent] using isMatch
        subst isSocket
        rcases split_unique nodup same with ⟨rfl, rfl, rfl⟩
        rw [← elementsOf_append] at after
        dsimp only
        rw [if_pos rfl, pure_bind]
        refine Runs.look (Runs.bind _ (acts _ _ after isCurrent) ?_)
        intro _ contents'' vars'' holds
        rw [isCurrent]
        exact Runs.pure ⟨rfl, holds⟩

/-- A socket that is not found. -/
theorem iterate_notFound {records : Nat → Option (ListElement Int)} (holds : Holds records contents)
    (represents : Represents (elementsOf (front ++ (addr, socket) :: behind)) rest contents vars)
    (notFound : findWrite saved socket = none) :
    iterate saved outcome actions (some addr) progress ⟨records, vars⟩ = none := by
  rw [elementsOf_append, elementsOf_cons] at represents
  have read := holds.read (represents.mem_contents (elementsOf front))
  have loaded : load (some addr) ⟨records, vars⟩ =
      some (⟨lastOf none (elementsOf front), firstOf (elementsOf behind) none, some socket⟩,
        ⟨records, vars⟩) := by
    rw [load, Option.bind_some]
    exact congrArg (Option.map _) read
  rw [iterate, if_neg (Option.some_ne_none addr)]
  refine (congrArg (Option.bind · _) loaded).trans ?_
  dsimp only [Option.bind_some]
  rw [notFound]
  rfl

theorem continueFrom_eq (curpending : Option Nat) (progress : Progress) :
    continueFrom saved outcome actions curpending progress = ((do
      match ← iterate saved outcome actions curpending progress with
      | none => return progress
      | some (curpending, progress) => continueFrom saved outcome actions curpending progress) :
        ListProgram Int Progress) := by
  funext memory
  rw [continueFrom]
  rfl

/-- The loop after an iteration. -/
theorem continueFrom_spec {curpending next : Option Nat} {progress' : Progress}
    {during : Multiset (Nat × ListElement Int) → ListVars → Prop}
    {post : ListProgram Int Progress → Multiset (Nat × ListElement Int) → ListVars → Prop}
    (iterates : Runs (iterate saved outcome actions curpending progress) contents vars fun result
      contents' vars' =>
      result = some (next, progress') ∧ during contents' vars')
    (continues : ∀ contents' vars', during contents' vars' →
      Leads (continueFrom saved outcome actions next progress') contents' vars' post) :
    Leads (continueFrom saved outcome actions curpending progress) contents vars post := by
  rw [continueFrom_eq]
  refine Leads.bind _ iterates ?_
  rintro _ contents' vars' ⟨rfl, holds⟩
  exact continues contents' vars' holds

/-- The end of the loop. -/
theorem continueFrom_none :
    continueFrom saved outcome actions none progress =
      (pure progress : ListProgram Int Progress) := by
  rw [continueFrom_eq, iterate, if_pos rfl]
  rfl

end Iterations

end ContinueWrites

end Paho
