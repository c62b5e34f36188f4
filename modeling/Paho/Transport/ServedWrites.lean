import Mathlib.Data.Fintype.EquivFin
import Paho.Transport.ContinueWrites

/-!
# Pending writes that are served

When `Socket_continueWrites` attempts every writable pending socket once, whatever the callbacks and
other threads do. It continues from `current`, and `ListRemove` leaves that at an element that is
not removed.
-/

namespace Paho

open Arrays Lists Records

namespace ContinueWrites

section Lost

variable {saved : PollTable} {outcome : Int → Nat → Outcome} {actions : Nat → List Action}
  {progress : Progress} {last : Nat × Int} {curpending : Option Nat}
  {memory : Memory Nat (ListElement Int) ListVars}

/-- The loop is on its way to a socket that the search does not find. -/
structure Lost (saved : PollTable) (last : Nat × Int) (curpending : Option Nat)
    (progress : Progress) (memory : Memory Nat (ListElement Int) ListVars) : Prop where
  notFound : findWrite saved last.2 = none
  called : 0 < progress.called
  current : memory.vars.current ≠ none
  isList : ∃ pending contents rest addr, Holds memory.records contents ∧
    Represents (elementsOf pending) rest contents memory.vars ∧ (pending.map Prod.snd).Nodup ∧
      pending.getLast? = some last ∧ curpending = some addr ∧ addr ∈ pending.map Prod.fst

theorem currentAfter_eq_none_iff {current : Option Nat} {addr : Nat} {behind : Pending} :
    currentAfter current addr behind = none ↔
      current = none ∨ current = some addr ∧ behind = [] := by
  rw [currentAfter]
  split
  case isTrue isCurrent =>
    subst isCurrent
    rcases behind with _ | ⟨⟨addr', socket⟩, behind⟩
    · simp [elementsOf, firstOf]
    · simp [elementsOf, firstOf]
  case isFalse other => simp [other]

/-- The loop stays on this way, or the search finds nothing. -/
theorem iterate_lost (quiet : ∀ called, 0 < called → actions called = [])
    (lost : Lost saved last curpending progress memory) :
    iterate saved outcome actions curpending progress memory = none ∨
      ∃ next progress' memory', iterate saved outcome actions curpending progress memory =
        some (some (next, progress'), memory') ∧ Lost saved last next progress' memory' := by
  rcases lost with
    ⟨notFound, called, isCurrent, pending, contents, rest, addr, holds, represents, nodup,
      isLast, rfl, mem⟩
  rcases List.mem_map.mp mem with ⟨⟨addr, socket⟩, isThere, rfl⟩
  rcases List.append_of_mem isThere with ⟨front, behind, rfl⟩
  cases isFound : findWrite saved socket with
  | none => exact .inl (iterate_notFound holds represents isFound)
  | some fd =>
      right
      have some_element : behind ≠ [] := by
        rintro rfl
        rw [List.getLast?_concat] at isLast
        cases isLast
        cases notFound.symm.trans isFound
      have isLast' : behind.getLast? = some last := by
        rwa [List.getLast?_append_of_ne_nil _ (List.cons_ne_nil _ _),
          List.getLast?_cons_of_ne_nil some_element] at isLast
      cases isPassed : passed outcome fd socket progress with
      | some progress' =>
          rcases iterate_passed actions represents isFound isPassed memory.records holds with
            ⟨_, records', contents', vars', done, holds', rfl, rfl, rfl⟩
          rcases List.exists_cons_of_ne_nil some_element with ⟨⟨addr', socket'⟩, behind', rfl⟩
          have isThere' : addr' ∈ (front ++ (addr, socket) :: (addr', socket') :: behind').map
            Prod.fst := by
            simp
          have stillCalled : 0 < progress'.called := by
            rwa [called_of_passed isPassed]
          exact ⟨_, _, _, done, notFound, stillCalled, isCurrent, _, contents', rest, addr',
            holds', represents,
            nodup, isLast, rfl, isThere'⟩
      | none =>
          have acts (contents' : Multiset (Nat × ListElement Int)) (vars' : ListVars)
              (after : Represents (elementsOf (front ++ behind)) rest contents' vars')
              (next : vars'.current = currentAfter memory.vars.current addr behind) :
              Runs (performAll (actions progress.called)) contents' vars' fun _ contents'' vars'' =>
                Represents (elementsOf (front ++ behind)) rest contents'' vars'' ∧
                  vars''.current = currentAfter memory.vars.current addr behind := by
            rw [quiet progress.called called]
            exact Runs.pure ⟨after, next⟩
          rcases iterate_removed represents nodup isFound isPassed acts memory.records holds with
            ⟨_, records', contents', vars', done, holds', rfl, after, isNext⟩
          have remains : currentAfter memory.vars.current addr behind ≠ none := by
            rw [Ne, currentAfter_eq_none_iff]
            exact fun ends => ends.elim isCurrent fun isLast => some_element isLast.2
          rcases Option.ne_none_iff_exists'.mp remains with ⟨addr', isAddr⟩
          rcases after.current_mem addr' (isNext.trans isAddr) with ⟨content, mem'⟩
          rcases mem_elementsOf.mp mem' with ⟨socket', rfl, isThere'⟩
          have smaller := (List.sublist_cons_self (addr, socket) behind).append_left front
          rw [← isNext] at remains
          refine ⟨_, _, _, done, notFound, ?_, remains, front ++ behind, contents', rest, addr',
            holds', after,
            nodup.sublist (smaller.map Prod.snd), ?_, isAddr,
              List.mem_map.mpr ⟨(addr', socket'), isThere', rfl⟩⟩
          · rw [Progress.report]
            split <;> exact Nat.succ_pos progress.called
          · rwa [List.getLast?_append_of_ne_nil _ some_element]

/-- This loop has no result. -/
theorem continueFrom_lost (quiet : ∀ called, 0 < called → actions called = [])
    (lost : Lost saved last curpending progress memory) :
    continueFrom saved outcome actions curpending progress memory = none := by
  have never : ∀ curpending progress memory result,
      continueFrom saved outcome actions curpending progress memory = some result →
      ¬Lost saved last curpending progress memory := by
    refine continueFrom.partial_correctness saved outcome actions _ ?_
    intro continueFrom ih curpending progress memory result done lost
    rcases iterate_lost quiet lost with fails | ⟨next, progress', memory', isNext, lost'⟩
    · rw [StateT.run_bind] at done
      cases (congrArg (Option.bind · _) fails).symm.trans done
    · rw [StateT.run_bind] at done
      exact ih next progress' memory' result
        ((congrArg (Option.bind · _) isNext).symm.trans done) lost'
  rw [Option.eq_none_iff_forall_not_mem]
  intro result done
  exact never curpending progress memory result done lost

end Lost

namespace Snapshot

variable {snapshot : Snapshot} {outcome : Int → Nat → Outcome} {actions : Nat → List Action}
  {progress : Progress} {element : Nat × Int}

/-- The search finds a pending socket. -/
theorem findWrite_pending (mem : element ∈ snapshot.pending) :
    ∃ fd, findWrite snapshot.saved element.2 = some fd ∧
      (fd.revents &&& PollTable.POLLOUT = 0 ↔ snapshot.writable element.2 = false) := by
  rcases findWrite_mem snapshot.sorted snapshot.length (snapshot.found element mem) with
    ⟨fd, isThere, isFound, isSocket⟩
  refine ⟨fd, isFound, ?_⟩
  have reported := snapshot.reported fd isThere
  rw [isSocket] at reported
  rw [← Bool.not_eq_true, ← reported, not_not]

/-- What becomes of the loop at a socket that has not been attempted. -/
theorem passed_eq {fd : Pollfd} {socket : Int} (outcome : Int → Nat → Outcome) (progress : Progress)
    (reported : fd.revents &&& PollTable.POLLOUT = 0 ↔ snapshot.writable socket = false)
    (first : progress.attempts.count socket = 0) :
    passed outcome fd socket progress =
      if snapshot.finishes outcome socket then none
      else if snapshot.writable socket then some (progress.attempt socket) else some progress := by
  rw [passed, finishes, first]
  cases isWritable : snapshot.writable socket with
  | false =>
      rw [if_pos (reported.mpr isWritable), Bool.false_and, if_neg Bool.false_ne_true,
        if_neg Bool.false_ne_true]
  | true =>
      have ready : fd.revents &&& PollTable.POLLOUT ≠ 0 := by
        intro notReady
        cases isWritable.symm.trans (reported.mp notReady)
      rw [if_neg ready, if_pos rfl]
      by_cases incomplete : outcome socket 0 = .incomplete
      · simp [incomplete]
      · simp [incomplete]

/-- The attempts on sockets that stay. -/
def attempted (snapshot : Snapshot) (passed : Pending) (progress : Progress) : Progress :=
  { progress with attempts := progress.attempts ++ (passed.map Prod.snd).filter snapshot.writable }

/-- The loop comes to the first socket that is removed. -/
theorem continueFrom_passed {rest contents : Multiset (Nat × ListElement Int)} {vars : ListVars}
    {post : ListProgram Int Progress → Multiset (Nat × ListElement Int) → ListVars → Prop}
    (front passed behind : Pending)
    (represents : Represents (elementsOf (front ++ (passed ++ behind))) rest contents vars)
    (pending : ∀ element ∈ passed, element ∈ snapshot.pending)
    (stay : ∀ element ∈ passed, snapshot.finishes outcome element.2 = false)
    (nodup : (passed.map Prod.snd).Nodup)
    (first : ∀ element ∈ passed, progress.attempts.count element.2 = 0)
    (continues : Leads
      (continueFrom snapshot.saved outcome actions (firstOf (elementsOf behind) none)
      (snapshot.attempted passed progress)) contents vars post) :
    Leads (continueFrom snapshot.saved outcome actions
      (firstOf (elementsOf (passed ++ behind)) none) progress)
      contents vars post := by
  induction passed generalizing front progress with
  | nil =>
      have same : snapshot.attempted [] progress = progress := by
        simp [attempted]
      rwa [same] at continues
  | cons element passed ih =>
      rcases element with ⟨addr, socket⟩
      rcases findWrite_pending (pending _ List.mem_cons_self) with ⟨fd, isFound, reported⟩
      have isPassed := passed_eq outcome progress reported (first _ List.mem_cons_self)
      rw [stay _ List.mem_cons_self, if_neg Bool.false_ne_true] at isPassed
      have apart := List.nodup_cons.mp nodup
      rw [List.cons_append] at represents
      rw [List.cons_append, elementsOf_cons, firstOf]
      have next : elementsOf (front ++ (addr, socket) :: (passed ++ behind)) =
          elementsOf (front ++ [(addr, socket)] ++ (passed ++ behind)) := by
        rw [List.append_assoc, List.singleton_append]
      have later : ∀ element ∈ passed, element ∈ snapshot.pending :=
        fun element mem => pending element (List.mem_cons_of_mem _ mem)
      have laterStay : ∀ element ∈ passed, snapshot.finishes outcome element.2 = false :=
        fun element mem => stay element (List.mem_cons_of_mem _ mem)
      have laterFirst : ∀ element ∈ passed, progress.attempts.count element.2 = 0 :=
        fun element mem => first element (List.mem_cons_of_mem _ mem)
      split at isPassed
      case isTrue isWritable =>
        refine continueFrom_spec (iterate_passed actions represents isFound isPassed) ?_
        rintro _ _ ⟨rfl, rfl⟩
        refine ih (front ++ [(addr, socket)]) (next ▸ represents) later laterStay apart.2 ?_ ?_
        · intro element mem
          have other : element.2 ≠ socket := by
            rintro rfl
            exact apart.1 (List.mem_map.mpr ⟨element, mem, rfl⟩)
          rw [Progress.attempt, List.count_append, laterFirst element mem, List.count_singleton]
          simp [other.symm]
        · have same : snapshot.attempted passed (progress.attempt socket) =
              snapshot.attempted ((addr, socket) :: passed) progress := by
            rw [attempted, attempted, List.map_cons, List.filter_cons_of_pos isWritable]
            simp [Progress.attempt]
          rwa [same]
      case isFalse notWritable =>
        refine continueFrom_spec (iterate_passed actions represents isFound isPassed) ?_
        rintro _ _ ⟨rfl, rfl⟩
        refine ih (front ++ [(addr, socket)]) (next ▸ represents) later laterStay
          apart.2 laterFirst ?_
        have same : snapshot.attempted passed progress =
            snapshot.attempted ((addr, socket) :: passed) progress := by
          rw [attempted, attempted, List.map_cons, List.filter_cons_of_neg notWritable]
        rwa [same]

/-- The pending sockets are those that stay, and from the first that is removed on the others. -/
theorem split_pending (snapshot : Snapshot) (outcome : Int → Nat → Outcome) :
    ∃ passed, snapshot.pending =
        passed ++ (snapshot.pending.dropWhile fun element => !snapshot.finishes outcome element.2) ∧
      (∀ element ∈ passed, snapshot.finishes outcome element.2 = false) ∧
      ∀ element behind,
        (snapshot.pending.dropWhile fun element => !snapshot.finishes outcome element.2) =
        element :: behind →
        snapshot.finishes outcome element.2 = true := by
  refine ⟨_, List.takeWhile_append_dropWhile.symm, ?_, ?_⟩
  · intro element mem
    have isPassed := List.all_eq_true.mp List.all_takeWhile element mem
    simpa using isPassed
  · intro element behind isBehind
    have head := List.head?_dropWhile_not
      (fun element : Nat × Int => !snapshot.finishes outcome element.2)
      snapshot.pending
    rw [isBehind] at head
    simpa using head

section Starts

variable {rest contents : Multiset (Nat × ListElement Int)} {passed behind : Pending} {sock : Int}

/-- From the start to the first socket that is removed. -/
theorem continueWrites_passed {post : ListProgram Int Progress → Multiset (Nat × ListElement Int) →
      ListVars → Prop}
    (represents : Represents (elementsOf snapshot.pending) rest contents snapshot.memory.vars)
    (split : snapshot.pending = passed ++ behind)
    (stay : ∀ element ∈ passed, snapshot.finishes outcome element.2 = false)
    (continues : Leads
      (continueFrom snapshot.saved outcome actions (firstOf (elementsOf behind) none)
      ⟨0, sock, (passed.map Prod.snd).filter snapshot.writable, 0⟩) contents
      snapshot.memory.vars post) :
    Leads (continueWrites snapshot.saved outcome actions sock) contents
      snapshot.memory.vars post := by
  have nodup := snapshot.nodup
  have first := represents.first_eq
  rw [split] at represents first nodup
  rw [List.map_append] at nodup
  have pending : ∀ element ∈ passed, element ∈ snapshot.pending := by
    rw [split]
    exact fun element mem => List.mem_append_left behind mem
  change Leads (continueFrom snapshot.saved outcome actions snapshot.memory.vars.first _) _ _ _
  rw [first]
  exact continueFrom_passed [] passed behind represents pending stay (List.nodup_append.mp nodup).1
    (fun _ _ => rfl) continues

/-- The first socket is removed. -/
theorem continueWrites_removed {during : Unit → Multiset (Nat × ListElement Int) → ListVars → Prop}
    {post : ListProgram Int Progress → Multiset (Nat × ListElement Int) → ListVars → Prop}
    (represents : Represents (elementsOf snapshot.pending) rest contents snapshot.memory.vars)
    (split : snapshot.pending = passed ++ element :: behind)
    (stay : ∀ element ∈ passed, snapshot.finishes outcome element.2 = false)
    (goes : snapshot.finishes outcome element.2 = true)
    (acts : ∀ contents' vars', Represents (elementsOf (passed ++ behind)) rest contents' vars' →
      vars'.current = currentAfter snapshot.memory.vars.current element.1 behind →
      Runs (performAll (actions 0)) contents' vars' during)
    (continues : ∀ progress contents' vars', during () contents' vars' →
      progress.attempts = ((passed ++ [element]).map Prod.snd).filter snapshot.writable →
      progress.called = 1 →
      Leads (continueFrom snapshot.saved outcome actions
        (currentAfter snapshot.memory.vars.current element.1 behind) progress)
        contents' vars' post) :
    Leads (continueWrites snapshot.saved outcome actions sock) contents
      snapshot.memory.vars post := by
  rcases element with ⟨addr, socket⟩
  refine continueWrites_passed represents split stay ?_
  have nodup := snapshot.nodup
  rw [split] at represents nodup
  have isPending : (addr, socket) ∈ snapshot.pending := by
    rw [split]
    exact List.mem_append_right passed List.mem_cons_self
  have isWritable : snapshot.writable socket = true := (Bool.and_eq_true_iff.mp goes).1
  have fresh : socket ∉ passed.map Prod.snd := by
    rw [List.map_append, List.nodup_append] at nodup
    exact fun mem => nodup.2.2 socket mem socket List.mem_cons_self rfl
  rcases findWrite_pending isPending with ⟨fd, isFound, reported⟩
  have isRemoved := passed_eq outcome ⟨0, sock,
    (passed.map Prod.snd).filter snapshot.writable, 0⟩ reported
    (List.count_eq_zero.mpr fun mem => fresh (List.mem_of_mem_filter mem))
  rw [goes, if_pos rfl] at isRemoved
  refine continueFrom_spec (iterate_removed represents nodup isFound isRemoved acts) ?_
  intro contents' vars' holds
  refine continues _ contents' vars' holds ?_ ?_
  · rw [List.map_append, List.filter_append]
    have last : ([(addr, socket)].map Prod.snd).filter snapshot.writable = [socket] := by
      rw [List.map_singleton, List.filter_cons_of_pos isWritable, List.filter_nil]
    rw [last, Progress.report]
    split <;> rfl
  · rw [Progress.report]
    split <;> rfl

/-- The loop ends after the first socket that is removed. -/
theorem continueWrites_ends
    (represents : Represents (elementsOf snapshot.pending) rest contents snapshot.memory.vars)
    (split : snapshot.pending = passed ++ element :: behind)
    (stay : ∀ element ∈ passed, snapshot.finishes outcome element.2 = false)
    (goes : snapshot.finishes outcome element.2 = true)
    (next : currentAfter snapshot.memory.vars.current element.1 behind = none) :
    Leads (continueWrites snapshot.saved outcome actions sock) contents snapshot.memory.vars
      fun program contents' vars' => ∃ progress added, program = pure progress ∧
        progress.attempts = ((passed ++ [element]).map Prod.snd).filter snapshot.writable ∧
        Represents (elementsOf (passed ++ behind ++ added)) rest contents' vars' := by
  have acts (contents' : Multiset (Nat × ListElement Int)) (vars' : ListVars)
      (after : Represents (elementsOf (passed ++ behind)) rest contents' vars') :
      Runs (performAll (actions 0)) contents' vars' fun _ contents'' vars'' =>
        ∃ added, Represents (elementsOf (passed ++ behind ++ added)) rest contents'' vars'' :=
    performAll_spec (actions 0) after
  refine continueWrites_removed represents split stay goes
    (fun contents' vars' after _ => acts contents' vars' after) ?_
  rintro progress contents' vars' ⟨added, after⟩ attempts -
  rw [next]
  exact Leads.refl ⟨progress, added, continueFrom_none, attempts, after⟩

end Starts

/-- `continueWrites` has a result. -/
theorem result_of_leads {attempts : List Int} {left : Pending} (sock : Int)
    (leads : ∀ contents rest, Represents (elementsOf snapshot.pending) rest contents
      snapshot.memory.vars →
      Leads (continueWrites snapshot.saved outcome actions sock) contents snapshot.memory.vars
        fun program contents' vars' => ∃ progress added, program = pure progress ∧
        progress.attempts = attempts ∧
          Represents (elementsOf (left ++ added)) rest contents' vars') :
    ∃ progress memory added,
      continueWrites snapshot.saved outcome actions sock snapshot.memory = some (progress, memory) ∧
        progress.attempts = attempts ∧ IsList memory (left ++ added) := by
  rcases snapshot.isList with ⟨contents, rest, holds, represents⟩
  rcases leads contents rest represents snapshot.memory.records holds with
    ⟨_, records', contents', vars', same, holds', progress, added, rfl, isAttempts, after⟩
  exact ⟨progress, ⟨records', vars'⟩, added, same, isAttempts, contents', rest, holds', after⟩

/-- How often a pending socket is attempted. -/
theorem count_attempts {passed behind : Pending} (split : snapshot.pending = passed ++ behind)
    (mem : element ∈ snapshot.pending) :
    ((passed.map Prod.snd).filter snapshot.writable).count element.2 =
      if element ∈ passed ∧ snapshot.writable element.2 = true then 1 else 0 := by
  have nodup := snapshot.nodup
  rw [split, List.map_append, List.nodup_append] at nodup
  split
  case isTrue isAttempted =>
    rw [List.count_filter isAttempted.2]
    exact List.count_eq_one_of_mem nodup.1 (List.mem_map_of_mem isAttempted.1)
  case isFalse notAttempted =>
    rw [List.count_eq_zero, List.mem_filter]
    rintro ⟨isPassed, isWritable⟩
    rcases List.mem_map.mp isPassed with ⟨other, isThere, same⟩
    rw [split, List.mem_append] at mem
    rcases mem with mem | mem
    · exact notAttempted ⟨mem, isWritable⟩
    · exact nodup.2.2 _ isPassed _ (List.mem_map_of_mem mem) rfl

/-- Nothing is removed: every writable socket is attempted. -/
theorem serves_of_stay
    (stay : ∀ element ∈ snapshot.pending, snapshot.finishes outcome element.2 = false) :
    snapshot.Serves outcome actions := by
  intro sock
  have leads : ∀ contents rest, Represents (elementsOf snapshot.pending) rest contents
    snapshot.memory.vars →
      Leads (continueWrites snapshot.saved outcome actions sock) contents snapshot.memory.vars
        fun program contents' vars' => ∃ progress added, program = pure progress ∧
          progress.attempts = (snapshot.pending.map Prod.snd).filter snapshot.writable ∧
          Represents (elementsOf (snapshot.pending ++ added)) rest contents' vars' := by
    intro contents rest represents
    refine continueWrites_passed represents (List.append_nil snapshot.pending).symm stay ?_
    refine Leads.refl ⟨_, [], continueFrom_none, rfl, ?_⟩
    rwa [List.append_nil]
  rcases result_of_leads sock leads with ⟨progress, memory, added, done, isAttempts, isList⟩
  refine ⟨progress, memory, added, done, fun element mem => ?_, ?_⟩
  · rw [isAttempts, count_attempts (List.append_nil snapshot.pending).symm mem]
    simp [mem]
  · rw [List.filter_eq_self.mpr fun element mem => by rw [stay element mem]; rfl]
    exact isList

/-- The loop ends after the first socket that is removed: it serves all where no socket behind it is
writable. -/
theorem serves_iff_of_ends {passed behind : Pending}
    (split : snapshot.pending = passed ++ element :: behind)
    (stay : ∀ element ∈ passed, snapshot.finishes outcome element.2 = false)
    (goes : snapshot.finishes outcome element.2 = true)
    (next : currentAfter snapshot.memory.vars.current element.1 behind = none) :
    snapshot.Serves outcome actions ↔ ∀ other ∈ behind, snapshot.writable other.2 = false := by
  have parts : snapshot.pending = (passed ++ [element]) ++ behind := by
    rw [split, List.append_assoc, List.singleton_append]
  have result (sock : Int) : ∃ progress memory added,
      continueWrites snapshot.saved outcome actions sock snapshot.memory = some (progress, memory) ∧
        progress.attempts = ((passed ++ [element]).map Prod.snd).filter snapshot.writable ∧
        IsList memory (passed ++ behind ++ added) :=
    result_of_leads sock fun contents rest represents =>
      continueWrites_ends represents split stay goes next
  have isPending (other : Nat × Int) (mem : other ∈ behind) : other ∈ snapshot.pending := by
    rw [parts]
    exact List.mem_append_right _ mem
  have apart (other : Nat × Int) (mem : other ∈ behind) : other ∉ passed ++ [element] := by
    intro mem'
    have nodup := snapshot.nodup
    rw [parts, List.map_append, List.nodup_append] at nodup
    exact nodup.2.2 _ (List.mem_map_of_mem mem') _ (List.mem_map_of_mem mem) rfl
  constructor
  · intro serves other mem
    rcases serves 0 with ⟨progress, memory, added, done, counts, -⟩
    rcases result 0 with ⟨progress', memory', added', done', isAttempts, -⟩
    cases done.symm.trans done'
    have count := counts other (isPending other mem)
    rw [isAttempts, count_attempts parts (isPending other mem),
      if_neg fun both => apart other mem both.1] at count
    by_contra isWritable
    rw [if_pos (Bool.eq_true_of_not_eq_false isWritable)] at count
    cases count
  · intro notWritable sock
    rcases result sock with ⟨progress, memory, added, done, isAttempts, isList⟩
    refine ⟨progress, memory, added, done, fun other mem => ?_, ?_⟩
    · rw [isAttempts, count_attempts parts mem]
      rw [parts, List.mem_append] at mem
      rcases mem with mem | mem
      · simp [mem]
      · simp [notWritable other mem]
    · have behindStay : ∀ other ∈ behind, snapshot.finishes outcome other.2 = false := by
        intro other mem
        rw [finishes, notWritable other mem, Bool.false_and]
      have kept : (snapshot.pending.filter fun element => !snapshot.finishes outcome element.2) =
          passed ++ behind := by
        rw [split, List.filter_append, List.filter_cons_of_neg (by simp [goes])]
        rw [List.filter_eq_self.mpr fun other mem => by rw [stay other mem]; rfl]
        rw [List.filter_eq_self.mpr fun other mem => by rw [behindStay other mem]; rfl]
      rw [kept]
      exact isList

/-- Storage at this address. -/
def mallocAt (new : Nat) : Malloc Nat (ListElement Int) where
  result records := if (records new).isNone then some (new, ⟨none, none, none⟩) else none
  fresh records addr record isNew := by
    split at isNew
    case isTrue isFree =>
      cases isNew
      exact Option.isNone_iff_eq_none.mp isFree
    case isFalse => cases isNew

/-- In the first callback, another thread starts a write to a socket. -/
def startWrite (new : Nat) (socket : Int) (called : Nat) : List Action :=
  if called = 0 then [.putdatas (mallocAt new) socket] else []

/-- The loop goes on after the first socket that is removed: it does not end well when a write is
started to a socket that was opened after the copy was made. -/
theorem not_serves {passed behind : Pending}
    (split : snapshot.pending = passed ++ element :: behind)
    (stay : ∀ element ∈ passed, snapshot.finishes outcome element.2 = false)
    (goes : snapshot.finishes outcome element.2 = true)
    (next : currentAfter snapshot.memory.vars.current element.1 behind ≠ none) :
    ∃ new socket, ¬snapshot.Serves outcome (startWrite new socket) := by
  rcases snapshot.isList with ⟨contents, rest, holds, represents⟩
  rcases Infinite.exists_notMem_finset (contents.map Prod.fst).toFinset with ⟨new, isNew⟩
  rcases Infinite.exists_notMem_finset
    ((snapshot.saved.fds_write.getD []).map Pollfd.fd).toFinset with
    ⟨socket, notSaved⟩
  rw [Multiset.mem_toFinset] at isNew
  rw [List.mem_toFinset] at notSaved
  have notPending : socket ∉ snapshot.pending.map Prod.snd := by
    intro mem
    rcases List.mem_map.mp mem with ⟨other, isThere, rfl⟩
    exact notSaved (snapshot.found other isThere)
  refine ⟨new, socket, fun serves => ?_⟩
  have isSplit : (passed ++ behind).Sublist snapshot.pending := by
    rw [split]
    exact (List.sublist_cons_self element behind).append_left passed
  have acts (contents' : Multiset (Nat × ListElement Int)) (vars' : ListVars)
      (after : Represents (elementsOf (passed ++ behind)) rest contents' vars')
      (isNext : vars'.current = currentAfter snapshot.memory.vars.current element.1 behind) :
      Runs (performAll (startWrite new socket 0)) contents' vars' fun _ contents'' vars'' =>
        ∃ addr, Represents (elementsOf (passed ++ behind ++ [(addr, socket)])) rest
          contents'' vars'' ∧
          vars''.current = currentAfter snapshot.memory.vars.current element.1 behind := by
    refine Runs.bind _ (Runs.bind _ (noPendingWrites_spec socket after) ?_) fun _ _ _ holds =>
      Runs.pure holds
    rintro none _ vars'' ⟨rfl, after', isNone, same⟩
    have absent : none = true := isNone.mpr fun mem =>
      notPending ((isSplit.map Prod.snd).subset mem)
    subst absent
    refine Runs.bind _ (listAppend_spec after') ?_
    rintro _ contents'' vars''' (⟨rfl, rfl, rfl, records, isHeld, refused⟩
      | ⟨addr, rfl, -, after'', isCurrent⟩)
    · have isUsed : new ∈ contents''.map Prod.fst := by
        cases isThere : records new with
        | none => simp [mallocAt, isThere] at refused
        | some record => exact Holds.mem_map_of_mem ((isHeld.eq_some_iff new record).mp isThere)
      rw [after'.contents_eq, Multiset.map_add, map_fst_links, map_fst_elementsOf,
        Multiset.mem_add] at isUsed
      rw [represents.contents_eq, Multiset.map_add, map_fst_links, map_fst_elementsOf,
        Multiset.mem_add] at isNew
      refine absurd (isUsed.imp_left fun mem => ?_) isNew
      exact (isSplit.map Prod.fst).subset mem
    · refine Runs.pure ⟨addr, ?_, ?_⟩
      · rw [elementsOf_append]
        exact after''
      · rw [isCurrent, same rfl, isNext]
  have leads : Leads (continueWrites snapshot.saved outcome (startWrite new socket) 0) contents
    snapshot.memory.vars
      fun program contents' vars' => ∀ records', Holds records' contents' →
        program ⟨records', vars'⟩ = none := by
    refine continueWrites_removed represents split stay goes acts ?_
    rintro progress contents' vars' ⟨addr, after, isCurrent⟩ - called
    refine Leads.refl fun records' holds' => ?_
    have quiet : ∀ called, 0 < called → startWrite new socket called = [] :=
      fun called positive => if_neg (Nat.pos_iff_ne_zero.mp positive)
    have nodup : ((passed ++ behind ++ [(addr, socket)]).map Prod.snd).Nodup := by
      rw [List.map_append, List.nodup_append]
      refine ⟨snapshot.nodup.sublist (isSplit.map Prod.snd), List.nodup_singleton _, ?_⟩
      rintro a mem b isLast rfl
      cases List.mem_singleton.mp isLast
      exact notPending ((isSplit.map Prod.snd).subset mem)
    rcases Option.ne_none_iff_exists'.mp next with ⟨addr', isAddr⟩
    rcases after.current_mem addr' (isCurrent.trans isAddr) with ⟨content, mem⟩
    rcases mem_elementsOf.mp mem with ⟨socket', rfl, isThere⟩
    have notFound := findWrite_notMem snapshot.sorted snapshot.length notSaved
    have lost : Lost snapshot.saved (addr, socket)
      (currentAfter snapshot.memory.vars.current element.1 behind)
        progress ⟨records', vars'⟩ := by
      refine ⟨notFound, ?_, ?_, _, contents', rest, addr', holds', after, nodup,
        List.getLast?_concat, isAddr, ?_⟩
      · rw [called]
        exact Nat.one_pos
      · rw [isCurrent]
        exact next
      · exact List.mem_map.mpr ⟨_, isThere, rfl⟩
    exact continueFrom_lost quiet lost
  rcases serves 0 with ⟨progress, memory, added, done, -⟩
  rcases leads snapshot.memory.records holds with ⟨program, records', contents', vars', same,
    holds', fails⟩
  cases done.symm.trans (same.trans (fails records' holds'))

/-- Two sockets are pending, and both are writable. `current` is NULL. -/
def twoPending : Snapshot where
  memory :=
    { records := Function.update (Function.update (fun _ => none) 2 (some ⟨some 1, none, some 4⟩)) 1
        (some ⟨none, some 2, some 3⟩)
      vars := ⟨some 1, some 2, none, 2, 8⟩ }
  pending := [(1, 3), (2, 4)]
  isList := by
    have second : Holds (Function.update (fun _ => none) 2 (some ⟨some 1, none, some 4⟩))
        ({(2, (⟨some 1, none, some 4⟩ : ListElement Int))} + 0) :=
      Holds.empty.place _ rfl
    refine ⟨_, 0, second.place ⟨none, some 2, some 3⟩ rfl, (add_zero _).symm, rfl, rfl, rfl, ?_⟩
    intro addr isCurrent
    cases isCurrent
  nodup := by decide
  saved := ⟨2, none,
    some [⟨3, PollTable.POLLOUT, PollTable.POLLOUT⟩, ⟨4, PollTable.POLLOUT, PollTable.POLLOUT⟩]⟩
  sorted := by decide
  length := rfl
  writable _ := true
  reported := by decide
  found := by decide

end Snapshot

end ContinueWrites

end Paho
