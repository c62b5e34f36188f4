import Mathlib.Algebra.Order.Group.Multiset
import Mathlib.Data.Finset.Basic
import Paho.Library.Arrays
import Paho.Library.Run

/-!
# The table of sockets

`Socket_addSocket` and `Socket_close` of the build with `poll`, as far as `fds_read` and `fds_write`
are concerned. The two arrays have one counter. Storage is not refused.
-/

namespace Paho

open Arrays

/-- `struct pollfd`. -/
structure Pollfd where
  fd : Int
  events : UInt16
  revents : UInt16
  deriving DecidableEq, Repr

/-- `nfds`, `fds_read` and `fds_write`. An array is `none` for NULL. -/
structure PollTable where
  nfds : UInt32
  fds_read : Option (List Pollfd)
  fds_write : Option (List Pollfd)
  deriving DecidableEq, Repr

namespace PollTable

def POLLIN : UInt16 := 0x001

def POLLOUT : UInt16 := 0x004

def POLLNVAL : UInt16 := 0x020

/-- `cmpfds`. -/
def cmpfds (p1 p2 : Pollfd) : Int :=
  if p1.fd = p2.fd then 0 else if p1.fd < p2.fd then -1 else 1

/-- `cmpsockfds`. -/
def cmpsockfds (key1 : Int) (p2 : Pollfd) : Int :=
  if key1 = p2.fd then 0 else if key1 < p2.fd then -1 else 1

/-- `malloc` or `realloc` for this number of elements, where nothing is stored in the new ones. -/
def resize (unset : Pollfd) (array : Option (List Pollfd)) (n : Nat) : List Pollfd :=
  (array.getD []).take n ++ List.replicate (n - (array.getD []).length) unset

/-- Change an element. -/
def change (array : List Pollfd) (index : Nat) (f : Pollfd → Pollfd) : Option (List Pollfd) :=
  if index < array.length then some (array.modify index f) else none

/-- What `Socket_addSocket` does to an array: it gets longer, the last element is set, and the array
is sorted. -/
def addFd (unset : Pollfd) (events : UInt16) (newSd : Int) (nfds : UInt32)
    (array : Option (List Pollfd)) :
    Option (List Pollfd) := do
  let array := resize unset array nfds.toNat
  let array ← change array (nfds - 1).toNat fun fd => { fd with fd := newSd }
  let array ← change array (nfds - 1).toNat fun fd => { fd with events := events }
  qsort cmpfds array nfds.toNat

/-- `Socket_addSocket`, with the result of `Socket_setnonblocking`. -/
def addSocket (unsetRead unsetWrite : Pollfd) (nonblocking : Int) (newSd : Int)
    (mod_s : PollTable) :
    Option (Int × PollTable) := do
  let nfds := mod_s.nfds + 1
  let fds_read ← addFd unsetRead (POLLIN ||| POLLNVAL) newSd nfds mod_s.fds_read
  let fds_write ← addFd unsetWrite POLLOUT newSd nfds mod_s.fds_write
  return (nonblocking, ⟨nfds, some fds_read, some fds_write⟩)

/-- What `Socket_close` does to an array with the socket at `fd`, when `nfds` has been decremented.
-/
def removeFd (array : List Pollfd) (fd : Nat) (nfds : UInt32) : Option (Option (List Pollfd)) :=
  if nfds = 0 then some none
  else do
    let array ← if fd ≠ nfds.toNat then memmove array fd (fd + 1) (nfds.toNat - fd) else some array
    return some (array.take nfds.toNat)

/-- `Socket_close`. -/
def close (socket : Int) (mod_s : PollTable) : Option (Int × PollTable) :=
  if mod_s.nfds = 0 then some (0, mod_s)
  else do
    let found ← bsearch (cmpsockfds socket) (mod_s.fds_read.getD []) mod_s.nfds.toNat
    let mod_s ← (
      match found with
      | some fd => do
          let nfds := mod_s.nfds - 1
          let fds_read ← removeFd (mod_s.fds_read.getD []) fd nfds
          return { mod_s with nfds := nfds, fds_read := fds_read }
      | none => some mod_s)
    let found ← bsearch (cmpsockfds socket) (mod_s.fds_write.getD []) (mod_s.nfds + 1).toNat
    match found with
    | some fd =>
        let fds_write ← removeFd (mod_s.fds_write.getD []) fd mod_s.nfds
        return (0, { mod_s with fds_write := fds_write })
    | none => return (0, mod_s)

/-- A call. -/
inductive Call where
  | add (unsetRead unsetWrite : Pollfd) (nonblocking : Int) (newSd : Int)
  | close (socket : Int)
  deriving DecidableEq, Repr

/-- Make a call. -/
def Call.perform (mod_s : PollTable) : Call → Option (Int × PollTable)
  | .add unsetRead unsetWrite nonblocking newSd =>
  addSocket unsetRead unsetWrite nonblocking newSd mod_s
  | .close socket => PollTable.close socket mod_s

/-- `Socket_outInitialize`. -/
def initial : PollTable :=
  ⟨0, none, none⟩

/-- The sockets that are added and not closed. -/
def Call.apply (sockets : Finset Int) : Call → Finset Int
  | .add _ _ _ newSd => insert newSd sockets
  | .close socket => sockets.erase socket

/-- How often they are added and not closed. -/
def Call.register (registered : Multiset Int) : Call → Multiset Int
  | .add _ _ _ newSd => newSd ::ₘ registered
  | .close socket => registered.erase socket

/-- The table after some calls, or `none` when an index outside of an array was used; and what has
been added and not closed. -/
structure Session where
  mod_s : Option PollTable
  sockets : Finset Int
  registered : Multiset Int

/-- Before any call. -/
def start : Session :=
  ⟨some initial, ∅, 0⟩

/-- One more call. -/
def Session.step (session : Session) (call : Call) : Session where
  mod_s := session.mod_s.bind fun mod_s => (call.perform mod_s).map Prod.snd
  sockets := call.apply session.sockets
  registered := call.register session.registered

/-- An array is sorted, and has these sockets and this length. -/
structure ArrayConsistent (array : Option (List Pollfd)) (nfds : UInt32)
    (sockets : Finset Int) : Prop where
  sorted : ((array.getD []).map Pollfd.fd).Pairwise (· ≤ ·)
  length : (array.getD []).length = nfds.toNat
  same : ∀ socket, socket ∈ (array.getD []).map Pollfd.fd ↔ socket ∈ sockets

/-- No index outside of an array was used, and both arrays have the sockets that are added and not
closed. -/
def Session.Consistent (session : Session) : Prop :=
  ∃ mod_s, session.mod_s = some mod_s ∧ ArrayConsistent mod_s.fds_read mod_s.nfds session.sockets ∧
    ArrayConsistent mod_s.fds_write mod_s.nfds session.sockets

/-- A socket that is closed is registered once, or none is registered. The counter has room for a
socket that is added. One more than the largest counter is 0 elements. -/
def Session.Orderly (session : Session) : Call → Prop
  | .add _ _ _ _ => session.registered.card + 1 < 4294967296
  | .close socket =>
      session.registered = 0 ∨ session.registered.count socket = 1 ∨
        session.registered.count socket = 0 ∧ session.registered.card + 1 = 4294967296

section Arrays

variable {array : Option (List Pollfd)} {sockets : Multiset Int} {nfds : UInt32} {socket : Int}

/-- An array is sorted, and has these sockets. -/
structure Registers (array : Option (List Pollfd)) (sockets : Multiset Int) : Prop where
  sorted : ((array.getD []).map Pollfd.fd).Pairwise (· ≤ ·)
  sockets : (((array.getD []).map Pollfd.fd : List Int) : Multiset Int) = sockets

namespace Registers

theorem length (registers : Registers array sockets) : (array.getD []).length = sockets.card := by
  rw [← registers.sockets, Multiset.coe_card, List.length_map]

theorem mem_iff (registers : Registers array sockets) :
    socket ∈ (array.getD []).map Pollfd.fd ↔ socket ∈ sockets := by
  rw [← registers.sockets, Multiset.mem_coe]

/-- The array that is not NULL. -/
theorem getD (registers : Registers array sockets) : Registers (some (array.getD [])) sockets :=
  ⟨registers.sorted, registers.sockets⟩

theorem consistent_iff {added : Finset Int} (registers : Registers array sockets)
    (count : nfds.toNat = sockets.card) :
    ArrayConsistent array nfds added ↔ ∀ socket, socket ∈ sockets ↔ socket ∈ added := by
  constructor
  · intro consistent socket
    rw [← registers.mem_iff]
    exact consistent.same socket
  · intro same
    refine ⟨registers.sorted, registers.length.trans count.symm, fun socket => ?_⟩
    rw [registers.mem_iff]
    exact same socket

end Registers

theorem cmpfds_nonpos (p1 p2 : Pollfd) : cmpfds p1 p2 ≤ 0 ↔ p1.fd ≤ p2.fd := by
  unfold cmpfds
  split <;> [omega; split] <;> omega

theorem cmpsockfds_eq_zero (p : Pollfd) : cmpsockfds socket p = 0 ↔ p.fd = socket := by
  unfold cmpsockfds
  split <;> [omega; split] <;> omega

/-- A sorted array can be searched. -/
theorem ascends (socket : Int) {array : List Pollfd}
    (sorted : (array.map Pollfd.fd).Pairwise (· ≤ ·)) :
    Ascends (cmpsockfds socket) array := by
  refine (List.pairwise_map.mp sorted).imp fun {x y} le => ?_
  unfold cmpsockfds
  split <;> split <;> (try split) <;> (try split) <;> omega

/-- A longer array. -/
theorem resize_succ {unset : Pollfd} {n : Nat} (length : (array.getD []).length = n) :
    resize unset array (n + 1) = array.getD [] ++ [unset] := by
  rw [resize, List.take_of_length_le (by omega), length, Nat.add_sub_cancel_left]
  rfl

/-- The last element is set. -/
theorem change_last (front : List Pollfd) (last : Pollfd) (f : Pollfd → Pollfd) :
    change (front ++ [last]) front.length f = some (front ++ [f last]) := by
  rw [change, if_pos (by simp)]
  congr 1
  induction front with
  | nil => rfl
  | cons fd front ih => exact congrArg (fd :: ·) ih

/-- A socket is added to an array. -/
theorem addFd_spec (unset : Pollfd) (events : UInt16) (socket : Int)
    (registers : Registers array sockets) (count : nfds.toNat = sockets.card + 1) :
    ∃ array', addFd unset events socket nfds array = some array' ∧ Registers (some array')
      (socket ::ₘ sockets) := by
  have length := registers.length
  have last : (nfds - 1).toNat = (array.getD []).length := by
    have isPositive : 1 ≤ nfds :=
      UInt32.le_iff_toNat_le.mpr (by rw [count]; exact Nat.le_add_left 1 _)
    rw [UInt32.toNat_sub_of_le nfds 1 isPositive, count, length]
    rfl
  let new : Pollfd := { unset with fd := socket, events := events }
  have longer : (array.getD [] ++ [new]).length = nfds.toNat := by
    rw [List.length_append, List.length_singleton, length, count]
  have total (x y : Pollfd) : cmpfds x y ≤ 0 ∨ cmpfds y x ≤ 0 := by
    rw [cmpfds_nonpos, cmpfds_nonpos]
    omega
  have trans (x y z : Pollfd) : cmpfds x y ≤ 0 → cmpfds y z ≤ 0 → cmpfds x z ≤ 0 := by
    rw [cmpfds_nonpos, cmpfds_nonpos, cmpfds_nonpos]
    omega
  rcases Arrays.qsort_spec (array.getD [] ++ [new]) total trans with
    ⟨sorted, isSorted, perm, ascending⟩
  refine ⟨sorted, ?_, ?_, ?_⟩
  · rw [addFd, last, ← longer, List.length_append, List.length_singleton,
      resize_succ rfl, change_last]
    dsimp only [Option.bind_eq_bind, Option.bind_some]
    rw [change_last, ← isSorted, List.length_append, List.length_singleton]
    rfl
  · exact List.pairwise_map.mpr (ascending.imp fun {x y} => (cmpfds_nonpos x y).mp)
  · have perm' := perm.map Pollfd.fd
    rw [Option.getD_some, Multiset.coe_eq_coe.mpr perm', List.map_append, ← Multiset.coe_add,
      registers.sockets,
      add_comm]
    rfl

/-- The socket of an element is removed from an array. -/
theorem removeFd_spec {array : List Pollfd} {i : Nat} {fd : Pollfd}
    (registers : Registers (some array) sockets) (isThere : array[i]? = some fd)
    (count : nfds.toNat + 1 = sockets.card) :
    ∃ array', removeFd array i nfds = some array' ∧ Registers array' (sockets.erase fd.fd) := by
  rcases List.getElem?_eq_some_iff.mp isThere with ⟨inside, isFd⟩
  have length : array.length = nfds.toNat + 1 := registers.length.trans count.symm
  have erased : Registers (some (array.eraseIdx i)) (sockets.erase fd.fd) := by
    refine ⟨?_, ?_⟩
    · exact registers.sorted.sublist ((List.eraseIdx_sublist array i).map Pollfd.fd)
    · have perm := (List.getElem_cons_eraseIdx_perm inside).map Pollfd.fd
      rw [isFd] at perm
      have whole := Multiset.coe_eq_coe.mpr perm
      rw [List.map_cons, ← Multiset.cons_coe] at whole
      rw [← registers.sockets, Option.getD_some, Option.getD_some, ← whole,
        Multiset.erase_cons_head]
  unfold removeFd
  split
  case isTrue isZero =>
    -- the only element
    subst isZero
    have single : array.length = 1 := length
    have empty : array.eraseIdx i = [] := by
      rw [← List.length_eq_zero_iff, List.length_eraseIdx_of_lt inside, single]
    rw [empty] at erased
    exact ⟨none, rfl, erased.sorted, erased.sockets⟩
  case isFalse =>
    by_cases isLast : i = nfds.toNat
    · refine ⟨some (array.take nfds.toNat), ?_, ?_⟩
      · rw [if_neg (not_not.mpr isLast)]
        rfl
      · have taken : array.take nfds.toNat = array.eraseIdx i := by
          rw [List.eraseIdx_eq_take_drop_succ, isLast, List.drop_of_length_le (by omega),
            List.append_nil]
        rw [taken]
        exact erased
    · rcases Arrays.memmove_eraseIdx inside with ⟨moved, isMoved, isTaken⟩
      rw [length] at isMoved isTaken
      refine ⟨some (moved.take nfds.toNat), ?_, ?_⟩
      · rw [if_pos isLast, ← Nat.add_sub_cancel nfds.toNat 1, isMoved]
        rfl
      · rw [Nat.add_sub_cancel] at isTaken
        rw [isTaken]
        exact erased

/-- A socket is searched in an array. -/
theorem Registers.bsearch {n : Nat} (socket : Int) (registers : Registers array sockets)
    (count : n = sockets.card) :
    (∃ i fd, Arrays.bsearch (cmpsockfds socket) (array.getD []) n = some (some i) ∧
        (array.getD [])[i]? = some fd ∧ fd.fd = socket) ∨
      Arrays.bsearch (cmpsockfds socket) (array.getD []) n = some none ∧ socket ∉ sockets := by
  rw [count, ← registers.length]
  rcases bsearch_spec (ascends socket registers.sorted) with ⟨i, fd, found, isThere, equal⟩
    | ⟨found, other⟩
  · exact .inl ⟨i, fd, found, isThere, (cmpsockfds_eq_zero fd).mp equal⟩
  · refine .inr ⟨found, fun mem => ?_⟩
    rcases List.mem_map.mp (registers.mem_iff.mpr mem) with ⟨fd, isThere, equal⟩
    exact other fd isThere ((cmpsockfds_eq_zero fd).mpr equal)

end Arrays

section Calls

variable {mod_s : PollTable} {registered : Multiset Int} {socket : Int}

/-- Both arrays have these sockets. -/
structure Represents (mod_s : PollTable) (registered : Multiset Int) : Prop where
  nfds : mod_s.nfds.toNat = registered.card
  fds_read : Registers mod_s.fds_read registered
  fds_write : Registers mod_s.fds_write registered

theorem represents_initial : Represents initial 0 :=
  ⟨rfl, ⟨.nil, rfl⟩, ⟨.nil, rfl⟩⟩

/-- A socket is added. -/
theorem addSocket_spec (unsetRead unsetWrite : Pollfd) (nonblocking newSd : Int)
    (represents : Represents mod_s registered) (room : registered.card + 1 < 4294967296) :
    ∃ mod_s', addSocket unsetRead unsetWrite nonblocking newSd mod_s = some (nonblocking, mod_s') ∧
      Represents mod_s' (newSd ::ₘ registered) := by
  have count : (mod_s.nfds + 1).toNat = registered.card + 1 := by
    rw [UInt32.toNat_add, represents.nfds]
    exact Nat.mod_eq_of_lt room
  rcases addFd_spec unsetRead (POLLIN ||| POLLNVAL) newSd represents.fds_read count with
    ⟨fds_read, isRead, read⟩
  rcases addFd_spec unsetWrite POLLOUT newSd represents.fds_write count with
    ⟨fds_write, isWrite, write⟩
  refine ⟨⟨mod_s.nfds + 1, some fds_read, some fds_write⟩, ?_, ?_, read, write⟩
  · rw [addSocket, isRead, isWrite]
    rfl
  · rw [Multiset.card_cons]
    exact count

/-- The counter has no room. -/
theorem addSocket_full (unsetRead unsetWrite : Pollfd) (nonblocking newSd : Int)
    (represents : Represents mod_s registered) (full : registered.card + 1 = 4294967296) :
    addSocket unsetRead unsetWrite nonblocking newSd mod_s = none := by
  have isZero : mod_s.nfds + 1 = 0 := by
    rw [← UInt32.toNat_inj, UInt32.toNat_add, represents.nfds]
    change (registered.card + 1) % 4294967296 = 0
    rw [full]
  have empty : resize unsetRead mod_s.fds_read (0 : UInt32).toNat = [] := by
    rw [resize]
    simp
  rw [addSocket, isZero, addFd, empty]
  rfl

/-- No socket is registered. -/
theorem close_zero (represents : Represents mod_s 0) : PollTable.close socket mod_s =
    some (0, mod_s) :=
  if_pos (UInt32.toNat_inj.mp represents.nfds)

theorem Represents.nfds_ne (represents : Represents mod_s registered) (other : registered ≠ 0) :
    mod_s.nfds ≠ 0 := by
  intro isZero
  have none : registered.card = 0 := by rw [← represents.nfds, isZero]; rfl
  exact other (Multiset.card_eq_zero.mp none)

/-- A registered socket is closed. -/
theorem close_mem (represents : Represents mod_s registered) (mem : socket ∈ registered) :
    ∃ mod_s', PollTable.close socket mod_s = some (0, mod_s') ∧
      Represents mod_s' (registered.erase socket) := by
  have other : registered ≠ 0 := by
    rintro rfl
    exact Multiset.notMem_zero socket mem
  have nonzero := represents.nfds_ne other
  have isPositive : 1 ≤ mod_s.nfds := by
    rw [UInt32.le_iff_toNat_le]
    exact Nat.one_le_iff_ne_zero.mpr fun isZero => nonzero (UInt32.toNat_inj.mp isZero)
  have count : (mod_s.nfds - 1).toNat + 1 = registered.card := by
    rw [UInt32.toNat_sub_of_le _ _ isPositive, ← represents.nfds]
    exact Nat.sub_add_cancel (UInt32.le_iff_toNat_le.mp isPositive)
  have again : mod_s.nfds - 1 + 1 = mod_s.nfds := by
    rw [UInt32.sub_add_cancel]
  rcases represents.fds_read.bsearch socket represents.nfds with
    ⟨i, fd, found, isThere, rfl⟩ | ⟨-, notMem⟩
  case inr => exact absurd mem notMem
  rcases represents.fds_write.bsearch fd.fd represents.nfds with
    ⟨j, fd', found', isThere', equal⟩ | ⟨-, notMem⟩
  case inr => exact absurd mem notMem
  rcases removeFd_spec represents.fds_read.getD isThere count with ⟨fds_read, isRead, read⟩
  rcases removeFd_spec represents.fds_write.getD isThere' count with
    ⟨fds_write, isWrite, write⟩
  rw [equal] at write
  refine ⟨⟨mod_s.nfds - 1, fds_read, fds_write⟩, ?_, ?_, read, write⟩
  · rw [PollTable.close, if_neg nonzero, found]
    dsimp only [Option.bind_eq_bind, Option.bind_some]
    rw [isRead]
    dsimp only [Option.bind_eq_bind, Option.bind_some, Option.pure_def]
    rw [again, found']
    change ((removeFd _ _ _).bind _) = _
    rw [isWrite]
    rfl
  · rw [Multiset.card_erase_of_mem mem, ← count]
    rfl

/-- A socket that is not registered is closed. The second search asks for one element more than
there is. -/
theorem close_notMem (represents : Represents mod_s registered) (notMem : socket ∉ registered)
    (other : registered ≠ 0) :
    PollTable.close socket mod_s =
      if registered.card + 1 = 4294967296 then some (0, mod_s) else none := by
  rcases represents.fds_read.bsearch socket represents.nfds with
    ⟨i, fd, -, isThere, rfl⟩ | ⟨found, -⟩
  case inl =>
    rcases List.getElem?_eq_some_iff.mp isThere with ⟨inside, rfl⟩
    exact absurd (represents.fds_read.mem_iff.mp (List.mem_map_of_mem (List.getElem_mem inside)))
      notMem
  have count : (mod_s.nfds + 1).toNat = (registered.card + 1) % 4294967296 := by
    rw [UInt32.toNat_add, represents.nfds]
    rfl
  rw [PollTable.close, if_neg (represents.nfds_ne other), found]
  dsimp only [Option.bind_eq_bind, Option.bind_some]
  rw [count]
  split
  case isTrue full =>
    rw [full]
    rfl
  case isFalse notFull =>
    have small := mod_s.nfds.toNat_lt
    rw [represents.nfds] at small
    rw [Nat.mod_eq_of_lt (by omega), bsearch, if_neg]
    · rfl
    · rw [represents.fds_write.length]
      exact Nat.not_succ_le_self _

end Calls

section Sessions

variable {session : Session} {call : Call}

/-- What the arrays have is what is registered. -/
def Session.Tracks (session : Session) : Prop :=
  ∀ mod_s, session.mod_s = some mod_s → Represents mod_s session.registered

theorem tracks_start : start.Tracks := by
  rintro mod_s isThere
  cases isThere
  exact represents_initial

/-- What the arrays have is what is added and not closed. -/
theorem consistent_iff {mod_s : PollTable} (represents : Represents mod_s session.registered)
    (isThere : session.mod_s = some mod_s) :
    session.Consistent ↔ ∀ socket, socket ∈ session.registered ↔ socket ∈ session.sockets := by
  constructor
  · rintro ⟨mod_s', isThere', read, -⟩
    cases isThere.symm.trans isThere'
    exact (represents.fds_read.consistent_iff represents.nfds).mp read
  · intro same
    exact ⟨mod_s, isThere, (represents.fds_read.consistent_iff represents.nfds).mpr same,
      (represents.fds_write.consistent_iff represents.nfds).mpr same⟩

/-- A call keeps it. -/
theorem Session.Tracks.step (tracks : session.Tracks) (call : Call) :
    (session.step call).Tracks := by
  intro mod_s isThere
  rcases Option.bind_eq_some_iff.mp isThere with ⟨before, isBefore, performed⟩
  have represents := tracks before isBefore
  rcases Option.map_eq_some_iff.mp performed with ⟨result, isResult, rfl⟩
  cases call with
  | add unsetRead unsetWrite nonblocking newSd =>
      have small := before.nfds.toNat_lt
      rw [represents.nfds] at small
      rcases Nat.lt_or_eq_of_le (Nat.succ_le_of_lt small) with room | full
      · rcases addSocket_spec unsetRead unsetWrite nonblocking newSd represents room with
          ⟨after, isAdded, represents'⟩
        cases isResult.symm.trans isAdded
        exact represents'
      · cases isResult.symm.trans
          (addSocket_full unsetRead unsetWrite nonblocking newSd represents full)
  | close socket =>
      by_cases mem : socket ∈ session.registered
      · rcases close_mem represents mem with ⟨after, isClosed, represents'⟩
        cases isResult.symm.trans isClosed
        exact represents'
      · have same : (session.step (.close socket)).registered = session.registered :=
          Multiset.erase_of_notMem mem
        rw [same]
        have isClosed : PollTable.close socket before = some result := isResult
        by_cases none : session.registered = 0
        · rw [none] at represents ⊢
          rw [close_zero represents] at isClosed
          cases isClosed
          exact represents
        · rw [close_notMem represents mem none] at isClosed
          split at isClosed
          · cases isClosed
            exact represents
          · cases isClosed

/-- A registered socket is gone when it was registered once. -/
theorem erase_iff {socket : Int}
    (same : ∀ other, other ∈ session.registered ↔ other ∈ session.sockets)
    (mem : socket ∈ session.registered) :
    (∀ other, other ∈ session.registered.erase socket ↔ other ∈ session.sockets.erase socket) ↔
      session.Orderly (.close socket) := by
  have isPositive := Multiset.count_pos.mpr mem
  constructor
  · intro erased
    have gone : socket ∉ session.registered.erase socket := by
      rw [erased]
      exact Finset.notMem_erase socket session.sockets
    have none := Multiset.count_eq_zero.mpr gone
    rw [Multiset.count_erase_self] at none
    exact .inr (.inl (by omega))
  · rintro (none | once | ⟨none, -⟩) other
    · rw [none] at mem
      exact absurd mem (Multiset.notMem_zero socket)
    · by_cases isSocket : other = socket
      · subst isSocket
        have gone : other ∉ session.registered.erase other := by
          rw [← Multiset.count_eq_zero, Multiset.count_erase_self, once]
        exact ⟨fun mem => absurd mem gone,
          fun mem => absurd mem (Finset.notMem_erase other session.sockets)⟩
      · rw [Multiset.mem_erase_of_ne isSocket, Finset.mem_erase, same]
        exact ⟨fun mem => ⟨isSocket, mem⟩, And.right⟩
    · omega

/-- What a call does to consistent arrays. -/
theorem Session.consistent_step_iff (tracks : session.Tracks)
    (consistent : session.Consistent) (call : Call) : (session.step call).Consistent ↔
    session.Orderly call := by
  have after := tracks.step call
  rcases consistent with ⟨mod_s, isThere, read, write⟩
  have represents := tracks mod_s isThere
  have same := (represents.fds_read.consistent_iff represents.nfds).mp read
  have fails : call.perform mod_s = none → ¬(session.step call).Consistent := by
    rintro none ⟨mod_s', isThere', -⟩
    have isNone : (session.step call).mod_s = .none := by
      rw [Session.step, isThere, Option.bind_some, none]
      rfl
    cases isNone.symm.trans isThere'
  have succeeds {result : Int × PollTable} : call.perform mod_s = some result →
      ((session.step call).Consistent ↔
        ∀ socket, socket ∈ call.register session.registered ↔
          socket ∈ call.apply session.sockets) := by
    intro isResult
    have isThere' : (session.step call).mod_s = some result.2 := by
      rw [Session.step, isThere, Option.bind_some, isResult]
      rfl
    exact consistent_iff (after result.2 isThere') isThere'
  cases call with
  | add unsetRead unsetWrite nonblocking newSd =>
      by_cases room : session.registered.card + 1 < 4294967296
      · rcases addSocket_spec unsetRead unsetWrite nonblocking newSd represents room with
          ⟨mod_s', isAdded, -⟩
        refine ⟨fun _ => room, fun _ => (succeeds isAdded).mpr fun socket => ?_⟩
        rw [Call.register, Call.apply, Multiset.mem_cons, Finset.mem_insert, same]
      · have small := mod_s.nfds.toNat_lt
        rw [represents.nfds] at small
        have full := addSocket_full unsetRead unsetWrite nonblocking newSd represents (by omega)
        exact ⟨fun consistent => absurd consistent (fails full),
          fun isOrderly => absurd isOrderly room⟩
  | close socket =>
      by_cases mem : socket ∈ session.registered
      · rcases close_mem represents mem with ⟨mod_s', isClosed, -⟩
        rw [succeeds isClosed]
        exact erase_iff same mem
      · have unchanged : ∀ other,
            other ∈ session.registered.erase socket ↔ other ∈ session.sockets.erase socket := by
          rw [Multiset.erase_of_notMem mem,
            Finset.erase_eq_of_notMem fun added => mem ((same socket).mpr added)]
          exact same
        by_cases none : session.registered = 0
        · rw [none] at represents
          exact ⟨fun _ => .inl none, fun _ => (succeeds (close_zero represents)).mpr unchanged⟩
        · have isClosed := close_notMem represents mem none
          split at isClosed
          case isTrue full =>
            have count := Multiset.count_eq_zero.mpr mem
            exact ⟨fun _ => .inr (.inr ⟨count, full⟩), fun _ => (succeeds isClosed).mpr unchanged⟩
          case isFalse notFull =>
            refine ⟨fun consistent => absurd consistent (fails isClosed), ?_⟩
            rintro (isNone | once | ⟨-, full⟩)
            · exact absurd isNone none
            · exact absurd (Multiset.count_pos.mp (by omega)) mem
            · exact absurd full notFull

/-- The two arrays and their counter are what they should be after every call exactly when a socket
is closed where it is registered once or no socket is registered, and the counter has room for each
socket that is added. -/
theorem consistent_iff_orderly (calls : List Call) :
    (∀ front back : List Call, calls = front ++ back →
      (Machine.run Session.step start front).Consistent) ↔
      Machine.Guarded Session.step Session.Orderly start calls := by
  have initially : start.Consistent := by
    refine (consistent_iff represents_initial rfl).mpr fun socket => ?_
    exact ⟨fun mem => absurd mem (Multiset.notMem_zero socket),
      fun mem => absurd mem (Finset.notMem_empty socket)⟩
  have keeps (session : Session) (call : Call) (tracks : session.Tracks) :
    (session.step call).Tracks :=
    tracks.step call
  have stepped (session : Session) (call : Call) (tracks : session.Tracks)
    (consistent : session.Consistent) :
      (session.step call).Consistent ↔ session.Orderly call :=
    Session.consistent_step_iff tracks consistent call
  exact Machine.always_iff_guarded keeps stepped tracks_start initially calls

/-- Socket 5 is added, and socket 7 is closed: the second search is in two elements. -/
theorem not_consistent_unregistered :
    ¬(Machine.run Session.step start [.add ⟨0, 0, 0⟩ ⟨0, 0, 0⟩ 0 5, .close 7]).Consistent := by
  rintro ⟨mod_s, isThere, -⟩
  have none : (Machine.run Session.step start [.add ⟨0, 0, 0⟩ ⟨0, 0, 0⟩ 0 5, .close 7]).mod_s =
    none := by decide
  cases none.symm.trans isThere

end Sessions

end PollTable

end Paho
