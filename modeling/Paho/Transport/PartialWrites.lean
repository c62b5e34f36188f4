import Mathlib.Algebra.GroupWithZero.Nat
import Paho.Library.Run
import Paho.Packet.Types

/-!
# Partial writes

`Socket_putdatas`, which writes the buffers of a packet and keeps them in the list of
`SocketBuffer_pendingWrite` when the socket does not take all of them, and `Socket_continueWrite`.
The allocations succeed, and there is no TLS.
-/

namespace Paho

open Machine

namespace PartialWrites

/-- The buffers of a packet, each with the flag whether it needs to be freed. There is room for five
in `iovecs`, of which the first is for `buf0`. -/
structure PacketBuffers where
  buf0 : Bytes
  buffers : List (Bytes × Bool)
  count_le : buffers.length ≤ 4

/-- A pointer into one of the buffers. -/
structure Pointer where
  buffer : Nat
  offset : Nat
  deriving DecidableEq, Repr

/-- `iobuf`. A base that was freed is `NULL`. -/
structure Iobuf where
  iov_base : Option Pointer
  iov_len : Nat
  deriving DecidableEq, Repr

/-- `pending_writes`, without the socket. -/
structure PendingWrite where
  bytes : Nat
  total : Nat
  iovecs : List Iobuf
  frees : List Bool
  deriving DecidableEq, Repr

/-- What `writev` can come to: the kernel takes so many bytes, or it would block, or it fails. -/
inductive Writev where
  | accepted (n : Nat)
  | wouldBlock
  | failed
  deriving DecidableEq, Repr

/-- The kernel takes no more than is offered, and never more than the largest multiple of its page
size in an `int`. -/
def Writev.Within (offered : Nat) : Writev → Prop
  | .accepted n => n ≤ offered ∧ n ≤ 2147479552
  | _ => True

instance (offered : Nat) : (answer : Writev) → Decidable (answer.Within offered)
  | .accepted _ => inferInstanceAs (Decidable (_ ∧ _))
  | .wouldBlock => isTrue trivial
  | .failed => isTrue trivial

/-- `Socket_writev`: the number of bytes, which goes through an `int` into an `unsigned long`, or no
value for `SOCKET_ERROR`. -/
def writev : Writev → Option Nat
  | .accepted n =>
      let rc := (Int32.ofNat n).toInt
      if rc = -1 then none else some (rc % 18446744073709551616).toNat
  | .wouldBlock => some 0
  | .failed => none

namespace PacketBuffers

variable (packet : PacketBuffers)

/-- All buffers; that of the header is freed if the write is interrupted. -/
def all : List (Bytes × Bool) :=
  (packet.buf0, true) :: packet.buffers

def total : Nat :=
  (packet.all.map fun buffer => buffer.1.length).sum

def iovecs : List Iobuf :=
  packet.all.zipIdx.map fun (buffer, i) => ⟨some ⟨i, 0⟩, buffer.1.length⟩

def frees1 : List Bool :=
  packet.all.map Prod.snd

/-- The bytes of a vector, in the memory of the packet. -/
def bytesAt (iov : Iobuf) : Bytes :=
  match iov.iov_base with
  | none => []
  | some base => (((packet.all.map Prod.fst)[base.buffer]?.getD []).drop
      base.offset).take iov.iov_len

/-- The bytes of all vectors. -/
def gather (iovecs : List Iobuf) : Bytes :=
  iovecs.flatMap packet.bytesAt

/-- What is to be sent. -/
def contents : Bytes :=
  packet.all.flatMap Prod.fst

/-- The places of the buffers that are marked for freeing. -/
def marked : List Nat :=
  (packet.all.zipIdx.filter fun buffer => buffer.1.2).map Prod.snd

end PacketBuffers

/-- `Socket_putdatas`, and what it leaves in `writes`. -/
def putdatas (noPendingWrites : Bool) (packet : PacketBuffers) (answer : Writev) :
    CompletionCode × Option PendingWrite :=
  if noPendingWrites then
    match writev answer with
    | none => (.socketError, none)
    | some bytes =>
        if bytes = packet.total then (.complete, none)
        else
          (.interrupted,
            some
              { bytes := bytes
                total := packet.total
                iovecs := packet.iovecs
                frees := packet.frees1 })
  else (.socketError, none)

/-- The loop of `Socket_continueWrite` over the vectors behind `curbuflen` bytes: what is added to
`iovecs1`. -/
def remaining (bytes : Nat) : Nat → List Iobuf → List Iobuf
  | _, [] => []
  | curbuflen, iov :: rest =>
      let others := remaining bytes (curbuflen + iov.iov_len) rest
      if bytes ≤ curbuflen then iov :: others
      else if bytes < curbuflen + iov.iov_len then
        let offset := bytes - curbuflen
        { iov_base := iov.iov_base.map fun base => { base with offset := base.offset + offset }
          iov_len := iov.iov_len - offset } :: others
      else others

namespace PendingWrite

/-- `iovecs1`. -/
def iovecs1 (pw : PendingWrite) : List Iobuf :=
  remaining pw.bytes 0 pw.iovecs

/-- The buffers that are freed. -/
def freed (pw : PendingWrite) : List Nat :=
  (pw.iovecs.zip pw.frees).filterMap fun (iov, free) =>
    if free then iov.iov_base.map Pointer.buffer else none

/-- The vectors with the freed bases set to `NULL`. -/
def cleared (pw : PendingWrite) : PendingWrite :=
  { pw with
    iovecs := List.zipWith (fun iov free => if free then { iov with iov_base := none } else iov)
      pw.iovecs pw.frees }

end PendingWrite

/-- `Socket_continueWrite`: its return code (1 is complete, 0 is not), the pending write and the
buffers that it has freed. -/
def continueWrite (pw : PendingWrite) (answer : Writev) : Int × PendingWrite × List Nat :=
  match writev answer with
  | none => (-1, pw.cleared, pw.freed)
  | some bytes =>
      let pw := { pw with bytes := pw.bytes + bytes }
      if pw.bytes = pw.total then (1, pw.cleared, pw.freed) else (0, pw, [])

/-- What has come of a packet. -/
inductive Outcome where
  | writing
  | complete
  | failed
  deriving DecidableEq, Repr

/-- A packet that is being sent: the element of `writes`, the bytes that the kernel has accepted,
the buffers that were freed in their order, and what was reported. -/
structure Sending where
  pending : Option PendingWrite
  accepted : Bytes
  freed : List Nat
  outcome : Outcome
  deriving DecidableEq, Repr

/-- What the kernel accepts of these bytes. -/
def taken (answer : Writev) (offered : Bytes) : Bytes :=
  match answer with
  | .accepted n => offered.take n
  | _ => []

/-- The first write. `MQTTPacket_sends` and its callers free the buffers that are marked, unless it
is interrupted. -/
def start (packet : PacketBuffers) (answer : Writev) : Sending :=
  let (rc, pending) := putdatas true packet answer
  { pending := pending
    accepted := taken answer (packet.gather packet.iovecs)
    freed := if rc = .interrupted then [] else packet.marked
    outcome :=
      match rc with
      | .complete => .complete
      | .interrupted => .writing
      | .socketError => .failed }

/-- The socket is ready for writing. `Socket_continueWrites` calls `Socket_continueWrite` as long as
the write is pending, and removes it for any return code but 0. -/
def continueWrites (packet : PacketBuffers) (s : Sending) (answer : Writev) : Sending :=
  match s.pending with
  | none => s
  | some pw =>
      let (rc, pw', freed) := continueWrite pw answer
      { pending := if rc = 0 then some pw' else none
        accepted := s.accepted ++ taken answer (packet.gather pw.iovecs1)
        freed := s.freed ++ freed
        outcome := if rc = 0 then .writing else if rc = 1 then .complete else .failed }

/-- What `Socket_continueWrite` offers to the kernel. -/
def Sending.offered (s : Sending) : Nat :=
  match s.pending with
  | none => 0
  | some pw => (pw.iovecs1.map Iobuf.iov_len).sum

section Vectors

variable {packet : PacketBuffers} {bytes : Nat}

/-- The base of a vector points to as many bytes as its length says. -/
def Valid (packet : PacketBuffers) (iov : Iobuf) : Prop :=
  (packet.bytesAt iov).length = iov.iov_len

theorem bytesAt_iovecs : packet.iovecs.map packet.bytesAt = packet.all.map Prod.fst := by
  apply List.ext_getElem
  · simp [PacketBuffers.iovecs]
  · intro i inside insideToo
    have inAll : i < packet.all.length := by simpa using insideToo
    simp [PacketBuffers.iovecs, PacketBuffers.bytesAt, inAll]

theorem gather_iovecs : packet.gather packet.iovecs = packet.contents := by
  have bytes := congrArg List.flatten (@bytesAt_iovecs packet)
  simpa only [PacketBuffers.gather, PacketBuffers.contents, List.flatMap_def] using bytes

theorem length_contents : packet.contents.length = packet.total := by
  rw [PacketBuffers.contents, PacketBuffers.total, List.length_flatMap]

theorem valid_iovecs : ∀ iov ∈ packet.iovecs, Valid packet iov := by
  intro iov mem
  rcases List.mem_map.mp mem with ⟨⟨buffer, i⟩, atPlace, rfl⟩
  have isBuffer := List.mk_mem_zipIdx_iff_getElem?.mp atPlace
  simp [Valid, PacketBuffers.bytesAt, isBuffer]

/-- The rest of a vector has the bytes behind its first ones. -/
theorem bytesAt_moved (iov : Iobuf) (offset : Nat) :
    packet.bytesAt
        { iov_base := iov.iov_base.map fun base => { base with offset := base.offset + offset }
          iov_len := iov.iov_len - offset } = (packet.bytesAt iov).drop offset := by
  cases isBase : iov.iov_base with
  | none => simp [PacketBuffers.bytesAt, isBase]
  | some base =>
      simp only [PacketBuffers.bytesAt, isBase, Option.map_some]
      rw [List.drop_take, List.drop_drop]

/-- The vectors that are offered again have the bytes behind those that were accepted. -/
theorem gather_remaining {iovecs : List Iobuf} (valid : ∀ iov ∈ iovecs, Valid packet iov)
    (curbuflen : Nat) :
    packet.gather (remaining bytes curbuflen iovecs) =
      (packet.gather iovecs).drop (bytes - curbuflen) := by
  induction iovecs generalizing curbuflen with
  | nil => simp [remaining, PacketBuffers.gather]
  | cons iov rest ih =>
      have length : (packet.bytesAt iov).length = iov.iov_len := valid iov List.mem_cons_self
      have others := ih (fun other mem => valid other (List.mem_cons_of_mem _ mem))
        (curbuflen + iov.iov_len)
      have gather_cons (first : Iobuf) (iovecs : List Iobuf) :
          packet.gather (first :: iovecs) = packet.bytesAt first ++ packet.gather iovecs :=
        List.flatMap_cons
      unfold remaining
      dsimp only
      split
      next notWritten =>
        have all : bytes - curbuflen = 0 := by omega
        have allRest : bytes - (curbuflen + iov.iov_len) = 0 := by omega
        rw [gather_cons, others, gather_cons, all, allRest]
        rfl
      next written =>
        split
        next inTheMiddle =>
          have allRest : bytes - (curbuflen + iov.iov_len) = 0 := by omega
          rw [gather_cons, others, gather_cons, bytesAt_moved, allRest,
            List.drop_append_of_le_length (by omega)]
          rfl
        next whole =>
          have behind : bytes - curbuflen =
              (packet.bytesAt iov).length + (bytes - (curbuflen + iov.iov_len)) := by
            omega
          rw [others, gather_cons, behind, ← List.drop_drop, List.drop_left]

/-- As many bytes are offered as the lengths of the vectors say. -/
theorem length_gather {iovecs : List Iobuf} (valid : ∀ iov ∈ iovecs, Valid packet iov) :
    (packet.gather iovecs).length = (iovecs.map Iobuf.iov_len).sum := by
  rw [PacketBuffers.gather, List.length_flatMap]
  exact congrArg List.sum (List.map_congr_left valid)

theorem valid_remaining {iovecs : List Iobuf} (valid : ∀ iov ∈ iovecs, Valid packet iov)
    (curbuflen : Nat) : ∀ iov ∈ remaining bytes curbuflen iovecs, Valid packet iov := by
  induction iovecs generalizing curbuflen with
  | nil => simp [remaining]
  | cons iov rest ih =>
      have first : Valid packet iov := valid iov List.mem_cons_self
      have others := ih (fun other mem => valid other (List.mem_cons_of_mem _ mem))
        (curbuflen + iov.iov_len)
      unfold remaining
      dsimp only
      split
      · exact List.forall_mem_cons.mpr ⟨first, others⟩
      · split
        · refine List.forall_mem_cons.mpr ⟨?_, others⟩
          rw [Valid, bytesAt_moved, List.length_drop, first]
        · exact others

/-- A buffer is among those that are freed once, if it is marked, or not at all. -/
theorem count_marked (packet : PacketBuffers) (i : Nat) :
    packet.marked.count i = if packet.frees1[i]? = some true then 1 else 0 := by
  have nodup : packet.marked.Nodup := by
    have all : (packet.all.zipIdx.map Prod.snd).Nodup := by
      rw [List.zipIdx_map_snd]
      exact List.nodup_range'
    exact all.sublist (List.Sublist.map _ List.filter_sublist)
  have mem : i ∈ packet.marked ↔ packet.frees1[i]? = some true := by
    simp [PacketBuffers.marked, PacketBuffers.frees1, List.mk_mem_zipIdx_iff_getElem?]
  rw [nodup.count]
  simp only [mem]

/-- The pending write of a packet of which so many bytes were accepted. -/
def pendingAt (packet : PacketBuffers) (sent : Nat) : PendingWrite :=
  ⟨sent, packet.total, packet.iovecs, packet.frees1⟩

/-- What is offered again is what was not accepted. -/
theorem gather_iovecs1 (sent : Nat) :
    packet.gather (pendingAt packet sent).iovecs1 = packet.contents.drop sent := by
  have rest := @gather_remaining packet sent _ valid_iovecs 0
  rwa [gather_iovecs] at rest

theorem sum_iovecs1 (sent : Nat) :
    ((pendingAt packet sent).iovecs1.map Iobuf.iov_len).sum = packet.total - sent := by
  have length := length_gather (@valid_remaining packet sent _ valid_iovecs 0)
  rw [← length_contents, ← List.length_drop, ← gather_iovecs1]
  exact length.symm

/-- What is freed are the buffers that are marked. -/
theorem freed_pendingAt (sent : Nat) : (pendingAt packet sent).freed = packet.marked := by
  have from_ (buffers : List (Bytes × Bool)) (k : Nat) :
      (((buffers.zipIdx k).map fun (buffer, i) => Iobuf.mk (some ⟨i, 0⟩) buffer.1.length).zip
        (buffers.map Prod.snd)).filterMap (fun (iov, free) =>
          if free then iov.iov_base.map Pointer.buffer else none) =
        ((buffers.zipIdx k).filter fun buffer => buffer.1.2).map Prod.snd := by
    induction buffers generalizing k with
    | nil => rfl
    | cons buffer buffers ih =>
        rcases buffer with ⟨bytes, free⟩
        cases free <;> simp [List.zipIdx_cons, ih]
  exact from_ packet.all 0

end Vectors

section Runs

variable {packet : PacketBuffers} {s : Sending} {answer : Writev}

/-- Where a packet can be in its sending. -/
inductive Sound (packet : PacketBuffers) : Sending → Prop
  | writing {bytes : Nat} (fewer : bytes < packet.total) :
      Sound packet
        ⟨some (pendingAt packet bytes), packet.contents.take bytes, [], .writing⟩
  | complete : Sound packet ⟨none, packet.contents, packet.marked, .complete⟩
  | failed {accepted : Bytes} (isPrefix : accepted <+: packet.contents) :
      Sound packet ⟨none, accepted, packet.marked, .failed⟩

theorem writev_within {offered : Nat} (within : answer.Within offered) :
    (answer = .failed ∧ writev answer = none) ∨
      ∃ n ≤ offered, writev answer = some n ∧
      ∀ bytes : Bytes, taken answer bytes = bytes.take n := by
  cases answer with
  | accepted n =>
      rcases within with ⟨fits, small⟩
      have rc : (Int32.ofNat n).toInt = n := Int32.toInt_ofNat_of_lt (by omega)
      refine .inr ⟨n, fits, ?_, fun bytes => rfl⟩
      simp only [writev, rc]
      rw [if_neg (by omega)]
      congr 1
      omega
  | wouldBlock => exact .inr ⟨0, Nat.zero_le _, rfl, fun bytes => rfl⟩
  | failed => exact .inl ⟨rfl, rfl⟩

theorem start_sound (within : answer.Within packet.total) : Sound packet (start packet answer) := by
  rcases writev_within within with ⟨rfl, none⟩ | ⟨n, fits, bytes, takes⟩
  · simp only [start, putdatas, none, if_true]
    exact .failed List.nil_prefix
  · by_cases whole : n = packet.total
    · have all : packet.contents.take n = packet.contents :=
        List.take_of_length_le (by rw [length_contents]; omega)
      simp only [start, putdatas, bytes, whole, if_true, takes, gather_iovecs]
      rw [← whole, all]
      exact .complete
    · simp only [start, putdatas, bytes, whole, if_true, if_false, takes, gather_iovecs]
      exact .writing (by omega)

theorem continueWrites_sound (sound : Sound packet s) (within : answer.Within s.offered) :
    Sound packet (continueWrites packet s answer) := by
  cases sound with
  | complete => exact .complete
  | failed isPrefix => exact .failed isPrefix
  | @writing sent fewer =>
      have left : answer.Within (packet.total - sent) := sum_iovecs1 sent ▸ within
      rcases writev_within left with ⟨rfl, none⟩ | ⟨n, fits, bytes, takes⟩
      · have sound := Sound.failed (List.take_prefix sent packet.contents)
        simpa [continueWrites, continueWrite, none, freed_pendingAt, taken] using sound
      · have more : packet.contents.take sent ++ (packet.contents.drop sent).take n =
            packet.contents.take (sent + n) := by
          rw [List.take_add]
        have result : continueWrite (pendingAt packet sent) answer =
            if sent + n = packet.total then
              (1, (pendingAt packet (sent + n)).cleared, packet.marked)
            else (0, pendingAt packet (sent + n), []) := by
          simp only [continueWrite, bytes, ← freed_pendingAt (sent + n)]
          rfl
        simp only [continueWrites, result, takes, gather_iovecs1, more]
        by_cases whole : sent + n = packet.total
        · have all : packet.contents.take packet.total = packet.contents :=
            List.take_of_length_le (Nat.le_of_eq length_contents)
          simp only [whole, if_true, all]
          exact .complete
        · simp only [whole, if_false]
          exact .writing (by omega)

/-- A packet fails only with a write that does. -/
theorem start_notFailed (within : answer.Within packet.total) (notFailed : answer ≠ .failed) :
    (start packet answer).outcome ≠ .failed := by
  rcases writev_within within with ⟨isFailed, -⟩ | ⟨n, -, bytes, -⟩
  · exact absurd isFailed notFailed
  · by_cases whole : n = packet.total
    · simp [start, putdatas, bytes, whole]
    · simp [start, putdatas, bytes, whole]

theorem continueWrites_notFailed (within : answer.Within s.offered) (notFailed : answer ≠ .failed)
    (before : s.outcome ≠ .failed) : (continueWrites packet s answer).outcome ≠ .failed := by
  rcases writev_within within with ⟨isFailed, -⟩ | ⟨n, -, bytes, -⟩
  · exact absurd isFailed notFailed
  · cases isPending : s.pending with
    | none => simpa [continueWrites, isPending] using before
    | some pw =>
        by_cases whole : pw.bytes + n = pw.total
        · simp [continueWrites, isPending, continueWrite, bytes, whole]
        · simp [continueWrites, isPending, continueWrite, bytes, whole]

end Runs

end PartialWrites

end Paho
