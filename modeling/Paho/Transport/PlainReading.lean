import Paho.Transport.PacketStream
import Paho.Transport.Queues

/-!
# Reading a packet from a plain socket

What a socket has of the stream is in three places: the saved header, the saved data and the
kernel. `MQTTPacket_Factory` reads them as one sequence of bytes. It takes a packet off the
front, or leaves the sequence as it is.
-/

namespace Paho

open PacketStream

/-- The header byte and a complete length field. -/
def IsHeader (header : Bytes) (n : Nat) : Prop :=
  ∃ first field, header = first :: field ∧ remainingLength field = .complete n []

theorem IsHeader.unique {header : Bytes} {n m : Nat} (isHeader : IsHeader header n)
    (other : IsHeader header m) : n = m := by
  rcases isHeader with ⟨first, field, rfl, complete⟩
  rcases other with ⟨_, _, same, complete'⟩
  injection same with _ same
  subst same
  injection complete.symm.trans complete'

namespace Sockets

/-- The header bytes `taken` of a packet were read in this call, and `rest` is what the socket has
after them. -/
structure Reading (s : Sockets) (socket : SOCKET) (taken rest : Bytes) : Prop where
  serves : s.Serves socket
  index : (s.queue socket).index = taken.length
  split : ∃ more, (s.queue socket).fixed_header = taken ++ more ∧
    rest = more ++ ((s.queue socket).buf ++ (s.kernel socket).arrived)
  /-- The saved header goes no further than a header. -/
  header : ∀ front more, (s.queue socket).fixed_header = front ++ more → more ≠ [] →
    ∀ n, ¬IsHeader front n
  /-- Data is saved behind a header only, and less than the header says. -/
  data : (s.queue socket).buf ≠ [] →
    ∃ n, IsHeader (s.queue socket).fixed_header n ∧ (s.queue socket).buf.length < n

/-- Between two calls: `stream` is what the socket has. -/
structure Waiting (s : Sockets) (socket : SOCKET) (stream : Bytes) : Prop where
  idle : s.Idle
  reading : s.Reading socket [] stream

variable {s : Sockets} {socket : SOCKET} {taken rest : Bytes}

/-- Without any queue a socket has what has arrived. -/
theorem waiting_of_noQueues (default : s.def_queue = .empty) (noQueues : s.queues = [])
    (positive : 0 < socket) : s.Waiting socket (s.kernel socket).arrived := by
  have idle : s.Idle := ⟨noQueues ▸ List.nodup_nil, default⟩
  have absent : SocketBuffer.find s socket = none := by simp [SocketBuffer.find, noQueues]
  have fresh : s.queue socket = freshQueue socket := queue_of_empty absent default positive
  refine ⟨idle, idle.serves socket, ?_, ⟨[], ?_, ?_⟩, ?_, ?_⟩
  · rw [fresh]
    rfl
  · rw [fresh]
    rfl
  · rw [fresh]
    rfl
  · rw [fresh]
    rintro front more isHeader notEmpty
    simp only [freshQueue, SocketQueue.empty] at isHeader
    exact absurd (List.append_eq_nil_iff.1 isHeader.symm).2 notEmpty
  · rw [fresh]
    exact fun notEmpty => absurd rfl notEmpty

section Recv

theorem recv_queue (received : Received) (s' : Sockets) {n : Nat}
    (result : Socket.recv s socket n = (received, s')) (other : SOCKET) :
    s'.queue other = s.queue other := by
  cases result
  rfl

theorem recv_serves (received : Received) (s' : Sockets) {n : Nat}
    (result : Socket.recv s socket n = (received, s')) (serves : s.Serves socket) :
    s'.Serves socket := by
  cases result
  exact ⟨serves.distinct, serves.default⟩

theorem recv_onlyFor (received : Received) (s' : Sockets) {n : Nat}
    (result : Socket.recv s socket n = (received, s')) : OnlyFor socket s s' := by
  intro other positive different
  cases result
  exact ⟨rfl, if_neg different⟩

/-- What `recv` returns for a socket. -/
theorem recv_spec {n : Nat} (positive : 0 < n) :
    ∃ received s', Socket.recv s socket n = (received, s') ∧
      (s'.kernel socket).peer = (s.kernel socket).peer ∧
      (((s.kernel socket).arrived = [] ∧ (s'.kernel socket).arrived = [] ∧
          received = match (s.kernel socket).peer with
            | .connected => .wouldBlock
            | .closed => .closed
            | .failed => .failed) ∨
        ((s.kernel socket).arrived ≠ [] ∧
          received = .data ((s.kernel socket).arrived.take n) ∧
          (s'.kernel socket).arrived = (s.kernel socket).arrived.drop n)) := by
  have nonzero : ¬n = 0 := Nat.ne_of_gt positive
  have kernel : (s.kernel socket).recv n =
      if (s.kernel socket).arrived = [] then
        match (s.kernel socket).peer with
        | .connected => (.wouldBlock, s.kernel socket)
        | .closed => (.closed, s.kernel socket)
        | .failed => (.failed, s.kernel socket)
      else
        (.data ((s.kernel socket).arrived.take n),
          { s.kernel socket with arrived := (s.kernel socket).arrived.drop n }) := by
    exact if_neg nonzero
  have result : Socket.recv s socket n = (((s.kernel socket).recv n).1,
      { s with
        kernel := fun other =>
          if other = socket then ((s.kernel socket).recv n).2 else s.kernel other }) := rfl
  refine ⟨_, _, result, ?_⟩
  simp only [if_true]
  rw [kernel]
  by_cases empty : (s.kernel socket).arrived = []
  · rw [if_pos empty]
    cases peer : (s.kernel socket).peer <;> simp [empty, peer]
  · rw [if_neg empty]
    exact ⟨rfl, .inr ⟨empty, rfl, rfl⟩⟩

end Recv

namespace Reading

variable (reading : s.Reading socket taken rest)

include reading

/-- A byte of the header is read. -/
theorem getch_cons (positive : 0 < socket) (notHeader : ∀ n, ¬IsHeader taken n)
    (room : taken.length ≤ 4) {c : UInt8} {rest' : Bytes} (isRest : rest = c :: rest') :
    ∃ s', Socket.getch s socket = (.complete, some c, s') ∧
      s'.Reading socket (taken ++ [c]) rest' ∧
      (s'.kernel socket).peer = (s.kernel socket).peer ∧ OnlyFor socket s s' := by
  rcases reading.split with ⟨more, saved, isSplit⟩
  cases more with
  | cons m more =>
      -- the byte was saved
      rw [isRest, List.cons_append, List.cons.injEq] at isSplit
      rcases isSplit with ⟨rfl, rfl⟩
      have next : (s.queue socket).fixed_header[(s.queue socket).index]? = some c := by
        rw [saved, reading.index, List.getElem?_append_right (Nat.le_refl _)]
        simp
      rcases getQueuedChar_of_saved reading.serves next with ⟨s', char, serves, queue, kernel, only⟩
      refine ⟨s', ?_, ?_, by rw [kernel], only⟩
      · unfold Socket.getch
        rw [char]
      · constructor
        · exact serves
        · rw [queue, List.length_append]
          exact congrArg (· + 1) reading.index
        · refine ⟨more, ?_, by rw [queue, kernel]⟩
          rw [queue]
          simpa using saved
        · rw [queue]
          exact reading.header
        · rw [queue]
          exact reading.data
  | nil =>
      -- the saved header is used up, and the byte comes from the kernel
      rw [List.append_nil] at saved
      have noData : (s.queue socket).buf = [] := by
        by_contra data
        rcases reading.data data with ⟨n, isHeader, _⟩
        exact notHeader n (saved ▸ isHeader)
      rw [isRest, List.nil_append, noData, List.nil_append] at isSplit
      have atEnd : (s.queue socket).index = (s.queue socket).fixed_header.length := by
        rw [reading.index, saved]
      have fits : (s.queue socket).index ≤ 4 := by
        rw [reading.index]
        exact room
      have ended := getQueuedChar_of_end (atEnd ▸ Nat.le_refl _) fits
      rcases @recv_spec s socket 1 Nat.one_pos with ⟨received, s', result, peer, none | some⟩
      · rw [none.1] at isSplit
        cases isSplit
      · rcases some with ⟨_, isData, arrived⟩
        rw [← isSplit] at isData arrived
        simp only [List.take_succ_cons, List.take_zero, List.drop_succ_cons, List.drop_zero]
          at isData arrived
        subst isData
        have queue := recv_queue _ s' result
        have serves := recv_serves _ s' result reading.serves
        have spec := queueChar_spec serves positive c (by rw [queue, atEnd])
          (by rw [queue]; exact fits) (by rw [queue, noData])
        rcases spec with ⟨serves', queue', kernel, only⟩
        refine ⟨SocketBuffer.queueChar s' socket c, ?_, ?_, ?_, ?_⟩
        · unfold Socket.getch
          rw [ended]
          dsimp only
          rw [result]
          rfl
        · rw [queue] at queue'
          constructor
          · exact serves'
          · rw [queue', List.length_append]
            exact congrArg (· + 1) reading.index
          · refine ⟨[], ?_, ?_⟩
            · rw [queue', saved, List.append_nil]
            · rw [queue', kernel, arrived, noData]
              rfl
          · intro front more isFront longer n isHeader
            rw [queue', saved] at isFront
            -- a proper beginning of the header with the new byte is a beginning of the old one
            rcases List.append_eq_append_iff.mp isFront with ⟨a, rfl, single⟩ | ⟨a, isTaken, _⟩
            · cases a with
              | nil =>
                  rw [List.append_nil] at isHeader
                  exact notHeader n isHeader
              | cons x a =>
                  injection single with _ tail
                  exact longer (List.append_eq_nil_iff.mp tail.symm).2
            · cases a with
              | nil =>
                  rw [List.append_nil] at isTaken
                  exact notHeader n (isTaken ▸ isHeader)
              | cons x a =>
                  exact reading.header front (x :: a) (saved.trans isTaken) (by simp) n isHeader
          · rw [queue', noData]
            exact fun data => absurd rfl data
        · rw [kernel, peer]
        · exact (recv_onlyFor _ s' result).trans only

/-- Nothing is left to read. -/
theorem getch_nil (positive : 0 < socket) (room : taken.length ≤ 4) (empty : rest = []) :
    ∃ rc s', Socket.getch s socket = (rc, none, s') ∧
      (s'.kernel socket).peer = (s.kernel socket).peer ∧ OnlyFor socket s s' ∧
      if (s.kernel socket).peer = .connected then
        rc = .interrupted ∧ s'.Waiting socket taken
      else rc = .socketError ∧ s'.Serves socket := by
  rcases reading.split with ⟨more, saved, isSplit⟩
  rw [empty] at isSplit
  rcases List.append_eq_nil_iff.mp isSplit.symm with ⟨rfl, nothing⟩
  rcases List.append_eq_nil_iff.mp nothing with ⟨noData, noMore⟩
  rw [List.append_nil] at saved
  have atEnd : (s.queue socket).fixed_header.length ≤ (s.queue socket).index := by
    apply Nat.le_of_eq
    rw [reading.index, saved]
  have ended := getQueuedChar_of_end atEnd (by rw [reading.index]; exact room)
  rcases @recv_spec s socket 1 Nat.one_pos with ⟨received, s', result, peer, none | some⟩
  · rcases none with ⟨_, arrived, isReceived⟩
    have queue := recv_queue _ s' result
    have serves := recv_serves _ s' result reading.serves
    have getch : Socket.getch s socket = Socket.receivedChar socket s' received := by
      unfold Socket.getch
      rw [ended]
      dsimp only
      rw [result]
    cases isPeer : (s.kernel socket).peer with
    | connected =>
        rw [isPeer] at isReceived
        subst isReceived
        rcases interrupted_spec serves positive [] with ⟨idle, queue', kernel, only⟩
        refine ⟨_, _, getch, ?_, (recv_onlyFor _ s' result).trans only, ?_⟩
        · rw [kernel, peer, isPeer]
        · rw [if_pos rfl]
          refine ⟨rfl, idle, idle.serves socket, ?_, ?_, ?_, ?_⟩
          · rw [queue']
            rfl
          · refine ⟨taken, ?_, ?_⟩
            · rw [queue', queue]
              exact saved
            · rw [queue', kernel, arrived]
              simp
          · rw [queue', queue]
            exact reading.header
          · rw [queue']
            exact fun data => absurd rfl data
    | closed =>
        rw [isPeer] at isReceived
        subst isReceived
        exact ⟨_, _, getch, peer.trans isPeer, recv_onlyFor _ s' result, by simp [serves]⟩
    | failed =>
        rw [isPeer] at isReceived
        subst isReceived
        exact ⟨_, _, getch, peer.trans isPeer, recv_onlyFor _ s' result, by simp [serves]⟩
  · exact absurd noMore some.1

/-- The rest of a packet is read behind its header, or what there is of it is saved. -/
theorem getdata_spec (positive : 0 < socket) {n : Nat} (isHeader : IsHeader taken n) :
    ∃ rv received s', Socket.getdata s socket n = (rv, received, s') ∧
      (s'.kernel socket).peer = (s.kernel socket).peer ∧ OnlyFor socket s s' ∧
      if n ≤ rest.length then
        rv = some (rest.take n) ∧ s'.Waiting socket (rest.drop n)
      else if (s.kernel socket).arrived ≠ [] ∨ (s.kernel socket).peer = .connected then
        rv = some rest ∧ s'.Waiting socket (taken ++ rest)
      else rv = none ∧ s'.Serves socket := by
  rcases reading.split with ⟨more, saved, isSplit⟩
  have noMore : more = [] := by
    by_contra longer
    exact reading.header taken more saved longer n isHeader
  subst noMore
  rw [List.append_nil] at saved
  rw [List.nil_append] at isSplit
  have short : (s.queue socket).buf.length < n ∨ (s.queue socket).buf = [] := by
    by_cases data : (s.queue socket).buf = []
    · exact .inr data
    · rcases reading.data data with ⟨m, isHeader', less⟩
      rw [saved] at isHeader'
      exact .inl (isHeader.unique isHeader' ▸ less)
  -- the state after a complete packet
  have done {s' : Sockets} (serves : s'.Serves socket)
      (kernel : (s'.kernel socket).arrived = rest.drop n) :
      (SocketBuffer.complete s' socket).Waiting socket (rest.drop n) := by
    rcases complete_spec serves positive with ⟨idle, queue, same, _⟩
    refine ⟨idle, idle.serves socket, ?_, ?_, ?_, ?_⟩
    · rw [queue]
      rfl
    · refine ⟨[], ?_, ?_⟩
      · rw [queue]
        rfl
      · rw [queue, same, kernel]
        rfl
    · intro front longer isFront nonempty
      rw [queue] at isFront
      exact absurd (List.append_eq_nil_iff.mp isFront.symm).2 nonempty
    · rw [queue]
      exact fun data => absurd rfl data
  -- the state after an incomplete packet
  have kept {s' : Sockets} (serves : s'.Serves socket) (queue : s'.queue socket = s.queue socket)
      (kernel : (s'.kernel socket).arrived = []) (few : rest.length < n) :
      (SocketBuffer.interrupted s' socket rest).Waiting socket (taken ++ rest) := by
    rcases interrupted_spec serves positive rest with ⟨idle, queue', same, _⟩
    refine ⟨idle, idle.serves socket, ?_, ?_, ?_, ?_⟩
    · rw [queue']
      rfl
    · refine ⟨taken, ?_, ?_⟩
      · rw [queue', queue]
        exact saved
      · rw [queue', same, kernel, List.append_nil]
    · rw [queue', queue]
      exact reading.header
    · rw [queue', queue]
      exact fun _ => ⟨n, saved ▸ isHeader, few⟩
  by_cases zero : n = 0
  · subst zero
    have noData : (s.queue socket).buf = [] := by
      rcases short with impossible | noData
      · exact absurd impossible (Nat.not_lt_zero _)
      · exact noData
    rw [noData, List.nil_append] at isSplit
    rcases complete_spec reading.serves positive with ⟨_, _, kernel, only⟩
    refine ⟨_, _, _, rfl, by rw [kernel], only, ?_⟩
    rw [if_pos (Nat.zero_le _)]
    exact ⟨rfl, done reading.serves isSplit.symm⟩
  · have fewer : (s.queue socket).buf.length < n := by
      rcases short with less | noData
      · exact less
      · rw [noData]
        exact Nat.pos_of_ne_zero zero
    have data := getQueuedData_eq reading.serves
    rcases @recv_spec s socket (n - (s.queue socket).buf.length) (by omega) with
      ⟨received, s', result, peer, nothing | something⟩
    · rcases nothing with ⟨noneArrived, arrived, isReceived⟩
      rw [noneArrived, List.append_nil] at isSplit
      have queue := recv_queue _ s' result
      have serves := recv_serves _ s' result reading.serves
      have few : rest.length < n := isSplit ▸ fewer
      cases isPeer : (s.kernel socket).peer with
      | connected =>
          rw [isPeer] at isReceived
          subst isReceived
          rcases interrupted_spec serves positive rest with ⟨_, _, kernel, only⟩
          refine ⟨some rest, some .wouldBlock, SocketBuffer.interrupted s' socket rest, ?_, ?_,
            (recv_onlyFor _ s' result).trans only, ?_⟩
          · unfold Socket.getdata
            dsimp only
            rw [if_neg zero, data, result]
            dsimp only
            rw [← isSplit, if_neg (Nat.ne_of_lt few)]
          · rw [kernel, peer, isPeer]
          · rw [if_neg (Nat.not_le.mpr few), if_pos (.inr rfl)]
            exact ⟨rfl, kept serves (queue socket) arrived few⟩
      | closed =>
          rw [isPeer] at isReceived
          subst isReceived
          refine ⟨none, some .closed, s', ?_, peer.trans isPeer, recv_onlyFor _ s' result, ?_⟩
          · unfold Socket.getdata
            dsimp only
            rw [if_neg zero, data, result]
          · rw [if_neg (Nat.not_le.mpr few), if_neg (by simp [noneArrived])]
            exact ⟨rfl, serves⟩
      | failed =>
          rw [isPeer] at isReceived
          subst isReceived
          refine ⟨none, some .failed, s', ?_, peer.trans isPeer, recv_onlyFor _ s' result, ?_⟩
          · unfold Socket.getdata
            dsimp only
            rw [if_neg zero, data, result]
          · rw [if_neg (Nat.not_le.mpr few), if_neg (by simp [noneArrived])]
            exact ⟨rfl, serves⟩
    · rcases something with ⟨someArrived, isData, arrived⟩
      subst isData
      have queue := recv_queue _ s' result
      have serves := recv_serves _ s' result reading.serves
      have read : (s.queue socket).buf ++
          (s.kernel socket).arrived.take (n - (s.queue socket).buf.length) = rest.take n := by
        rw [isSplit, List.take_append, List.take_of_length_le (Nat.le_of_lt fewer)]
      have left : (s.kernel socket).arrived.drop (n - (s.queue socket).buf.length) =
          rest.drop n := by
        rw [isSplit, List.drop_append, List.drop_of_length_le (Nat.le_of_lt fewer),
          List.nil_append]
      rw [left] at arrived
      have getdata : Socket.getdata s socket n = (some (rest.take n),
          some (.data ((s.kernel socket).arrived.take (n - (s.queue socket).buf.length))),
          if (rest.take n).length = n then SocketBuffer.complete s' socket
          else SocketBuffer.interrupted s' socket (rest.take n)) := by
        unfold Socket.getdata
        dsimp only
        rw [if_neg zero, data, result]
        dsimp only
        rw [read]
      by_cases enough : n ≤ rest.length
      · rw [if_pos (List.length_take_of_le enough)] at getdata
        rcases complete_spec serves positive with ⟨_, _, kernel, only⟩
        refine ⟨_, _, _, getdata, by rw [kernel, peer], (recv_onlyFor _ s' result).trans only, ?_⟩
        rw [if_pos enough]
        exact ⟨rfl, done serves arrived⟩
      · have few : rest.length < n := by omega
        have all : rest.take n = rest := List.take_of_length_le (Nat.le_of_lt few)
        rw [all, if_neg (Nat.ne_of_lt few)] at getdata
        rw [List.drop_of_length_le (Nat.le_of_lt few)] at arrived
        rcases interrupted_spec serves positive rest with ⟨_, _, kernel, only⟩
        refine ⟨_, _, _, getdata, by rw [kernel, peer], (recv_onlyFor _ s' result).trans only, ?_⟩
        rw [if_neg enough, if_pos (.inl someArrived)]
        exact ⟨rfl, kept serves (queue socket) arrived few⟩

end Reading

end Sockets

namespace MQTTPacket

open Sockets

/-- A plain connection. -/
def plain (socket : SOCKET) : Net :=
  { socket := socket, websocket := false, websocket_key := none }

variable {t : Transport} {socket : SOCKET} {taken rest stream : Bytes}

theorem getch_plain {rc : CompletionCode} {c : Option UInt8} {s : Sockets}
    (read : Socket.getch t.sockets socket = (rc, c, s)) :
    WebSocket.getch t (plain socket) = some (rc, c, plain socket, { t with sockets := s }) := by
  unfold WebSocket.getch
  rw [if_neg (by simp [plain])]
  simp only [plain, read]

theorem getdata_plain {n : Nat} {rv : Option Bytes} {received : Option Received} {s : Sockets}
    (read : Socket.getdata t.sockets socket n = (rv, received, s)) :
    WebSocket.getdata t (plain socket) n = some (rv, plain socket, { t with sockets := s }) := by
  unfold WebSocket.getdata
  rw [if_neg (by simp [plain])]
  simp only [plain, read]

/-- What `MQTTPacket_decode` does behind `taken`, of which `field` is the length field so far. -/
theorem decodeLoop_plain (positive : 0 < socket) {left multiplier value : Nat} {first : UInt8}
    {field : Bytes} (isTaken : taken = first :: field) (room : field.length + left = 4)
    (continues : ∀ other, remainingLength (field ++ other) =
      lengthField left multiplier value other)
    (reading : t.sockets.Reading socket taken rest) :
    ∃ rc v s', decodeLoop (plain socket) left t multiplier value =
        some (rc, v, plain socket, { t with sockets := s' }) ∧
      (s'.kernel socket).peer = (t.sockets.kernel socket).peer ∧
      OnlyFor socket t.sockets s' ∧
      match lengthField left multiplier value rest with
      | .complete n rest' => rc = .complete ∧ v = n ∧ ∃ header, IsHeader header n ∧
          header ++ rest' = taken ++ rest ∧ s'.Reading socket header rest'
      | .incomplete =>
          if (t.sockets.kernel socket).peer = .connected then
            rc = .interrupted ∧ s'.Waiting socket (taken ++ rest)
          else rc = .socketError ∧ s'.Serves socket
      | .malformed => rc = .socketError ∧ s'.Serves socket := by
  induction left generalizing t taken rest multiplier value field with
  | zero => exact ⟨_, _, t.sockets, rfl, rfl, .refl _ _, rfl, reading.serves⟩
  | succ left ih =>
      have notHeader : ∀ n, ¬IsHeader taken n := by
        rintro n ⟨_, _, same, complete⟩
        rw [isTaken] at same
        injection same with _ same
        subst same
        have incomplete := continues []
        rw [List.append_nil, complete] at incomplete
        cases incomplete
      have fits : taken.length ≤ 4 := by
        rw [isTaken, List.length_cons]
        omega
      cases rest with
      | nil =>
          rcases reading.getch_nil positive fits rfl with ⟨rc, s', read, peer, only, after⟩
          have result : decodeLoop (plain socket) (left + 1) t multiplier value =
              some (rc, value, plain socket, { t with sockets := s' }) := by
            apply (congrArg (Option.bind · _) (getch_plain read)).trans
            cases rc with
            | complete =>
                split at after
                · cases after.1
                · cases after.1
            | interrupted => rfl
            | socketError => rfl
          refine ⟨rc, value, s', result, peer, only, ?_⟩
          rw [List.append_nil]
          exact after
      | cons c rest =>
          rcases reading.getch_cons positive notHeader fits rfl with ⟨s', read, after, peer, only⟩
          by_cases more : 128 ≤ c.toNat
          · have continues' : ∀ other, remainingLength ((field ++ [c]) ++ other) =
                lengthField left (multiplier * 128) (value + c.toNat % 128 * multiplier) other := by
              intro other
              rw [List.append_assoc, continues]
              exact if_pos more
            have isTaken' : taken ++ [c] = first :: (field ++ [c]) := by rw [isTaken]; rfl
            have room' : (field ++ [c]).length + left = 4 := by
              rw [List.length_append, List.length_singleton]
              omega
            have after' : Reading ({ t with sockets := s' } : Transport).sockets socket
                (taken ++ [c]) rest := after
            rcases ih isTaken' room' continues' after' with
              ⟨rc, v, s'', result, peer', only', spec⟩
            refine ⟨rc, v, s'', ?_, peer'.trans peer, only.trans only', ?_⟩
            · apply (congrArg (Option.bind · _) (getch_plain read)).trans
              exact (if_pos more).trans result
            · have field' : lengthField (left + 1) multiplier value (c :: rest) =
                  lengthField left (multiplier * 128) (value + c.toNat % 128 * multiplier) rest :=
                if_pos more
              rw [field']
              rw [List.append_assoc] at spec
              change ((s'.kernel socket).peer = _) at peer
              rw [show (({ t with sockets := s' } : Transport).sockets.kernel socket).peer =
                (t.sockets.kernel socket).peer from peer] at spec
              exact spec
          · refine ⟨.complete, value + c.toNat % 128 * multiplier, s', ?_, peer, only, ?_⟩
            · apply (congrArg (Option.bind · _) (getch_plain read)).trans
              exact if_neg more
            · have field' : lengthField (left + 1) multiplier value (c :: rest) =
                  .complete (value + c.toNat % 128 * multiplier) rest := if_neg more
              rw [field']
              refine ⟨rfl, rfl, taken ++ [c], ?_, by simp, after⟩
              refine ⟨first, field ++ [c], by rw [isTaken]; rfl, ?_⟩
              rw [continues]
              exact if_neg more

/-- The length field at the front of a stream is one that no packet has. -/
def Malformed (stream : Bytes) : Prop :=
  ∃ header bytes, stream = header :: bytes ∧ remainingLength bytes = .malformed

/-- `MQTTPacket_Factory` takes a packet off what the socket has, or leaves it as it is. -/
theorem factory_plain {Pack : Type} (newPackets : NewPackets Pack) (positive : 0 < socket)
    (noFrames : t.in_frames = []) (waiting : t.sockets.Waiting socket stream) :
    ∃ r s', factory newPackets t (plain socket) =
        some (r, plain socket, { t with sockets := s' }) ∧
      (s'.kernel socket).peer = (t.sockets.kernel socket).peer ∧
      OnlyFor socket t.sockets s' ∧
      match takePacket stream with
      | some (contents, rest) =>
          r = result newPackets contents.1 contents.2 ∧ s'.Waiting socket rest
      | none =>
          (r = .none .interrupted ∧ s'.Waiting socket stream) ∨
            (r = .none .socketError ∧ s'.Serves socket ∧
              ((t.sockets.kernel socket).peer ≠ .connected ∨ Malformed stream)) := by
  have pos (s : Sockets) : WebSocket.framePos { t with sockets := s } = some 0 := by
    simp [WebSocket.framePos, WebSocket.firstFrame, noFrames]
  have rewound (s : Sockets) : @rewind Pack 0 (plain socket) { t with sockets := s } =
      some (.none .interrupted, plain socket, { t with sockets := s }) := by
    simp [rewind, WebSocket.framePosSeekTo, WebSocket.firstFrame, WebSocket.seek, noFrames]
  have noHeader : ∀ n, ¬IsHeader [] n := by
    rintro n ⟨_, _, impossible, _⟩
    cases impossible
  have start {rc : CompletionCode} {header : Option UInt8} {s : Sockets}
      (read : Socket.getch t.sockets socket = (rc, header, s)) :
      factory newPackets t (plain socket) =
        afterHeader newPackets 0 header (plain socket) { t with sockets := s } rc := by
    unfold factory
    rw [show WebSocket.framePos t = some 0 from pos t.sockets]
    dsimp only [Option.bind_some]
    rw [getch_plain read]
    rfl
  cases stream with
  | nil =>
      rcases waiting.reading.getch_nil positive (Nat.zero_le _) rfl with
        ⟨rc, s', read, peer, only, after⟩
      refine ⟨.none rc, s', ?_, peer, only, ?_⟩
      · rw [start read]
        cases rc with
        | complete =>
            split at after
            · cases after.1
            · cases after.1
        | interrupted => exact rewound s'
        | socketError => rfl
      · split at after
        · exact .inl ⟨by rw [after.1], after.2⟩
        next lost => exact .inr ⟨by rw [after.1], after.2, .inl lost⟩
  | cons header bytes =>
      rcases waiting.reading.getch_cons positive noHeader (Nat.zero_le _) rfl with
        ⟨s', read, after, peer, only⟩
      have after' : Reading ({ t with sockets := s' } : Transport).sockets socket [header] bytes :=
        after
      rcases decodeLoop_plain positive rfl rfl (fun other => rfl) after' with
        ⟨rc, n, s'', decoded, peer', only', spec⟩
      have samePeer : (s''.kernel socket).peer = (t.sockets.kernel socket).peer := peer'.trans peer
      have onlyBoth := only.trans only'
      have first : factory newPackets t (plain socket) =
          afterDecode newPackets 0 header n (plain socket) { t with sockets := s'' } rc := by
        rw [start read]
        unfold afterHeader
        dsimp only [Option.bind_some]
        rw [show decode ({ t with sockets := s' } : Transport) (plain socket) = _ from decoded]
        rfl
      cases field : remainingLength bytes with
      | malformed =>
          rw [show lengthField maxRemainingLengthBytes 1 0 bytes = .malformed from field] at spec
          rcases spec with ⟨rfl, serves⟩
          simp only [takePacket, field]
          exact ⟨.none .socketError, s'', first, samePeer, onlyBoth,
            .inr ⟨rfl, serves, .inr ⟨header, bytes, rfl, field⟩⟩⟩
      | incomplete =>
          rw [show lengthField maxRemainingLengthBytes 1 0 bytes = .incomplete from field] at spec
          simp only [takePacket, field]
          dsimp only at spec
          rw [peer] at spec
          split at spec
          · rcases spec with ⟨rfl, waits⟩
            exact ⟨.none .interrupted, s'', first.trans (rewound s''), samePeer, onlyBoth,
              .inl ⟨rfl, waits⟩⟩
          next lost =>
            rcases spec with ⟨rfl, serves⟩
            exact ⟨.none .socketError, s'', first, samePeer, onlyBoth,
              .inr ⟨rfl, serves, .inl lost⟩⟩
      | complete m rest =>
          rw [show lengthField maxRemainingLengthBytes 1 0 bytes = .complete m rest from field]
            at spec
          rcases spec with ⟨rfl, rfl, whole, isHeader, same, reading⟩
          rcases reading.getdata_spec positive isHeader with
            ⟨rv, received, s3, data, peer3, only3, spec⟩
          rw [samePeer] at peer3
          have read' : factory newPackets t (plain socket) =
              afterData newPackets 0 header n rv (plain socket) { t with sockets := s3 } := by
            have got := @getdata_plain { t with sockets := s'' } socket n rv received s3 data
            rw [first]
            unfold afterDecode
            dsimp only
            rw [got]
            rfl
          unfold afterData at read'
          simp only [takePacket, field]
          split at spec
          next enough =>
            rcases spec with ⟨rfl, waits⟩
            rw [if_neg (by simp), Option.getD_some, List.length_take_of_le enough,
              if_neg (Nat.lt_irrefl n), List.take_take, Nat.min_self] at read'
            refine ⟨_, s3, read', peer3, onlyBoth.trans only3, ?_⟩
            rw [if_pos enough]
            exact ⟨rfl, waits⟩
          next few =>
            have positiveLength : 0 < n := by omega
            rw [if_neg few]
            split at spec
            · rcases spec with ⟨rfl, waits⟩
              rw [if_neg (by simp), Option.getD_some, if_pos (by omega), rewound] at read'
              rw [same] at waits
              exact ⟨_, s3, read', peer3, onlyBoth.trans only3, .inl ⟨rfl, waits⟩⟩
            next lost =>
              rcases spec with ⟨rfl, serves⟩
              rw [if_pos (by simp [positiveLength])] at read'
              rw [samePeer] at lost
              exact ⟨_, s3, read', peer3, onlyBoth.trans only3,
                .inr ⟨rfl, serves, .inl fun isConnected => lost (.inr isConnected)⟩⟩

end MQTTPacket

end Paho
