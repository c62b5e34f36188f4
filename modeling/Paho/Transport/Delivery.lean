import Paho.Codec.PublishPackets
import Paho.Transport.Chunking
import Paho.Transport.PartialWrites

/-!
# From one end of a connection to the other

Packets are given to `Socket_putdatas` and go on with `Socket_continueWrites`; their bytes arrive
in pieces at the other ends, where `MQTTPacket_Factory` reads them. Any number of connections are
used at once, and there is no TLS.
-/

namespace Paho

namespace PartialWrites

/-- A packet and the buffers that it is written from. -/
structure SentPacket where
  buffers : PacketBuffers
  wire : WirePacket
  isBytes : buffers.contents = wire.bytes

/-- The writing end of a connection: the packets that were reported as complete, and the one that
waits for `Socket_continueWrites` or of which a write has failed. -/
structure WritingEnd (Sent : Type) where
  written : List Sent
  current : Option (Sent × Sending)

/-- The kernel takes no more than it is offered and than an `int` can say. -/
def Writev.limit (offered : Nat) : Writev → Writev
  | .accepted n => .accepted (min n (min offered 2147479552))
  | answer => answer

namespace WritingEnd

variable {Sent : Type} (packet : Sent → SentPacket) (out : WritingEnd Sent)

/-- What has become of a packet. -/
def report (sent : Sent) (s : Sending) : WritingEnd Sent :=
  if s.outcome = .complete then ⟨out.written ++ [sent], none⟩ else ⟨out.written, some (sent, s)⟩

/-- `Socket_putdatas`. While another packet waits it writes nothing; after a write that has failed
the connection is closed. -/
def putdatas (sent : Sent) (answer : Writev) : WritingEnd Sent :=
  match out.current with
  | some _ => out
  | none => out.report sent (start (packet sent).buffers (answer.limit (packet sent).buffers.total))

/-- `Socket_continueWrites`, when the socket is ready for writing. -/
def continueWrites (answer : Writev) : WritingEnd Sent :=
  match out.current with
  | none => out
  | some (sent, s) =>
      out.report sent
        (PartialWrites.continueWrites (packet sent).buffers s (answer.limit s.offered))

/-- The packets that were taken for writing, in order. -/
def given : List Sent :=
  out.written ++ (out.current.map Prod.fst).toList

/-- The bytes that the kernel has accepted. -/
def accepted : Bytes :=
  WirePacket.stream (out.written.map fun sent => (packet sent).wire) ++
    (out.current.map fun current => current.2.accepted).getD []

/-- The packet that waits is in its sending. -/
def Valid : Prop :=
  ∀ sent s, out.current = some (sent, s) →
    Sound (packet sent).buffers s ∧ s.outcome ≠ .complete

end WritingEnd

section Writing

variable {Sent : Type} {packet : Sent → SentPacket} {out : WritingEnd Sent} {sent : Sent}
  {s : Sending}

theorem Writev.limit_within (offered : Nat) (answer : Writev) :
    (answer.limit offered).Within offered := by
  cases answer with
  | accepted n => exact ⟨by omega, by omega⟩
  | wouldBlock => trivial
  | failed => trivial

theorem Sound.isPrefix {packet : PacketBuffers} (sound : Sound packet s) :
    s.accepted <+: packet.contents := by
  cases sound with
  | writing fewer => exact List.take_prefix _ _
  | complete => exact List.prefix_rfl
  | failed isPrefix => exact isPrefix

theorem Sound.whole {packet : PacketBuffers} (sound : Sound packet s)
    (complete : s.outcome = .complete) : s.accepted = packet.contents := by
  cases sound with
  | writing fewer => cases complete
  | complete => rfl
  | failed isPrefix => cases complete

theorem accepted_continueWrites (packet : PacketBuffers) (s : Sending) (answer : Writev) :
    s.accepted <+: (continueWrites packet s answer).accepted := by
  unfold continueWrites
  split
  · exact List.prefix_rfl
  · exact List.prefix_append _ _

namespace WritingEnd

theorem stream_append (left right : List WirePacket) :
    WirePacket.stream (left ++ right) = WirePacket.stream left ++ WirePacket.stream right :=
  List.flatMap_append

theorem stream_singleton (wire : WirePacket) : WirePacket.stream [wire] = wire.bytes :=
  List.flatMap_singleton _ _

theorem given_report : (out.report sent s).given = out.written ++ [sent] := by
  unfold report
  split
  · exact List.append_nil _
  · rfl

theorem accepted_report (sound : Sound (packet sent).buffers s) :
    (out.report sent s).accepted packet =
      WirePacket.stream (out.written.map fun sent => (packet sent).wire) ++ s.accepted := by
  unfold report
  split
  next complete =>
    rw [sound.whole complete, (packet sent).isBytes]
    simp [accepted, stream_append, stream_singleton]
  next => rfl

theorem valid_report (sound : Sound (packet sent).buffers s) :
    (out.report sent s).Valid packet := by
  unfold report
  split
  next => exact fun _ _ isCurrent => by cases isCurrent
  next notComplete =>
    rintro _ _ ⟨⟩
    exact ⟨sound, notComplete⟩

/-- One step of a writing end takes at most one packet more, and the kernel accepts bytes behind
those that it has accepted. -/
structure Grows (packet : Sent → SentPacket) (out out' : WritingEnd Sent) : Prop where
  valid : out'.Valid packet
  given : out.given <+: out'.given
  accepted : out.accepted packet <+: out'.accepted packet

theorem Grows.refl (valid : out.Valid packet) : Grows packet out out :=
  ⟨valid, List.prefix_rfl, List.prefix_rfl⟩

theorem Valid.putdatas (valid : out.Valid packet) (sent : Sent) (answer : Writev) :
    Grows packet out (out.putdatas packet sent answer) := by
  unfold WritingEnd.putdatas
  split
  next => exact .refl valid
  next isIdle =>
    have sound := start_sound (Writev.limit_within (packet sent).buffers.total answer)
    refine ⟨valid_report sound, ?_, ?_⟩
    · rw [given_report, WritingEnd.given, isIdle]
      exact List.prefix_append_right_inj _ |>.mpr List.nil_prefix
    · rw [accepted_report sound, WritingEnd.accepted, isIdle]
      exact List.prefix_append_right_inj _ |>.mpr List.nil_prefix

theorem Valid.continueWrites (valid : out.Valid packet) (answer : Writev) :
    Grows packet out (out.continueWrites packet answer) := by
  unfold WritingEnd.continueWrites
  split
  next => exact .refl valid
  next sent s isCurrent =>
    have sound := continueWrites_sound (valid sent s isCurrent).1
      (Writev.limit_within s.offered answer)
    refine ⟨valid_report sound, ?_, ?_⟩
    · rw [given_report, WritingEnd.given, isCurrent]
      exact List.prefix_rfl
    · rw [accepted_report sound, WritingEnd.accepted, isCurrent]
      exact List.prefix_append_right_inj _ |>.mpr (accepted_continueWrites _ _ _)

/-- What was accepted begins the packets that were given. -/
theorem Valid.accepted_prefix (valid : out.Valid packet) :
    out.accepted packet <+:
      WirePacket.stream (out.given.map fun sent => (packet sent).wire) := by
  rw [WritingEnd.accepted, WritingEnd.given, List.map_append, stream_append,
    List.prefix_append_right_inj]
  cases isCurrent : out.current with
  | none => exact List.prefix_rfl
  | some current =>
      have isPrefix := (valid current.1 current.2 isCurrent).1.isPrefix
      rw [(packet current.1).isBytes] at isPrefix
      simpa [stream_singleton] using isPrefix

end WritingEnd

end Writing

end PartialWrites

open PartialWrites

/-- The connections of a process whose other ends are read by `MQTTPacket_Factory`: `coming` of
the readers is what is under way. -/
structure Link (Sent : SOCKET → Type) (Pack : Type) where
  writers : ∀ socket, WritingEnd (Sent socket)
  readers : Readers Pack

namespace Readers

variable {Pack : Type} {newPackets : SOCKET → NewPackets Pack} {r : Readers Pack}
  {more : SOCKET → Bytes}

/-- With bytes that come behind those that are under way. -/
def behind (r : Readers Pack) (more : SOCKET → Bytes) : Readers Pack :=
  { r with coming := fun socket => r.coming socket ++ more socket }

/-- No more bytes arrive than are under way. -/
def bounded (r : Readers Pack) : Input → Input
  | .arrive socket n => .arrive socket (min n (r.coming socket).length)
  | input => input

theorem handle_behind (socket : SOCKET) (t : Transport) (result : FactoryResult Pack) :
    (r.behind more).handle socket t result = (r.handle socket t result).behind more := by
  cases result with
  | pack pack => rfl
  | none error => cases error <;> rfl

/-- What comes later does not change a step. -/
theorem step_behind (input : Input) :
    step newPackets (r.behind more) (r.bounded input) =
      (step newPackets r input).map (·.behind more) := by
  cases input with
  | arrive socket n =>
      have bound : min n (r.coming socket).length ≤ (r.coming socket).length := Nat.min_le_right _ _
      have taken : (r.coming socket).take (min n (r.coming socket).length) =
          (r.coming socket).take n := by
        rw [← List.take_take, List.take_length]
      have left : (r.coming socket).drop (min n (r.coming socket).length) =
          (r.coming socket).drop n := by
        rcases Nat.le_total n (r.coming socket).length with fewer | all
        · rw [Nat.min_eq_left fewer]
        · rw [Nat.min_eq_right all, List.drop_length, List.drop_of_length_le all]
      have coming : Function.update (r.behind more).coming socket
          (((r.behind more).coming socket).drop (min n (r.coming socket).length)) = fun other =>
            Function.update r.coming socket ((r.coming socket).drop n) other ++ more other := by
        funext other
        by_cases same : other = socket
        · subst same
          rw [Function.update_self, Function.update_self, behind,
            List.drop_append_of_le_length bound, left]
        · rw [Function.update_of_ne same, Function.update_of_ne same, behind]
      simp only [bounded, step, Option.map_some, coming]
      simp only [behind, setKernel, List.take_append_of_le_length bound, taken]
  | lose socket failed => rfl
  | factory socket =>
      by_cases skipped : socket = 0 ∨ r.closed socket = true
      · have skipped' : socket = 0 ∨ (r.behind more).closed socket = true := skipped
        simp only [bounded, step]
        rw [if_pos skipped, if_pos skipped']
        rfl
      · have skipped' : ¬(socket = 0 ∨ (r.behind more).closed socket = true) := skipped
        simp only [bounded, step]
        rw [if_neg skipped, if_neg skipped', Option.map_map]
        apply congrArg (Option.map · _)
        funext result
        exact handle_behind socket result.2.2 result.1

/-- What comes later does not change a run. -/
theorem Consistent.run_behind {packets : SOCKET → List WirePacket}
    (consistent : Consistent newPackets packets (r.behind more)) (inputs : List Input) :
    ∃ r' bounded, Readers.run newPackets r inputs = some r' ∧
      Readers.run newPackets (r.behind more) bounded = some (r'.behind more) ∧
      ∀ socket, bounded.count (.factory socket) = inputs.count (.factory socket) := by
  induction inputs generalizing r with
  | nil => exact ⟨r, [], rfl, rfl, fun _ => rfl⟩
  | cons input inputs ih =>
      rcases consistent.step (r.bounded input) with ⟨next', stepped', consistent'⟩
      have isNext := stepped'
      rw [step_behind, Option.map_eq_some_iff] at isNext
      rcases isNext with ⟨next, stepped, rfl⟩
      rcases ih consistent' with ⟨r', bounded, ran, ran', counts⟩
      refine ⟨r', r.bounded input :: bounded, ?_, ?_, fun socket => ?_⟩
      · rw [run_cons stepped, ran]
      · rw [run_cons stepped', ran']
      · have same : r.bounded input == .factory socket ↔ input == .factory socket := by
          cases input <;> simp [Readers.bounded]
        rw [List.count_cons, List.count_cons, counts]
        simp only [same]

end Readers

namespace Link

variable {Sent : SOCKET → Type} {Pack : Type}

/-- What happens on the connections. -/
inductive Input (Sent : SOCKET → Type) where
  | putdatas (socket : SOCKET) (sent : Sent socket) (answer : Writev)
  | continueWrites (socket : SOCKET) (answer : Writev)
  /-- Bytes arrive at the other end, or it is read, or the connection is lost. -/
  | reader (input : Readers.Input)

section Steps

variable (packet : ∀ socket, Sent socket → SentPacket) (newPackets : SOCKET → NewPackets Pack)

/-- The writing ends after an input. -/
def write (writers : ∀ socket, WritingEnd (Sent socket)) :
    Input Sent → ∀ socket, WritingEnd (Sent socket)
  | .putdatas socket sent answer =>
      Function.update writers socket ((writers socket).putdatas (packet socket) sent answer)
  | .continueWrites socket answer =>
      Function.update writers socket ((writers socket).continueWrites (packet socket) answer)
  | .reader _ => writers

/-- The reading ends after an input that moves the writing ends to `writers`: what the kernel has
accepted is under way. -/
def receive (l : Link Sent Pack) (writers : ∀ socket, WritingEnd (Sent socket)) :
    Input Sent → Option (Readers Pack)
  | .reader input => l.readers.step newPackets input
  | _ =>
      some (l.readers.behind fun socket =>
        ((writers socket).accepted (packet socket)).drop
          ((l.writers socket).accepted (packet socket)).length)

/-- One input. -/
def step (l : Link Sent Pack) (input : Input Sent) : Option (Link Sent Pack) :=
  let writers := write packet l.writers input
  (receive packet newPackets l writers input).map fun readers => ⟨writers, readers⟩

/-- A run; it has no outcome if a step has none. -/
def run (l : Link Sent Pack) (inputs : List (Input Sent)) : Option (Link Sent Pack) :=
  Machine.run (fun l input => l.bind (step packet newPackets · input)) (some l) inputs

/-- Before anything is sent. -/
def start : Link Sent Pack where
  writers := fun _ => ⟨[], none⟩
  readers := .start fun _ => []

end Steps

section Runs

variable {packet : ∀ socket, Sent socket → SentPacket} {newPackets : SOCKET → NewPackets Pack}
  {l l' : Link Sent Pack} {all : ∀ socket, List (Sent socket)}

/-- The packets as they are on the wire. -/
def wires (packet : ∀ socket, Sent socket → SentPacket) (all : ∀ socket, List (Sent socket))
    (socket : SOCKET) : List WirePacket :=
  (all socket).map fun sent => (packet socket sent).wire

/-- The bytes of the packets that the kernel has not accepted. -/
def left (packet : ∀ socket, Sent socket → SentPacket) (all : ∀ socket, List (Sent socket))
    (writers : ∀ socket, WritingEnd (Sent socket)) (socket : SOCKET) : Bytes :=
  (WirePacket.stream (wires packet all socket)).drop
    ((writers socket).accepted (packet socket)).length

/-- The connections, when `all` will have been given in the end. -/
structure Linked (packet : ∀ socket, Sent socket → SentPacket)
    (newPackets : SOCKET → NewPackets Pack) (all : ∀ socket, List (Sent socket))
    (l : Link Sent Pack) : Prop where
  valid : ∀ socket, (l.writers socket).Valid (packet socket)
  consistent : Readers.Consistent newPackets (wires packet all)
    (l.readers.behind (left packet all l.writers))

theorem write_grows {writers : ∀ socket, WritingEnd (Sent socket)}
    (valid : ∀ socket, (writers socket).Valid (packet socket)) (input : Input Sent)
    (socket : SOCKET) :
    WritingEnd.Grows (packet socket) (writers socket) (write packet writers input socket) := by
  cases input with
  | putdatas other sent answer =>
      by_cases same : socket = other
      · subst same
        rw [write, Function.update_self]
        exact (valid socket).putdatas sent answer
      · rw [write, Function.update_of_ne same]
        exact .refl (valid socket)
  | continueWrites other answer =>
      by_cases same : socket = other
      · subst same
        rw [write, Function.update_self]
        exact (valid socket).continueWrites answer
      · rw [write, Function.update_of_ne same]
        exact .refl (valid socket)
  | reader input => exact .refl (valid socket)

theorem drop_append_drop {accepted accepted' stream : Bytes} (grows : accepted <+: accepted')
    (begins : accepted' <+: stream) :
    accepted'.drop accepted.length ++ stream.drop accepted'.length =
      stream.drop accepted.length := by
  rcases grows with ⟨more, rfl⟩
  rcases begins with ⟨rest, rfl⟩
  rw [List.drop_left, List.drop_left, List.append_assoc, List.drop_left]

/-- What was accepted is not left any more. -/
theorem left_write {writers : ∀ socket, WritingEnd (Sent socket)}
    (valid : ∀ socket, (writers socket).Valid (packet socket)) (input : Input Sent)
    (begins : ∀ socket, (write packet writers input socket).given <+: all socket)
    (socket : SOCKET) :
    ((write packet writers input socket).accepted (packet socket)).drop
        ((writers socket).accepted (packet socket)).length ++
      left packet all (write packet writers input) socket = left packet all writers socket := by
  have grows := write_grows valid input socket
  apply drop_append_drop grows.accepted
  refine grows.valid.accepted_prefix.trans ?_
  rcases begins socket with ⟨more, isAll⟩
  rw [wires, ← isAll, List.map_append, WritingEnd.stream_append]
  exact List.prefix_append _ _

theorem Linked.step (linked : Linked packet newPackets all l) (input : Input Sent)
    (begins : ∀ socket, (write packet l.writers input socket).given <+: all socket) :
    ∃ readers, step packet newPackets l input = some ⟨write packet l.writers input, readers⟩ ∧
      Linked packet newPackets all ⟨write packet l.writers input, readers⟩ := by
  have valid (socket : SOCKET) := (write_grows linked.valid input socket).valid
  have isLeft := left_write linked.valid input begins
  have written (more : SOCKET → Bytes) (isMore : ∀ socket, more socket ++
      left packet all (write packet l.writers input) socket = left packet all l.writers socket) :
      (l.readers.behind more).behind (left packet all (write packet l.writers input)) =
        l.readers.behind (left packet all l.writers) := by
    simp only [Readers.behind, List.append_assoc, isMore]
  cases input with
  | putdatas socket sent answer =>
      refine ⟨_, rfl, valid, ?_⟩
      rw [written _ isLeft]
      exact linked.consistent
  | continueWrites socket answer =>
      refine ⟨_, rfl, valid, ?_⟩
      rw [written _ isLeft]
      exact linked.consistent
  | reader input =>
      rcases linked.consistent.step (l.readers.bounded input) with ⟨r', stepped, consistent⟩
      rw [Readers.step_behind, Option.map_eq_some_iff] at stepped
      rcases stepped with ⟨readers, stepped, rfl⟩
      refine ⟨readers, ?_, valid, consistent⟩
      rw [Link.step, receive, stepped]
      rfl

theorem run_cons {input : Input Sent} {inputs : List (Input Sent)}
    (stepped : step packet newPackets l input = some l') :
    run packet newPackets l (input :: inputs) = run packet newPackets l' inputs := by
  simp [run, stepped]

/-- The writing ends after a run. -/
def writes (packet : ∀ socket, Sent socket → SentPacket)
    (writers : ∀ socket, WritingEnd (Sent socket)) (inputs : List (Input Sent)) :
    ∀ socket, WritingEnd (Sent socket) :=
  Machine.run (write packet) writers inputs

theorem writes_grows {writers : ∀ socket, WritingEnd (Sent socket)}
    (valid : ∀ socket, (writers socket).Valid (packet socket)) (inputs : List (Input Sent))
    (socket : SOCKET) : (writers socket).given <+: (writes packet writers inputs socket).given := by
  induction inputs generalizing writers with
  | nil => exact List.prefix_rfl
  | cons input inputs ih =>
      have grows := write_grows valid input
      exact (grows socket).given.trans (ih fun socket => (grows socket).valid)

theorem Linked.run (linked : Linked packet newPackets all l) (inputs : List (Input Sent))
    (begins : ∀ socket, (writes packet l.writers inputs socket).given <+: all socket) :
    ∃ readers, run packet newPackets l inputs = some ⟨writes packet l.writers inputs, readers⟩ ∧
      Linked packet newPackets all ⟨writes packet l.writers inputs, readers⟩ := by
  induction inputs generalizing l with
  | nil => exact ⟨l.readers, rfl, linked⟩
  | cons input inputs ih =>
      have valid (socket : SOCKET) := (write_grows linked.valid input socket).valid
      have begins' (socket : SOCKET) : (write packet l.writers input socket).given <+: all socket :=
        (writes_grows valid inputs socket).trans (begins socket)
      rcases linked.step input begins' with ⟨readers, stepped, linked'⟩
      rw [run_cons stepped]
      exact ih linked' begins

/-- Before anything is sent, everything is left. -/
theorem linked_start (packet : ∀ socket, Sent socket → SentPacket)
    (newPackets : SOCKET → NewPackets Pack) (all : ∀ socket, List (Sent socket)) :
    Linked packet newPackets all start := by
  refine ⟨fun socket sent s isCurrent => ?_, ?_⟩
  · cases isCurrent
  · exact Readers.consistent_start newPackets (wires packet all)

theorem given_of_idle {Sent : Type} {out : WritingEnd Sent} (isIdle : out.current = none) :
    out.given = out.written := by
  rw [WritingEnd.given, isIdle]
  exact List.append_nil _

/-- What the packets of a connection are read as. -/
def parsed (packet : ∀ socket, Sent socket → SentPacket) (newPackets : SOCKET → NewPackets Pack)
    (socket : SOCKET) (sents : List (Sent socket)) : List (FactoryResult Pack) :=
  WirePacket.parsed (newPackets socket) (sents.map fun sent => (packet socket sent).wire)

/-- What has been read on a connection begins the packets that were given, with an error behind it
if the connection was lost; and it is all of them when nothing is under way, no packet waits and
`MQTTPacket_Factory` was called often enough. -/
structure Delivers (packet : ∀ socket, Sent socket → SentPacket)
    (newPackets : SOCKET → NewPackets Pack) (l : Link Sent Pack) (r' : Readers Pack) (calls : Nat)
    (socket : SOCKET) : Prop where
  safe : ∃ read, read <+: parsed packet newPackets socket (l.writers socket).given ∧
    (r'.returned socket = read ∨
      (¬r'.Connected socket ∧ r'.returned socket = read ++ [.none .socketError]))
  complete : l.readers.coming socket = [] → (l.writers socket).current = none →
    (parsed packet newPackets socket (l.writers socket).written).length ≤ calls →
      r'.Connected socket →
        r'.returned socket = parsed packet newPackets socket (l.writers socket).written

theorem left_of_idle {writers : ∀ socket, WritingEnd (Sent socket)} {socket : SOCKET}
    (isIdle : (writers socket).current = none)
    (isAll : all socket = (writers socket).written) : left packet all writers socket = [] := by
  rw [left, WritingEnd.accepted, isIdle, wires, isAll]
  exact List.drop_of_length_le (List.prefix_append _ _).length_le

/-- Further calls on connections of which all packets are known. -/
theorem Linked.delivers
    (linked : Linked packet newPackets (fun socket => (l.writers socket).given) l)
    (more : List Readers.Input) :
    ∃ r', Readers.run newPackets l.readers more = some r' ∧ ∀ socket, 0 < socket →
      Delivers packet newPackets l r' (more.count (.factory socket)) socket := by
  rcases linked.consistent.run_behind more with ⟨r', bounded, ran, ran', counts⟩
  rcases linked.consistent.run bounded with ⟨_, isRun, consistent⟩
  cases ran'.symm.trans isRun
  refine ⟨r', ran, fun socket positive => ⟨?_, ?_⟩⟩
  · rcases consistent.reads socket positive with ⟨reader, reads⟩
    refine ⟨_, reads.isPrefix, ?_⟩
    exact reads.returned.imp_right fun ⟨lost, _, returned⟩ => ⟨lost, returned⟩
  · intro arrived isIdle enough connected
    have isAll := given_of_idle isIdle
    rcases linked.consistent.reads socket positive with ⟨reader, reads⟩
    have arrived' : (l.readers.behind (left packet (fun socket => (l.writers socket).given)
        l.writers)).coming socket = [] :=
      List.append_eq_nil_iff.mpr ⟨arrived, @left_of_idle _ packet _ _ _ isIdle isAll⟩
    have drained : Readers.Drained (newPackets socket)
        (wires packet (fun socket => (l.writers socket).given) socket) _ socket 0 :=
      ⟨arrived', reader, reads, .inr (.inr (Nat.zero_le _))⟩
    have after := drained.run linked.consistent positive ran'
    rw [Nat.zero_add, counts] at after
    rw [← isAll] at enough ⊢
    exact after.complete enough connected

/-- Every run has an outcome, and the connections deliver. -/
theorem exists_delivers (packet : ∀ socket, Sent socket → SentPacket)
    (newPackets : SOCKET → NewPackets Pack) (inputs : List (Input Sent))
    (more : List Readers.Input) :
    ∃ l r', run packet newPackets start inputs = some l ∧
      Readers.run newPackets l.readers more = some r' ∧ ∀ socket, 0 < socket →
        Delivers packet newPackets l r' (more.count (.factory socket)) socket := by
  rcases (linked_start packet newPackets _).run inputs fun _ => List.prefix_rfl with
    ⟨readers, ran, linked⟩
  rcases Linked.delivers (l := ⟨_, readers⟩) linked more with ⟨r', ranMore, delivers⟩
  exact ⟨_, r', ran, ranMore, delivers⟩

end Runs

end Link

/-! ## The packets -/

/-- A PUBLISH that is sent on a connection of this version. -/
structure Publication (version : Nat) where
  pack : PublishPacket
  dup : Bool
  qos : Nat
  retained : Bool
  sendable : pack.Sendable qos
  isVersion : pack.mqttVersion = version

namespace Publication

open MQTTPacket PacketStream

variable {version : Nat} (publication : Publication version)

/-- The header byte. -/
def header : UInt8 :=
  Header.byte ⟨publishType, publication.dup, publication.qos, publication.retained⟩

/-- `frees` of `MQTTPacket_send_publish`. -/
def frees : List Bool :=
  if 0 < publication.qos ∨ mqttVersion5 ≤ publication.pack.mqttVersion then
    [true, false, true, false]
  else [true, false, false]

/-- The buffers of `MQTTPacket_send_publish`. -/
def buffers : List Bytes :=
  (publishBuffers publication.pack publication.qos).map fun buf => buf.buffer.take buf.buflen

theorem length_buffers : publication.buffers.length = publication.frees.length := by
  by_cases present : 0 < publication.qos ∨ mqttVersion5 ≤ publication.pack.mqttVersion
  · simp [buffers, frees, publishBuffers, variableBuffer, present]
  · simp [buffers, frees, publishBuffers, variableBuffer, present]

theorem length_frees_le : publication.frees.length ≤ 4 := by
  unfold frees
  split <;> simp

theorem flatten_buffers :
    publication.buffers.flatten = publishBody publication.pack publication.qos := by
  have whole : publication.buffers =
      (publishBuffers publication.pack publication.qos).map (·.buffer) := by
    apply List.map_congr_left
    intro buf mem
    rw [show buf.buflen = buf.buffer.length from
      exact_publishBuffers publication.sendable buf mem, List.take_length]
  rw [whole, publishBody, List.flatMap_def]

/-- The packet of a publication. -/
def sent : SentPacket where
  buffers :=
    { buf0 := publication.header ::
        encode (totalLength (publishBuffers publication.pack publication.qos))
      buffers := publication.buffers.zip publication.frees
      count_le := by
        rw [List.length_zip, length_buffers, Nat.min_self]
        exact publication.length_frees_le }
  wire :=
    { header := publication.header
      field := encode (publishBody publication.pack publication.qos).length
      body := publishBody publication.pack publication.qos
      isLength := by
        have read := remainingLength_encode
          (sendPublish_eq publication.sendable publication.dup publication.retained).2 []
        rwa [List.append_nil] at read }
  isBytes := by
    have total := (@sends_exact ⟨publishType, false, 0, false⟩ _
      (exact_publishBuffers publication.sendable)).2
    have fst : (publication.buffers.zip publication.frees).flatMap Prod.fst =
        publishBody publication.pack publication.qos := by
      rw [List.flatMap_def, List.map_fst_zip (Nat.le_of_eq publication.length_buffers),
        flatten_buffers]
    rw [PacketBuffers.contents, PacketBuffers.all, List.flatMap_cons, fst, total]
    rfl

end Publication

/-- A packet on a connection of this version: a PUBLISH, or another one that `MQTTPacket_Factory`
does not refuse. -/
inductive VersionPacket {Pack : Type} (version : Nat) (others : NewPackets Pack) where
  | publish (publication : Publication version)
  | other (sent : SentPacket)
      (known : MQTTPacket.newPackets version others sent.wire.header sent.wire.body ≠ .bad)

namespace VersionPacket

open MQTTPacket

variable {Pack : Type} {version : Nat} {others : NewPackets Pack}

/-- The packet as it is written. -/
def sent : VersionPacket version others → SentPacket
  | .publish publication => publication.sent
  | .other sent _ => sent

/-- What `MQTTPacket_Factory` returns for it: for a PUBLISH the fields that were sent. -/
def received : VersionPacket version others → FactoryResult (PublishPacket ⊕ Pack)
  | .publish publication =>
      .pack (.inl (publication.pack.arriving publication.dup publication.qos publication.retained))
  | .other sent _ => result (newPackets version others) sent.wire.header sent.wire.body

theorem received_eq (packet : VersionPacket version others) :
    newPackets version others packet.sent.wire.header packet.sent.wire.body ≠ .bad ∧
      result (newPackets version others) packet.sent.wire.header packet.sent.wire.body =
        packet.received := by
  cases packet with
  | other sent known => exact ⟨known, rfl⟩
  | publish publication =>
      rcases publication with ⟨pack, dup, qos, retained, sendable, rfl⟩
      have header := ofByte_publish sendable.isQoS dup retained
      have parses : newPackets pack.mqttVersion others
          (Header.byte ⟨publishType, dup, qos, retained⟩) (publishBody pack qos) =
            .pack (.inl (pack.arriving dup qos retained)) := by
        simp [newPackets, header, publish_body sendable]
      have isResult : result (newPackets pack.mqttVersion others)
          (Header.byte ⟨publishType, dup, qos, retained⟩) (publishBody pack qos) =
            .pack (.inl (pack.arriving dup qos retained)) := by
        rw [result, parses]
      refine ⟨fun bad => ?_, isResult⟩
      cases parses.symm.trans bad

/-- A stream without packets that are refused is read as its packets. -/
theorem parsed_eq (packets : List (VersionPacket version others)) :
    WirePacket.parsed (newPackets version others) (packets.map fun packet => packet.sent.wire) =
      packets.map received := by
  induction packets with
  | nil => rfl
  | cons packet packets ih =>
      rcases packet.received_eq with ⟨known, isReceived⟩
      rw [List.map_cons, List.map_cons, ← ih, ← isReceived, WirePacket.parsed, result]
      cases kind : newPackets version others packet.sent.wire.header packet.sent.wire.body with
      | bad => exact absurd kind known
      | unknown => rfl
      | pack pack => rfl

/-- From one end to the other. In every run, on every connection, the packets that have been read
are the first ones of those that were given to `Socket_putdatas`, in their order and with the fields
of each PUBLISH, with one error behind them if the connection was lost. Once no packet waits and no
bytes are under way, they are all packets that were reported as complete, if the connection stands
and `MQTTPacket_Factory` is called as often.
-/
theorem packets_delivered (versions : SOCKET → Nat) (others : SOCKET → NewPackets Pack)
    (inputs : List (Link.Input fun socket => VersionPacket (versions socket) (others socket)))
    (more : List Readers.Input) :
    ∃ l r', Link.run (fun _ => sent) (fun socket => newPackets (versions socket) (others socket))
        Link.start inputs = some l ∧
      Readers.run (fun socket => newPackets (versions socket) (others socket)) l.readers more =
        some r' ∧
      ∀ socket, 0 < socket →
        (∃ read, read <+: (l.writers socket).given ∧
          (r'.returned socket = read.map received ∨
            (¬r'.Connected socket ∧
              r'.returned socket = read.map received ++ [.none .socketError]))) ∧
        (l.readers.coming socket = [] → (l.writers socket).current = none →
          (l.writers socket).written.length ≤ more.count (.factory socket) →
            r'.Connected socket →
              r'.returned socket = (l.writers socket).written.map received) := by
  rcases Link.exists_delivers (fun _ => sent)
    (fun socket => newPackets (versions socket) (others socket)) inputs more with
      ⟨l, r', ran, ranMore, delivers⟩
  refine ⟨l, r', ran, ranMore, fun socket positive => ⟨?_, ?_⟩⟩
  · rcases (delivers socket positive).safe with ⟨read, begins, returned⟩
    rw [Link.parsed, parsed_eq] at begins
    rcases List.prefix_map_iff.mp begins with ⟨packets, isPrefix, rfl⟩
    exact ⟨packets, isPrefix, returned⟩
  · intro arrived isIdle enough connected
    have complete := (delivers socket positive).complete arrived isIdle
    rw [Link.parsed, parsed_eq, List.length_map] at complete
    exact complete enough connected

end VersionPacket

end Paho
