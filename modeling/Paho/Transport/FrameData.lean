import Paho.Transport.FrameReading

/-!
# The data of the frames

`WebSocket_getch` and `WebSocket_getdata` on a connection that carries frames. The first element of
`in_frames` holds the data that has been taken off the socket and is not used up.
-/

namespace Paho

open Sockets

namespace WebSocket

open WireFrame

/-- A connection over a WebSocket. -/
def webSocket (socket : SOCKET) (websocket_key : Option Bytes) : Net :=
  { socket := socket, websocket := true, websocket_key := websocket_key }

/-- `held` is the data in the first element of `in_frames` from the position `start` on, of which
`pos` bytes are read. `linked` tells whether there is an element. -/
structure Keeps (t : Transport) (socket : SOCKET) (linked : Bool) (start pos : Nat) (held : Bytes)
    (ready later : List WireFrame) (coming : Bytes) : Prop where
  held : ∃ data, Holds t data (start + pos) ∧ data.isSome = linked ∧
    (data.getD []).drop start = held
  carries : Carries t socket ready later coming

/-- Which frames are received, and with which result, until the data that is held is enough or a
message is not complete: the data that is seen and the frames behind it. In the second case
`kept` is data that is added to what is held and not seen. -/
inductive Fetches (enough : Bytes → Prop) : Bool → Bytes → List WireFrame → Bytes →
    List WireFrame → Bytes → List Bytes → Prop
  | enough {linked : Bool} {held : Bytes} {frames : List WireFrame} (isEnough : enough held) :
      Fetches enough linked held frames held frames [] []
  | cut {linked : Bool} {held payload : Bytes} {frames rest : List WireFrame} {pongs : List Bytes}
      (few : ¬enough held) (receives : Receives linked frames .interrupted payload rest pongs) :
      Fetches enough linked held frames held rest payload pongs
  | received {linked : Bool} {held payload whole kept : Bytes} {frames rest behind : List WireFrame}
      {pongs pongs' : List Bytes} (few : ¬enough held)
      (receives : Receives linked frames .complete payload rest pongs)
      (fetches : Fetches enough true (held ++ payload) rest whole behind kept pongs') :
      Fetches enough linked held frames whole behind kept (pongs ++ pongs')

section Fetches

variable {enough : Bytes → Prop} {linked : Bool} {held whole kept : Bytes}
  {frames behind : List WireFrame} {pongs : List Bytes}

/-- What is held is seen first. -/
theorem Fetches.isPrefix (fetches : Fetches enough linked held frames whole behind kept pongs) :
    held <+: whole := by
  induction fetches with
  | enough isEnough => exact List.prefix_refl _
  | cut few receives => exact List.prefix_refl _
  | received few receives fetches ih => exact (List.prefix_append _ _).trans ih

/-- No data is lost. -/
theorem Fetches.payloads (fetches : Fetches enough linked held frames whole behind kept pongs) :
    held ++ payloads frames = whole ++ kept ++ payloads behind := by
  induction fetches with
  | enough isEnough => simp
  | cut few receives => rw [receives.payloads, List.append_assoc]
  | received few receives fetches ih => rw [receives.payloads, ← List.append_assoc, ih]

/-- Without an element, nothing is kept of a message that is not complete. -/
theorem Fetches.kept_of_nil (fetches : Fetches enough linked held frames whole behind kept pongs)
    (isLinked : linked = !held.isEmpty) (nothing : whole = []) : kept = [] := by
  cases fetches with
  | enough isEnough => rfl
  | cut few receives =>
      rw [isLinked, nothing] at receives
      exact receives.payload_of_unlinked (by decide)
  | received few receives fetches =>
      have front := fetches.isPrefix
      rw [nothing] at front
      exact absurd (List.append_eq_nil_iff.mp (List.prefix_nil.mp front)).2 (receives.nonempty rfl)

/-- Only what is seen decides which frames are received. -/
theorem Fetches.imp {enough' : Bytes → Prop}
    (fetches : Fetches enough linked held frames whole behind kept pongs)
    (same : ∀ more, enough (held ++ more) ↔ enough' (held ++ more)) :
    Fetches enough' linked held frames whole behind kept pongs := by
  induction fetches with
  | enough isEnough =>
      have here := same []
      rw [List.append_nil] at here
      exact .enough (here.mp isEnough)
  | cut few receives =>
      have here := same []
      rw [List.append_nil] at here
      exact .cut (fun isEnough => few (here.mpr isEnough)) receives
  | received few receives fetches ih =>
      have here := same []
      rw [List.append_nil] at here
      refine .received (fun isEnough => few (here.mpr isEnough)) receives (ih fun more => ?_)
      rw [List.append_assoc]
      exact same _

end Fetches

variable {t t' : Transport} {socket : SOCKET} {linked : Bool} {start pos : Nat}
  {held whole kept : Bytes} {ready rest later behind : List WireFrame} {coming : Bytes}
  {pongs : List Bytes}

theorem ponged_append (socket : SOCKET) (first second : List Bytes)
    (pongs : List (SOCKET × Bytes)) :
    ponged socket (first ++ second) pongs = ponged socket second (ponged socket first pongs) := by
  simp [ponged]

/-- `WebSocket_receiveFrame` adds to what is held. -/
theorem Keeps.receive (keeps : Keeps t socket linked start pos held ready later coming)
    (positive : 0 < socket) (websocket_key : Option Bytes) {rc : CompletionCode} {payload : Bytes}
    (receives : Receives linked ready rc payload rest pongs) :
    ∃ t', receiveFrame t (webSocket socket websocket_key) =
        some (rc, webSocket socket websocket_key, t') ∧
      Keeps t' socket (linked || decide (rc = .complete)) start pos (held ++ payload) rest later
        coming ∧
      t'.pongs = ponged socket pongs t.pongs := by
  rcases keeps with ⟨⟨data, holds, rfl, isHeld⟩, carries⟩
  rcases carries.receive receives positive
    (rfl : (webSocket socket websocket_key).socket = socket) rfl holds with
    ⟨t', received, holds', pongs', _, carries'⟩
  refine ⟨t', received, ⟨⟨_, holds', ?_, ?_⟩, carries'⟩, pongs'⟩
  · cases rc <;> cases data <;> rfl
  · cases data with
    | some data =>
        have bound : start ≤ data.length := Nat.le_trans (Nat.le_add_right _ _) holds.2
        have grown : ((holding (some data) rc payload).getD []) = data ++ payload := by
          cases rc <;> rfl
        rw [grown, List.drop_append_of_le_length bound]
        exact congrArg (· ++ payload) isHeld
    | none =>
        have zero : start = 0 := (Nat.add_eq_zero_iff.mp holds.2).1
        subst zero
        have empty : held = [] := isHeld.symm
        rw [empty]
        by_cases completes : rc = .complete
        · rw [completes]
          rfl
        · rw [receives.payload_of_unlinked completes]
          cases rc with
          | complete => exact absurd rfl completes
          | interrupted => rfl
          | socketError => rfl

/-- There is an element when data is held, and the position is in it. -/
theorem Keeps.first (keeps : Keeps t socket linked start pos held ready later coming)
    (isLinked : linked = true) :
    ∃ data, t.in_frames = [some ⟨data, start + pos⟩] ∧ start + pos ≤ data.length ∧
      data.drop start = held := by
  rcases keeps.held with ⟨data, holds, isSome, isHeld⟩
  cases data with
  | none => cases isSome.trans isLinked
  | some data => exact ⟨data, holds.1, holds.2, isHeld⟩

theorem Keeps.unlinked (keeps : Keeps t socket linked start pos held ready later coming)
    (isUnlinked : linked = false) : t.in_frames = [] ∧ start = 0 ∧ pos = 0 ∧ held = [] := by
  rcases keeps.held with ⟨data, holds, isSome, isHeld⟩
  cases data with
  | some data => cases isSome.trans isUnlinked
  | none =>
      refine ⟨holds.1, (Nat.add_eq_zero_iff.mp holds.2).1, (Nat.add_eq_zero_iff.mp holds.2).2, ?_⟩
      rw [← isHeld]
      exact List.drop_nil

theorem Keeps.linked_of_ne_nil (keeps : Keeps t socket linked start pos held ready later coming)
    (some : held ≠ []) : linked = true := by
  cases isLinked : linked with
  | true => rfl
  | false => exact absurd (keeps.unlinked isLinked).2.2.2 some

/-- The length of the first element. -/
theorem length_of_drop {data : Bytes} (bound : start + pos ≤ data.length)
    (isHeld : data.drop start = held) : data.length = start + held.length := by
  rw [← isHeld, List.length_drop]
  omega

/-- What the first element has left. -/
theorem Keeps.unread (keeps : Keeps t socket linked start pos held ready later coming)
    {frame : Frame} (isFirst : firstFrame t = some (some frame)) :
    frame.unread = held.drop pos ∧ frame.pos = start + pos := by
  cases isLinked : linked with
  | false =>
      rw [firstFrame, (keeps.unlinked isLinked).1] at isFirst
      cases isFirst
  | true =>
      rcases keeps.first isLinked with ⟨data, in_frames, bound, isHeld⟩
      simp only [firstFrame, in_frames, Option.some.injEq] at isFirst
      subst isFirst
      rw [← isHeld, List.drop_drop]
      exact ⟨rfl, rfl⟩

theorem takeChar_of_first {data : Bytes} {c : UInt8} (isFirst : t.in_frames = [some ⟨data, pos⟩])
    (isNext : data[pos]? = some c) (net : Net) (rc : CompletionCode) :
    ∃ t', takeChar t net (some ⟨data, pos⟩) rc = (.complete, some c, net, t') ∧
      t'.in_frames = [some ⟨data, pos + 1⟩] ∧ t'.sockets = t.sockets ∧
      t'.frame_buffer = t.frame_buffer ∧ t'.frame_buffer_index = t.frame_buffer_index ∧
      t'.pongs = t.pongs := by
  refine ⟨seek t (pos + 1), ?_, ?_, ?_⟩
  · simp [takeChar, isNext]
  · simp [seek, isFirst]
  · simp [seek, isFirst]

/-- The next byte is stored. -/
theorem Keeps.takeChar (keeps : Keeps t socket linked start pos held ready later coming) {c : UInt8}
    (isNext : held[pos]? = some c) (net : Net) (rc : CompletionCode) :
    ∃ frame t', firstFrame t = some (some frame) ∧ frame.data.length ≠ frame.pos ∧
      WebSocket.takeChar t net (some frame) rc = (.complete, some c, net, t') ∧
      Keeps t' socket linked start (pos + 1) held ready later coming ∧ t'.pongs = t.pongs := by
  have inside : pos < held.length := (List.getElem?_eq_some_iff.mp isNext).1
  have isLinked : linked = true := by
    apply keeps.linked_of_ne_nil
    rintro rfl
    cases inside
  rcases keeps.first isLinked with ⟨data, isFirst, bound, isHeld⟩
  have length := length_of_drop bound isHeld
  have isByte : data[start + pos]? = some c := by
    rw [← isHeld, List.getElem?_drop] at isNext
    exact isNext
  rcases takeChar_of_first isFirst isByte net rc with
    ⟨t', taken, in_frames, sockets, buffer, index, pongs⟩
  refine ⟨⟨data, start + pos⟩, t', by simp [firstFrame, isFirst], ?_, taken,
    ⟨⟨some data, ?_, ?_, isHeld⟩,
    keeps.carries.congr sockets buffer index⟩, pongs⟩
  · simp only
    omega
  · exact ⟨in_frames, by omega⟩
  · rw [isLinked]
    rfl

/-- All that is held is read. -/
theorem Keeps.atEnd (keeps : Keeps t socket linked start pos held ready later coming)
    (all : held.length ≤ pos) :
    ∃ frame, firstFrame t = some frame ∧
      (frame.all fun frame => frame.data.length = frame.pos) = true := by
  cases isLinked : linked with
  | true =>
      rcases keeps.first isLinked with ⟨data, isFirst, bound, isHeld⟩
      have length := length_of_drop bound isHeld
      refine ⟨some ⟨data, start + pos⟩, by simp [firstFrame, isFirst], ?_⟩
      simp only [Option.all_some, decide_eq_true_eq]
      omega
  | false =>
      exact ⟨none, by simp [firstFrame, (keeps.unlinked isLinked).1], rfl⟩

section Getch

variable (keeps : Keeps t socket linked start pos held ready later coming)
  (websocket_key : Option Bytes)

include keeps

/-- `WebSocket_getch` while there is data. -/
theorem Keeps.getch_next {c : UInt8} (isNext : held[pos]? = some c) :
    ∃ t', getch t (webSocket socket websocket_key) =
        some (.complete, some c, webSocket socket websocket_key, t') ∧
      Keeps t' socket linked start (pos + 1) held ready later coming ∧ t'.pongs = t.pongs := by
  rcases keeps.takeChar isNext (webSocket socket websocket_key) .socketError with
    ⟨frame, t', isFirst, more, taken, keeps', pongs⟩
  refine ⟨t', ?_, keeps', pongs⟩
  simp [getch, webSocket, isFirst, more]
  exact taken

/-- When all data is read, `WebSocket_getch` receives a message. -/
theorem Keeps.getch_received (positive : 0 < socket) (all : pos = held.length) {c : UInt8}
    {payload : Bytes} (receives : Receives linked ready .complete (c :: payload) rest pongs) :
    ∃ t', getch t (webSocket socket websocket_key) =
        some (.complete, some c, webSocket socket websocket_key, t') ∧
      Keeps t' socket true start (pos + 1) (held ++ c :: payload) rest later coming ∧
      t'.pongs = ponged socket pongs t.pongs := by
  rcases keeps.atEnd (Nat.le_of_eq all.symm) with ⟨frame, isFirst, isEnd⟩
  rcases keeps.receive positive websocket_key receives with ⟨t₁, received, keeps₁, pongs₁⟩
  have isNext : (held ++ c :: payload)[pos]? = some c := by
    rw [all, List.getElem?_append_right (Nat.le_refl _), Nat.sub_self]
    rfl
  rcases keeps₁.takeChar isNext (webSocket socket websocket_key) .complete with
    ⟨frame', t', isFirst', _, taken, keeps', pongs'⟩
  refine ⟨t', ?_, ?_, pongs'.trans pongs₁⟩
  · simp only [getch, show (webSocket socket websocket_key).websocket = true from rfl,
      if_true, isFirst,
      Option.bind_some, isEnd, received, isFirst', Option.map_some, taken]
  · rw [decide_eq_true rfl, Bool.or_true] at keeps'
    exact keeps'

theorem Keeps.getch_interrupted (positive : 0 < socket) (all : pos = held.length) {payload : Bytes}
    (receives : Receives linked ready .interrupted payload rest pongs) :
    ∃ t', getch t (webSocket socket websocket_key) =
        some (.interrupted, none, webSocket socket websocket_key, t') ∧
      Keeps t' socket linked start pos (held ++ payload) rest later coming ∧
      t'.pongs = ponged socket pongs t.pongs := by
  rcases keeps.atEnd (Nat.le_of_eq all.symm) with ⟨frame, isFirst, isEnd⟩
  rcases keeps.receive positive websocket_key receives with ⟨t₁, received, keeps₁, pongs₁⟩
  refine ⟨t₁, ?_, ?_, pongs₁⟩
  · simp only [getch, show (webSocket socket websocket_key).websocket = true from rfl,
      if_true, isFirst,
      Option.bind_some, isEnd, received]
  · rw [decide_eq_false (by decide), Bool.or_false] at keeps₁
    exact keeps₁

end Getch

/-- The first element is moved to `last_frame`. -/
theorem Keeps.detach (keeps : Keeps t socket linked start pos held ready later coming) :
    Keeps { t with in_frames := [] } socket false 0 0 [] ready later coming :=
  ⟨⟨none, ⟨rfl, rfl⟩, rfl, rfl⟩, keeps.carries.congr rfl rfl rfl⟩

/-- The position is moved inside the first element. -/
theorem Keeps.seek (keeps : Keeps t socket true start pos held ready later coming) {target : Nat}
    (inside : target ≤ start + held.length) :
    ∃ data, t.in_frames = [some ⟨data, start + pos⟩] ∧ start + pos ≤ data.length ∧
      data.drop start = held ∧
      (WebSocket.seek t target).in_frames = [some ⟨data, target⟩] ∧ target ≤ data.length ∧
      Carries (WebSocket.seek t target) socket ready later coming ∧
      (WebSocket.seek t target).pongs = t.pongs := by
  rcases keeps.first rfl with ⟨data, isFirst, bound, isHeld⟩
  have length := length_of_drop bound isHeld
  refine ⟨data, isFirst, bound, isHeld, by simp [WebSocket.seek, isFirst], by omega, ?_, ?_⟩
  · apply keeps.carries.congr <;> simp [WebSocket.seek, isFirst]
  · simp [WebSocket.seek, isFirst]

/-- Enough data is held. -/
theorem Keeps.gather_enough (keeps : Keeps t socket true start pos held ready later coming)
    {n : Nat} (isEnough : pos + n ≤ held.length) (websocket_key : Option Bytes) {frame : Frame}
    (isFirst : firstFrame t = some (some frame)) (fuel : Nat) :
    ∃ t' start', gather t (webSocket socket websocket_key) n frame (fuel + 1) =
        some (held.drop pos, webSocket socket websocket_key, t') ∧
      Keeps t' socket (decide (pos + n < held.length)) start' 0 (held.drop (pos + n)) ready later
        coming ∧
      t'.pongs = t.pongs := by
  have inside : start + pos + n ≤ start + held.length := by omega
  rcases keeps.seek inside with ⟨data, in_frames, bound, isHeld, sought, inside', carries, pongs⟩
  rcases keeps.unread isFirst with ⟨unread, isPos⟩
  have unreadLength : (held.drop pos).length = held.length - pos := List.length_drop
  by_cases more : pos + n < held.length
  · refine ⟨WebSocket.seek t (start + pos + n), start + pos + n, ?_,
      ⟨⟨some data, ⟨sought, inside'⟩, (decide_eq_true more).symm, ?_⟩, carries⟩, pongs⟩
    · simp only [gather, unread, isPos]
      rw [if_neg (by omega), if_pos (by omega)]
    · rw [← isHeld, List.drop_drop, Nat.add_assoc]
      rfl
  · have none : held.drop (pos + n) = [] := List.drop_of_length_le (by omega)
    refine ⟨{ t with in_frames := [] }, 0, ?_, ?_, rfl⟩
    · simp only [gather, unread]
      rw [if_neg (by omega), if_neg (by omega), in_frames]
      rfl
    · rw [none, decide_eq_false more]
      exact keeps.detach

/-- The loop of `WebSocket_getdata`. -/
theorem Keeps.gather {n : Nat}
    (fetches : Fetches (fun held => pos + n ≤ held.length) linked held ready whole
      behind kept pongs)
    (keeps : Keeps t socket linked start pos held ready later coming) (isLinked : linked = true)
    (bound : pos ≤ held.length) (positive : 0 < socket) (websocket_key : Option Bytes)
    {frame : Frame} (isFirst : firstFrame t = some (some frame)) {fuel : Nat}
    (enoughFuel : ready.length < fuel) :
    ∃ t', WebSocket.gather t (webSocket socket websocket_key) n frame fuel =
        some (whole.drop pos, webSocket socket websocket_key, t') ∧
      t'.pongs = ponged socket pongs t.pongs ∧
      if pos + n ≤ whole.length then
        ∃ start', Keeps t' socket (decide (pos + n < whole.length)) start' 0 (whole.drop (pos + n))
          behind later coming
      else Keeps t' socket true start pos (whole ++ kept) behind later coming := by
  induction fetches generalizing t frame fuel with
  | enough isEnough =>
      subst isLinked
      rcases Nat.exists_eq_add_one.mpr (Nat.zero_lt_of_lt enoughFuel) with ⟨fuel, rfl⟩
      rcases keeps.gather_enough isEnough websocket_key isFirst fuel with
        ⟨t', start', result, keeps', pongs'⟩
      refine ⟨t', result, pongs', ?_⟩
      rw [if_pos isEnough]
      exact ⟨start', keeps'⟩
  | @cut linked held payload frames rest pongs few receives =>
      rcases Nat.exists_eq_add_one.mpr (Nat.zero_lt_of_lt enoughFuel) with ⟨fuel, rfl⟩
      rcases keeps.receive positive websocket_key receives with ⟨t', received, keeps', pongs'⟩
      refine ⟨t', ?_, pongs', ?_⟩
      · have unreadLength : (held.drop pos).length = held.length - pos := List.length_drop
        simp only [WebSocket.gather, (keeps.unread isFirst).1]
        rw [if_pos (by omega), received]
        rfl
      · rw [if_neg few]
        rw [isLinked, Bool.true_or] at keeps'
        exact keeps'
  | @received linked held payload whole kept frames rest behind pongs pongs' few
      receives fetches ih =>
      rcases Nat.exists_eq_add_one.mpr (Nat.zero_lt_of_lt enoughFuel) with ⟨fuel, rfl⟩
      rcases keeps.receive positive websocket_key receives with ⟨t₁, received, keeps₁, pongs₁⟩
      rw [isLinked, Bool.true_or] at keeps₁
      have fewer := receives.length_lt rfl
      rcases keeps₁.first rfl with ⟨data₁, in_frames₁, _, _⟩
      have isFirst₁ : firstFrame t₁ = some (some ⟨data₁, start + pos⟩) := by
        simp [firstFrame, in_frames₁]
      have bound₁ : pos ≤ (held ++ payload).length := by
        rw [List.length_append]
        omega
      rcases ih keeps₁ rfl bound₁ isFirst₁ (show rest.length < fuel by omega) with
        ⟨t', result, pongs₂, spec⟩
      refine ⟨t', ?_, ?_, spec⟩
      · have unreadLength : (held.drop pos).length = held.length - pos := List.length_drop
        simp only [WebSocket.gather, (keeps.unread isFirst).1]
        rw [if_pos (by omega), received]
        simp only [Option.bind_some, isFirst₁]
        exact result
      · rw [pongs₂, pongs₁, ponged_append]

end WebSocket

end Paho
