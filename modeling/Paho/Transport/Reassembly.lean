import Paho.Transport.Chunking
import Paho.Transport.FrameData

/-!
# Packets over WebSocket frames

`MQTTPacket_Factory` on a connection that carries frames. It reads a packet from the data of the
frames, or puts the position back to where the packet begins.
-/

namespace Paho

open Sockets PacketStream Splitter

namespace WebSocket

open WireFrame

/-- The data begins with a complete packet. -/
def HasPacket (held : Bytes) : Prop :=
  takePacket held ≠ none

instance (held : Bytes) : Decidable (HasPacket held) :=
  inferInstanceAs (Decidable (takePacket held ≠ none))

/-- A packet is read from the position `start` on: `taken` was read, and `rest` is what is seen
after it. `answered` are the PONG frames that will have been sent. -/
def Reading (t : Transport) (socket : SOCKET) (start : Nat) (taken rest : Bytes)
    (behind : List WireFrame) (kept : Bytes) (later : List WireFrame) (coming : Bytes)
    (answered : List (SOCKET × Bytes)) : Prop :=
  ∃ ready left pongs,
    Keeps t socket (!(taken ++ left).isEmpty) start taken.length (taken ++ left) ready
      later coming ∧
    Fetches HasPacket (!(taken ++ left).isEmpty) (taken ++ left) ready (taken ++ rest) behind kept
      pongs ∧
    ponged socket pongs t.pongs = answered

variable {t : Transport} {socket : SOCKET} {linked : Bool} {start pos : Nat}
  {held whole taken rest kept : Bytes} {ready behind later : List WireFrame} {coming : Bytes}
  {answered : List (SOCKET × Bytes)} {pongs : List Bytes}

/-- There is an element when there is data. -/
theorem Fetches.isEmpty_kept {enough : Bytes → Prop}
    (fetches : Fetches enough linked held ready whole behind kept pongs)
    (isLinked : linked = !held.isEmpty) : (whole ++ kept).isEmpty = whole.isEmpty := by
  cases whole with
  | nil => rw [fetches.kept_of_nil isLinked rfl, List.append_nil]
  | cons first whole => rfl

/-- A byte of a packet is read. -/
theorem Reading.getch_cons {c : UInt8}
    (reading : Reading t socket start taken (c :: rest) behind kept later coming answered)
    (positive : 0 < socket) (websocket_key : Option Bytes) :
    ∃ t', getch t (webSocket socket websocket_key) =
        some (.complete, some c, webSocket socket websocket_key, t') ∧
      Reading t' socket start (taken ++ [c]) rest behind kept later coming answered := by
  rcases reading with ⟨ready, left, pongs, keeps, fetches, isAnswered⟩
  have same (more : Bytes) : taken ++ c :: more = taken ++ [c] ++ more := List.append_cons _ _ _
  have length : (taken ++ [c]).length = taken.length + 1 := List.length_append
  cases left with
  | cons first left =>
      -- the byte is in the first element already
      have front := (List.prefix_append_right_inj taken).mp fetches.isPrefix
      rcases List.cons_prefix_cons.mp front with ⟨rfl, _⟩
      have isNext : (taken ++ first :: left)[taken.length]? = some first := by simp
      rcases keeps.getch_next websocket_key isNext with ⟨t', read, keeps', pongs'⟩
      refine ⟨t', read, ready, left, pongs, ?_, ?_, ?_⟩
      · rw [length, ← same]
        exact keeps'
      · rw [← same, ← same]
        exact fetches
      · rw [pongs']
        exact isAnswered
  | nil =>
      -- all of the first element is read, so that a message is received
      rw [List.append_nil] at keeps fetches
      generalize isWhole : taken ++ c :: rest = whole at fetches
      have longer : taken ≠ whole := by
        rintro rfl
        simp at isWhole
      cases fetches with
      | enough isEnough => exact absurd rfl longer
      | cut few receives => exact absurd rfl longer
      | @received _ _ payload _ _ _ frames _ pongs pongs₂ few receives fetches' =>
          cases payload with
          | nil => exact absurd rfl (receives.nonempty rfl)
          | cons first more =>
              have front := fetches'.isPrefix
              rw [← isWhole] at front
              have front' := (List.prefix_append_right_inj taken).mp front
              rcases List.cons_prefix_cons.mp front' with ⟨rfl, _⟩
              rcases keeps.getch_received websocket_key positive rfl receives with
                ⟨t', read, keeps', pongs'⟩
              have isLinked : (!(taken ++ [first] ++ more).isEmpty) = true := by simp
              refine ⟨t', read, frames, more, pongs₂, ?_, ?_, ?_⟩
              · rw [isLinked, length, ← same]
                exact keeps'
              · rw [isLinked, ← same, ← same, isWhole]
                exact fetches'
              · rw [pongs', ← ponged_append]
                exact isAnswered

/-- There is no further byte. -/
theorem Reading.getch_nil
    (reading : Reading t socket start taken [] behind kept later coming answered)
    (positive : 0 < socket) (websocket_key : Option Bytes) (incomplete : takePacket taken = none) :
    ∃ t', getch t (webSocket socket websocket_key) =
        some (.interrupted, none, webSocket socket websocket_key, t') ∧
      Keeps t' socket (!(taken ++ kept).isEmpty) start taken.length (taken ++ kept) behind later
        coming ∧
      t'.pongs = answered := by
  rcases reading with ⟨ready, left, pongs, keeps, fetches, isAnswered⟩
  have none := List.prefix_nil.mp ((List.prefix_append_right_inj taken).mp fetches.isPrefix)
  subst none
  simp only [List.append_nil] at keeps fetches
  rw [fetches.isEmpty_kept rfl]
  generalize isWhole : taken = whole at fetches
  cases fetches with
  | enough isEnough =>
      rw [isWhole] at incomplete
      exact absurd incomplete isEnough
  | cut few receives =>
      subst isWhole
      rcases keeps.getch_interrupted websocket_key positive rfl receives with
        ⟨t', read, keeps', pongs'⟩
      exact ⟨t', read, keeps', pongs'.trans isAnswered⟩
  | received few receives fetches' =>
      have short := fetches'.isPrefix.length_le
      rw [List.length_append] at short
      have some := List.length_pos_of_ne_nil (receives.nonempty rfl)
      omega

/-- The position is put back to where the packet begins. -/
theorem Keeps.rewind {Pack : Type}
    (keeps : Keeps t socket linked start pos held ready later coming)
    (websocket_key : Option Bytes) :
    ∃ t', @MQTTPacket.rewind Pack start (webSocket socket websocket_key) t =
        some (.none .interrupted, webSocket socket websocket_key, t') ∧
      Keeps t' socket linked start 0 held ready later coming ∧ t'.pongs = t.pongs := by
  cases isLinked : linked with
  | true =>
      rw [isLinked] at keeps
      rcases keeps.seek (Nat.le_add_right start held.length) with
        ⟨data, isFirst, bound, isHeld, sought, inside, carries, pongs⟩
      refine ⟨WebSocket.seek t start, ?_,
        ⟨⟨some data, ⟨sought, inside⟩, rfl, isHeld⟩, carries⟩, pongs⟩
      simp [MQTTPacket.rewind, framePosSeekTo, firstFrame, isFirst]
  | false =>
      rcases keeps.unlinked isLinked with ⟨isEmpty, rfl, rfl, rfl⟩
      refine ⟨t, ?_, ?_, rfl⟩
      · simp [MQTTPacket.rewind, framePosSeekTo, firstFrame, isEmpty, WebSocket.seek]
      · rw [← isLinked]
        exact keeps

theorem Keeps.framePos (keeps : Keeps t socket linked start 0 held ready later coming) :
    WebSocket.framePos t = some start := by
  cases isLinked : linked with
  | true =>
      rcases keeps.first isLinked with ⟨data, isFirst, _⟩
      simp [WebSocket.framePos, firstFrame, isFirst]
  | false =>
      rcases keeps.unlinked isLinked with ⟨isEmpty, rfl, _⟩
      simp [WebSocket.framePos, firstFrame, isEmpty]

/-- Behind the header, the rest of a packet is read, or what there is of it is kept. -/
theorem Reading.getdata
    (reading : Reading t socket start taken rest behind kept later coming answered)
    (positive : 0 < socket) (websocket_key : Option Bytes) (begun : taken ≠ []) {n : Nat}
    {header : UInt8}
    (isPacket : ∀ left, takePacket (taken ++ left) =
      if n ≤ left.length then some ((header, left.take n), left.drop n) else none) :
    ∃ collected t', WebSocket.getdata t (webSocket socket websocket_key) n =
        some (collected, webSocket socket websocket_key, t') ∧
      (0 < n → collected ≠ none) ∧ t'.pongs = answered ∧
      if n ≤ rest.length then
        n ≤ (collected.getD []).length ∧ (collected.getD []).take n = rest.take n ∧
          ∃ start', Keeps t' socket (!(rest.drop n).isEmpty) start' 0 (rest.drop n)
          behind later coming
      else
        (collected.getD []).length < n ∧
          Keeps t' socket true start taken.length (taken ++ rest ++ kept) behind later coming := by
  rcases reading with ⟨ready, left, pongs, keeps, fetches, isAnswered⟩
  have isLinked : (!(taken ++ left).isEmpty) = true := by simp [begun]
  rw [isLinked] at keeps fetches
  have hasPacket (left : Bytes) :
      HasPacket (taken ++ left) ↔ taken.length + n ≤ (taken ++ left).length := by
    rw [HasPacket, isPacket, List.length_append, Nat.add_le_add_iff_left]
    split <;> simp [*]
  have fetches' : Fetches (fun held => taken.length + n ≤ held.length) true (taken ++ left) ready
      (taken ++ rest) behind kept pongs := by
    apply fetches.imp
    intro more
    rw [List.append_assoc]
    exact hasPacket (left ++ more)
  rcases keeps.first rfl with ⟨data, isFirst, bound, isHeld⟩
  have first : firstFrame t = some (some ⟨data, start + taken.length⟩) := by
    simp [firstFrame, isFirst]
  rcases Nat.eq_zero_or_pos n with rfl | some
  · -- nothing behind the header: an element that is used up is moved away
    have length := length_of_drop bound isHeld
    rw [List.length_append] at length
    generalize isWhole : taken ++ rest = whole at fetches'
    cases fetches' with
    | cut few receives => simp at few
    | received few receives fetches' => simp at few
    | enough isEnough =>
        have same := List.append_cancel_left isWhole
        subst same
        simp only [Nat.zero_le, if_true, List.drop_zero, List.take_zero]
        cases rest with
        | nil =>
            refine ⟨.some [], { t with in_frames := [] }, ?_, by simp, isAnswered, trivial, trivial,
              0, keeps.detach⟩
            have atEnd : start + taken.length = data.length := by
              rw [length, List.length_nil, Nat.add_zero]
            simp [WebSocket.getdata, webSocket, first, atEnd, isFirst]
        | cons c rest =>
            refine ⟨none, t, ?_, by simp, isAnswered, trivial, trivial, start + taken.length,
              ⟨⟨.some data, ⟨isFirst, bound⟩, rfl, ?_⟩, keeps.carries⟩⟩
            · have unread : start + taken.length ≠ data.length := by
                rw [length, List.length_cons]
                omega
              simp [WebSocket.getdata, webSocket, first, unread]
            · rw [← List.drop_drop]
              exact (congrArg (List.drop taken.length) isHeld).trans List.drop_left
  · have enoughFuel : ready.length < rounds t (webSocket socket websocket_key) :=
      keeps.carries.lt_rounds rfl
    have begins : taken.length ≤ (taken ++ left).length := by
      rw [List.length_append]
      omega
    rcases keeps.gather fetches' rfl begins positive websocket_key first enoughFuel with
      ⟨t', result, pongs', spec⟩
    rw [List.drop_left] at result
    refine ⟨rest, t', ?_, by simp, pongs'.trans isAnswered, ?_⟩
    · simp only [WebSocket.getdata, webSocket, first, Option.bind_some, if_true]
      rw [if_neg (Nat.ne_of_gt some)]
      exact (congrArg (Option.map _) result).trans rfl
    · have length : (taken ++ rest).length = taken.length + rest.length := List.length_append
      by_cases enough : n ≤ rest.length
      · rw [if_pos (by omega)] at spec
        rcases spec with ⟨start', keeps'⟩
        rw [if_pos enough]
        refine ⟨enough, rfl, start', ?_⟩
        have more : decide (taken.length + n < (taken ++ rest).length) =
            !(rest.drop n).isEmpty := by
          rw [length, Bool.eq_iff_iff]
          simp
        rw [more, ← List.drop_drop, List.drop_left] at keeps'
        exact keeps'
      · rw [if_neg (by omega)] at spec
        rw [if_neg enough]
        exact ⟨Nat.lt_of_not_le enough, spec⟩

end WebSocket

namespace MQTTPacket

open WebSocket

variable {t : Transport} {socket : SOCKET} {start : Nat} {held rest whole kept : Bytes}
  {ready behind later : List WireFrame} {coming : Bytes} {answered : List (SOCKET × Bytes)}
  {pongs : List Bytes}

/-- A header byte and a part of its length field are no packet. -/
theorem takePacket_cons {header : UInt8} {bytes : Bytes}
    (incomplete : remainingLength bytes = .incomplete) : takePacket (header :: bytes) = none := by
  simp [takePacket, incomplete]

/-- `MQTTPacket_decode` over frames; `field` is the length field so far. -/
theorem decodeLoop_webSocket (positive : 0 < socket) (websocket_key : Option Bytes)
    {left multiplier value : Nat} {header : UInt8} {field : Bytes}
    (continues : ∀ other, remainingLength (field ++ other) =
      lengthField left multiplier value other)
    (reading : WebSocket.Reading t socket start (header :: field) rest behind kept later coming
      answered) :
    ∃ rc v t', decodeLoop (webSocket socket websocket_key) left t multiplier value =
        some (rc, v, webSocket socket websocket_key, t') ∧
      match lengthField left multiplier value rest with
      | .complete n rest' => rc = .complete ∧ v = n ∧ ∃ field',
          WebSocket.Reading t' socket start (header :: field') rest' behind kept later coming
              answered ∧
            field' ++ rest' = field ++ rest ∧
            ∀ other, remainingLength (field' ++ other) = .complete n other
      | .incomplete => rc = .interrupted ∧ ∃ pos,
          Keeps t' socket (!(header :: (field ++ rest) ++ kept).isEmpty) start pos
              (header :: (field ++ rest) ++ kept) behind later coming ∧
            t'.pongs = answered
      | .malformed => rc = .socketError := by
  induction left generalizing t field rest multiplier value with
  | zero => exact ⟨_, _, t, rfl, rfl⟩
  | succ left ih =>
      have incomplete := continues []
      rw [List.append_nil] at incomplete
      cases rest with
      | nil =>
          rcases reading.getch_nil positive websocket_key (takePacket_cons incomplete) with
            ⟨t', read, keeps, pongs⟩
          refine ⟨.interrupted, value, t', ?_, rfl, (header :: field).length, ?_, pongs⟩
          · exact (congrArg (Option.bind · _) read).trans rfl
          · rw [List.append_nil]
            exact keeps
      | cons c rest =>
          rcases reading.getch_cons positive websocket_key with ⟨t', read, reading'⟩
          have same : field ++ c :: rest = field ++ [c] ++ rest := List.append_cons _ _ _
          rw [same]
          by_cases more : 128 ≤ c.toNat
          · have isField : lengthField (left + 1) multiplier value (c :: rest) =
                lengthField left (multiplier * 128) (value + c.toNat % 128 * multiplier) rest :=
              if_pos more
            have continues' : ∀ other, remainingLength (field ++ [c] ++ other) =
                lengthField left (multiplier * 128) (value + c.toNat % 128 * multiplier) other := by
              intro other
              rw [List.append_assoc, continues]
              exact if_pos more
            rcases ih continues' reading' with ⟨rc, v, t'', result, spec⟩
            refine ⟨rc, v, t'', ?_, ?_⟩
            · apply (congrArg (Option.bind · _) read).trans
              exact (if_pos more).trans result
            · rw [isField]
              exact spec
          · have isField : lengthField (left + 1) multiplier value (c :: rest) =
                .complete (value + c.toNat % 128 * multiplier) rest := if_neg more
            refine ⟨.complete, value + c.toNat % 128 * multiplier, t', ?_, ?_⟩
            · apply (congrArg (Option.bind · _) read).trans
              exact if_neg more
            · rw [isField]
              refine ⟨rfl, rfl, field ++ [c], reading', rfl, ?_⟩
              intro other
              rw [List.append_assoc, continues]
              exact if_neg more

/-- `MQTTPacket_Factory` takes a packet off the data that is seen, or leaves it as it is. -/
theorem factory_webSocket {Pack : Type} (newPackets : NewPackets Pack) (positive : 0 < socket)
    (websocket_key : Option Bytes) (wellFormed : ¬Malformed whole)
    (keeps : Keeps t socket (!held.isEmpty) start 0 held ready later coming)
    (fetches : Fetches HasPacket (!held.isEmpty) held ready whole behind kept pongs) :
    ∃ r t', factory newPackets t (webSocket socket websocket_key) =
        some (r, webSocket socket websocket_key, t') ∧
      t'.pongs = ponged socket pongs t.pongs ∧
      match takePacket whole with
      | some (contents, rest) => r = result newPackets contents.1 contents.2 ∧
          ∃ start', Keeps t' socket (!rest.isEmpty) start' 0 rest behind later coming
      | none => r = .none .interrupted ∧
          Keeps t' socket (!(whole ++ kept).isEmpty) start 0 (whole ++ kept)
          behind later coming := by
  have framePos := keeps.framePos
  have reading : WebSocket.Reading t socket start [] whole behind kept later coming
      (ponged socket pongs t.pongs) := ⟨ready, held, pongs, keeps, fetches, rfl⟩
  have rewound {t' : Transport} {pos : Nat} (incomplete : takePacket whole = none)
      (keeps : Keeps t' socket (!(whole ++ kept).isEmpty) start pos (whole ++ kept)
        behind later coming)
      (pongs' : t'.pongs = ponged socket pongs t.pongs) :
      ∃ r t'', @rewind Pack start (webSocket socket websocket_key) t' =
          some (r, webSocket socket websocket_key, t'') ∧
        t''.pongs = ponged socket pongs t.pongs ∧
        match takePacket whole with
        | some (contents, rest) => r = result newPackets contents.1 contents.2 ∧
            ∃ start', Keeps t'' socket (!rest.isEmpty) start' 0 rest behind later coming
        | none => r = .none .interrupted ∧
            Keeps t'' socket (!(whole ++ kept).isEmpty) start 0 (whole ++ kept) behind later
              coming := by
    rcases @Keeps.rewind _ _ _ _ _ _ _ _ _ Pack keeps websocket_key with
      ⟨t'', sought, keeps', pongs''⟩
    rw [incomplete]
    exact ⟨_, t'', sought, pongs''.trans pongs', rfl, keeps'⟩
  cases whole with
  | nil =>
      rcases reading.getch_nil positive websocket_key rfl with ⟨t₁, read, keeps₁, pongs₁⟩
      have first : factory newPackets t (webSocket socket websocket_key) =
          rewind start (webSocket socket websocket_key) t₁ := by
        simp only [factory, framePos, Option.bind_some, read, afterHeader, leave]
      rw [first]
      exact rewound rfl keeps₁ pongs₁
  | cons header bytes =>
      rcases reading.getch_cons positive websocket_key with ⟨t₁, read, reading₁⟩
      rcases @decodeLoop_webSocket t₁ socket start bytes kept behind later coming _ positive
        websocket_key maxRemainingLengthBytes 1 0 header [] (fun _ => rfl) reading₁ with
        ⟨rc, v, t₂, decoded, spec⟩
      have first : factory newPackets t (webSocket socket websocket_key) =
          afterDecode newPackets start header v (webSocket socket websocket_key) t₂ rc := by
        simp only [factory, framePos, Option.bind_some, read, afterHeader, decode]
        rw [decoded]
        rfl
      have isField : lengthField maxRemainingLengthBytes 1 0 bytes = remainingLength bytes := rfl
      rw [isField] at spec
      cases field : remainingLength bytes with
      | malformed => exact absurd ⟨header, bytes, rfl, field⟩ wellFormed
      | incomplete =>
          rw [field] at spec
          rcases spec with ⟨rfl, pos, keeps₂, pongs₂⟩
          rw [first]
          exact rewound (takePacket_cons field) keeps₂ pongs₂
      | complete n rest =>
          rw [field] at spec
          rcases spec with ⟨rfl, rfl, front, reading₂, same, isFront⟩
          have isPacket (left : Bytes) : takePacket (header :: front ++ left) =
              if v ≤ left.length then some ((header, left.take v), left.drop v) else none := by
            simp [takePacket, isFront]
          have whole : header :: front ++ rest = header :: bytes := by
            rw [List.cons_append, same]
            rfl
          have isPacket' := isPacket rest
          rw [whole] at isPacket'
          rcases reading₂.getdata positive websocket_key (by simp) isPacket with
            ⟨collected, t₃, got, isSome, pongs₃, spec⟩
          have second : factory newPackets t (webSocket socket websocket_key) =
              afterData newPackets start header v collected
                (webSocket socket websocket_key) t₃ := by
            rw [first]
            simp only [afterDecode, got, Option.bind_some]
          have present : ¬(0 < v ∧ collected = none) := fun both => isSome both.1 both.2
          rw [second]
          simp only [afterData, if_neg present]
          split at spec
          next enough =>
            rcases spec with ⟨length, isData, start', keeps₃⟩
            rw [if_neg (by omega), isPacket', if_pos enough, isData]
            exact ⟨_, t₃, rfl, pongs₃, rfl, start', keeps₃⟩
          next few =>
            rw [if_neg few] at isPacket'
            rw [whole] at spec
            rw [if_pos spec.1]
            exact rewound isPacket' spec.2 pongs₃

end MQTTPacket

end Paho
