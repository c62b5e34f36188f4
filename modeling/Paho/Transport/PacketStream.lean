import Paho.Library.Splitter
import Paho.Transport.Factory

/-!
# Packets in a stream of bytes

What a stream of bytes begins with, as MQTT packets: a header byte, the remaining length in one to
four bytes, and as many bytes as it says.
-/

namespace Paho

namespace PacketStream

/-- The field for the remaining length at the front of a stream. -/
inductive LengthField where
  | complete (value : Nat) (rest : Bytes)
  | incomplete
  | malformed
  deriving DecidableEq, Repr

/-- Read the remaining length from at most `left` bytes. -/
def lengthField : Nat → Nat → Nat → Bytes → LengthField
  | 0, _, _, _ => .malformed
  | _ + 1, _, _, [] => .incomplete
  | left + 1, multiplier, value, c :: rest =>
      let value := value + c.toNat % 128 * multiplier
      if 128 ≤ c.toNat then lengthField left (multiplier * 128) value rest
      else .complete value rest

/-- The remaining length behind the header byte. -/
def remainingLength (bytes : Bytes) : LengthField :=
  lengthField MQTTPacket.maxRemainingLengthBytes 1 0 bytes

/-- The header byte and the rest of a packet, without its length. -/
abbrev Contents := UInt8 × Bytes

/-- Take a packet off a stream. -/
def takePacket : Bytes → Option (Contents × Bytes)
  | [] => none
  | header :: bytes =>
      match remainingLength bytes with
      | .complete n rest =>
      if n ≤ rest.length then some ((header, rest.take n), rest.drop n) else none
      | _ => none

variable {left multiplier value n : Nat} {bytes rest more : Bytes}

theorem lengthField_grows (complete : lengthField left multiplier value bytes = .complete n rest) :
    lengthField left multiplier value (bytes ++ more) = .complete n (rest ++ more) := by
  induction left generalizing multiplier value bytes with
  | zero => cases complete
  | succ left ih =>
      cases bytes with
      | nil => cases complete
      | cons c bytes =>
          simp only [lengthField, List.cons_append] at complete ⊢
          split at complete
          next continues =>
            rw [if_pos continues]
            exact ih complete
          next ends =>
            rw [if_neg ends]
            injection complete with same same'
            rw [same, same']

theorem lengthField_shrinks
    (complete : lengthField left multiplier value bytes = .complete n rest) :
    rest.length < bytes.length := by
  induction left generalizing multiplier value bytes with
  | zero => cases complete
  | succ left ih =>
      cases bytes with
      | nil => cases complete
      | cons c bytes =>
          simp only [lengthField] at complete
          split at complete
          · have shorter := ih complete
            simp only [List.length_cons]
            omega
          · injection complete with _ same
            simp [same]

/-- The packets of a stream, as a splitter. A packet that cannot be parsed ends the connection. -/
def packets {Pack : Type} (newPackets : NewPackets Pack) : Splitter UInt8 Contents where
  take := takePacket
  stops := fun contents =>
    match newPackets contents.1 contents.2 with
    | .bad => true
    | _ => false
  shrinks := by
    intro stream contents rest taken
    cases stream with
    | nil => cases taken
    | cons header bytes =>
        simp only [takePacket] at taken
        split at taken
        next n after complete =>
          split at taken
          · have shorter := lengthField_shrinks complete
            simp only [Option.some.injEq, Prod.mk.injEq] at taken
            rw [← taken.2, List.length_drop, List.length_cons]
            omega
          · cases taken
        · cases taken
  grows := by
    intro stream contents rest more taken
    cases stream with
    | nil => cases taken
    | cons header bytes =>
        simp only [takePacket, List.cons_append] at taken ⊢
        split at taken
        next n after complete =>
          split at taken
          next enough =>
            have grown : remainingLength (bytes ++ more) = .complete n (after ++ more) :=
              lengthField_grows complete
            simp only [Option.some.injEq, Prod.mk.injEq] at taken
            rcases taken with ⟨rfl, rfl⟩
            simp only [grown, List.length_append]
            rw [if_pos (by omega), List.take_append_of_le_length enough,
              List.drop_append_of_le_length enough]
          · cases taken
        · cases taken

end PacketStream

end Paho
