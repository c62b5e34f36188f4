import Paho.Library.Decoder
import Paho.Packet.Types
import Mathlib.Tactic.Ring

/-!
# Properties on the wire and in the store

The functions of `MQTTPacket.c` and `MQTTProperties.c` that write MQTT 5 properties into a buffer
and read them from one. A read past the end of the buffer has no outcome.
-/

namespace Paho

open Decoder

namespace MQTTPacket

/-- `MQTTPacket_encode`. -/
def encode (length : Nat) : Bytes :=
  if length / 128 = 0 then [UInt8.ofNat (length % 128)]
  else UInt8.ofNat (length % 128 + 128) :: encode (length / 128)

/-- `MQTTPacket_VBIlen`. -/
def vbiLen (rem_len : Int) : Nat :=
  if rem_len < 128 then 1
  else if rem_len < 16384 then 2
  else if rem_len < 2097152 then 3
  else 4

/-- The loop of `MQTTPacket_VBIdecode` on a buffer, with the number of bytes that `left` allows.
The byte after the last one is passed over when there are too many. -/
def vbiDecode : Nat → Nat → Nat → Nat → Decoder UInt8 (Nat × Nat)
  | 0, _, value, len => fun bytes => some ((value, len + 1), bytes.drop 1)
  | left + 1, multiplier, value, len => fun bytes =>
      match bytes with
      | [] => none
      | c :: rest =>
          if 128 ≤ c.toNat then
            vbiDecode left (multiplier * 128) (value + c.toNat % 128 * multiplier) (len + 1) rest
          else some ((value + c.toNat % 128 * multiplier, len + 1), rest)

/-- `MQTTPacket_decodeBuf`: the value and the number of bytes that were read. -/
def decodeBuf : Decoder UInt8 (Nat × Nat) :=
  vbiDecode 4 1 0 0

/-- `readChar`. -/
def readChar : Decoder UInt8 Nat
  | [] => none
  | c :: rest => some (c.toNat, rest)

/-- `readInt`. -/
def readInt : Decoder UInt8 Nat
  | first :: second :: rest => some (256 * first.toNat + second.toNat, rest)
  | _ => none

/-- `readInt4`. -/
def readInt4 : Decoder UInt8 Nat
  | first :: second :: third :: fourth :: rest =>
      some (16777216 * first.toNat + 65536 * second.toNat + 256 * third.toNat + fourth.toNat, rest)
  | _ => none

/-- `writeInt`. -/
def writeInt (anInt : Nat) : Bytes :=
  [UInt8.ofNat (anInt / 256), UInt8.ofNat (anInt % 256)]

/-- `writeInt4`. -/
def writeInt4 (anInt : Nat) : Bytes :=
  [UInt8.ofNat (anInt / 16777216), UInt8.ofNat (anInt % 16777216 / 65536),
    UInt8.ofNat (anInt % 65536 / 256), UInt8.ofNat (anInt % 256)]

/-- `writeMQTTLenString`. -/
def writeMQTTLenString (data : Bytes) : Bytes :=
  writeInt data.length ++ data

/-- `MQTTLenStringRead`. -/
def mqttLenStringRead : Decoder UInt8 Bytes :=
  andThen readInt symbols

variable {n : Nat} {rest : Bytes}

theorem encode_of_lt (small : n < 128) : encode n = [UInt8.ofNat n] := by
  have last : n / 128 = 0 := by omega
  have whole : n % 128 = n := by omega
  rw [encode, if_pos last, whole]

theorem encode_of_le (large : 128 ≤ n) :
    encode n = UInt8.ofNat (n % 128 + 128) :: encode (n / 128) := by
  have more : ¬n / 128 = 0 := by omega
  rw [encode, if_neg more]

theorem length_encode_pos (n : Nat) : 0 < (encode n).length := by
  rw [encode]
  split <;> simp

theorem length_encode (inRange : n < 268435456) : (encode n).length = vbiLen n := by
  unfold vbiLen
  by_cases one : n < 128
  · rw [encode_of_lt one, if_pos (by omega)]
    rfl
  · rw [encode_of_le (by omega), if_neg (by omega)]
    by_cases two : n < 16384
    · rw [encode_of_lt (by omega), if_pos (by omega)]
      rfl
    · rw [encode_of_le (by omega), if_neg (by omega)]
      by_cases three : n < 2097152
      · rw [encode_of_lt (by omega), if_pos (by omega)]
        rfl
      · rw [encode_of_le (by omega), if_neg (by omega), encode_of_lt (by omega)]
        rfl

theorem le_length_encode (outOfRange : 268435456 ≤ n) : 5 ≤ (encode n).length := by
  rw [encode_of_le (by omega), encode_of_le (by omega), encode_of_le (by omega),
    encode_of_le (by omega)]
  have last := length_encode_pos (n / 128 / 128 / 128 / 128)
  simp only [List.length_cons]
  omega

theorem vbiLen_le (rem_len : Int) : vbiLen rem_len ≤ 4 := by
  unfold vbiLen
  split_ifs <;> omega

theorem reads_vbiDecode_of_lt (small : n < 128) (left multiplier value len : Nat) :
    (vbiDecode (left + 1) multiplier value len).Reads (encode n)
      (value + n * multiplier, len + (encode n).length) rest := by
  have byte : (UInt8.ofNat n).toNat = n := by
    rw [UInt8.toNat_ofNat']
    omega
  have whole : n % 128 = n := by omega
  rw [encode_of_lt small]
  simp only [Reads, vbiDecode, List.cons_append, byte, whole, List.length_singleton]
  rw [if_neg (by omega)]
  rfl

theorem reads_vbiDecode {left : Nat} (inRange : n < 128 ^ (left + 1)) (multiplier value len : Nat) :
    (vbiDecode (left + 1) multiplier value len).Reads (encode n)
      (value + n * multiplier, len + (encode n).length) rest := by
  induction left generalizing n multiplier value len with
  | zero => exact reads_vbiDecode_of_lt (by simpa using inRange) 0 multiplier value len
  | succ left ih =>
      by_cases small : n < 128
      · exact reads_vbiDecode_of_lt small (left + 1) multiplier value len
      · have rest' : n / 128 < 128 ^ (left + 1) := by
          apply Nat.div_lt_of_lt_mul
          rw [← Nat.pow_succ']
          exact inRange
        have byte : (UInt8.ofNat (n % 128 + 128)).toNat = n % 128 + 128 := by
          rw [UInt8.toNat_ofNat']
          omega
        have low : (n % 128 + 128) % 128 = n % 128 := by omega
        have parts : value + n * multiplier =
            value + n % 128 * multiplier + n / 128 * (multiplier * 128) := by
          have division := Nat.div_add_mod n 128
          calc value + n * multiplier
              = value + (128 * (n / 128) + n % 128) * multiplier := by rw [division]
            _ = value + n % 128 * multiplier + n / 128 * (multiplier * 128) := by ring
        have more := ih rest' (multiplier * 128) (value + n % 128 * multiplier) (len + 1)
        rw [encode_of_le (by omega)]
        simp only [Reads, List.cons_append, List.length_cons] at more ⊢
        rw [vbiDecode]
        simp only [byte, low]
        rw [if_pos (by omega), more, parts]
        simp only [Nat.add_assoc, Nat.add_comm 1]

theorem reads_decodeBuf (inRange : n < 268435456) :
    decodeBuf.Reads (encode n) (n, (encode n).length) rest := by
  have reads := @reads_vbiDecode n rest 3 inRange 1 0 0
  rwa [Nat.zero_add, Nat.zero_add, Nat.mul_one] at reads

theorem vbiDecode_lt {left multiplier value len : Nat} {bytes : Bytes} {result : Nat × Nat}
    (small : value < multiplier) (decoded : vbiDecode left multiplier value len bytes =
      some (result, rest)) : result.1 < multiplier * 128 ^ left := by
  induction left generalizing multiplier value len bytes with
  | zero =>
      simp only [vbiDecode, Option.some.injEq, Prod.mk.injEq] at decoded
      rw [← decoded.1]
      simpa using small
  | succ left ih =>
      cases bytes with
      | nil => cases decoded
      | cons c bytes =>
          have digit : value + c.toNat % 128 * multiplier < multiplier * 128 := by
            have low : c.toNat % 128 + 1 ≤ 128 := by omega
            calc value + c.toNat % 128 * multiplier
                < multiplier + c.toNat % 128 * multiplier := by omega
              _ = multiplier * (c.toNat % 128 + 1) := by ring
              _ ≤ multiplier * 128 := Nat.mul_le_mul_left _ low
          simp only [vbiDecode] at decoded
          split at decoded
          · have below := ih digit decoded
            rw [Nat.pow_succ']
            calc result.1 < multiplier * 128 * 128 ^ left := below
              _ = multiplier * (128 * 128 ^ left) := by ring
          · simp only [Option.some.injEq, Prod.mk.injEq] at decoded
            rw [← decoded.1]
            calc value + c.toNat % 128 * multiplier < multiplier * 128 := digit
              _ ≤ multiplier * 128 ^ (left + 1) := by
                  apply Nat.mul_le_mul_left
                  exact Nat.le_self_pow (Nat.succ_ne_zero left) 128

theorem decodeBuf_lt {bytes : Bytes} {result : Nat × Nat}
    (decoded : decodeBuf bytes = some (result, rest)) : result.1 < 268435456 := by
  have below := vbiDecode_lt Nat.zero_lt_one decoded
  simpa using below

theorem reads_readChar (inRange : n < 256) : readChar.Reads [UInt8.ofNat n] n rest := by
  have byte : (UInt8.ofNat n).toNat = n := by
    rw [UInt8.toNat_ofNat']
    omega
  simp [Reads, readChar, byte]

theorem reads_readInt (inRange : n < 65536) : readInt.Reads (writeInt n) n rest := by
  have first : (UInt8.ofNat (n / 256)).toNat = n / 256 := by
    rw [UInt8.toNat_ofNat']
    omega
  have second : (UInt8.ofNat (n % 256)).toNat = n % 256 := by
    rw [UInt8.toNat_ofNat']
    omega
  simp only [Reads, writeInt, readInt, List.cons_append, List.nil_append, first, second]
  rw [Nat.div_add_mod]

theorem reads_readInt4 (inRange : n < 4294967296) : readInt4.Reads (writeInt4 n) n rest := by
  have first : (UInt8.ofNat (n / 16777216)).toNat = n / 16777216 := by
    rw [UInt8.toNat_ofNat']
    omega
  have second : (UInt8.ofNat (n % 16777216 / 65536)).toNat = n % 16777216 / 65536 := by
    rw [UInt8.toNat_ofNat']
    omega
  have third : (UInt8.ofNat (n % 65536 / 256)).toNat = n % 65536 / 256 := by
    rw [UInt8.toNat_ofNat']
    omega
  have fourth : (UInt8.ofNat (n % 256)).toNat = n % 256 := by
    rw [UInt8.toNat_ofNat']
    omega
  simp only [Reads, writeInt4, readInt4, List.cons_append, List.nil_append, first, second, third,
    fourth]
  congr 2
  omega

theorem reads_mqttLenStringRead {data : Bytes} (inRange : data.length < 65536) :
    mqttLenStringRead.Reads (writeMQTTLenString data) data rest :=
  Reads.andThen (reads_readInt inRange) (Reads.symbols rfl)

theorem readInt_lt {bytes : Bytes} (read : readInt bytes = some (n, rest)) : n < 65536 := by
  rcases bytes with _ | ⟨first, _ | ⟨second, bytes⟩⟩
  · cases read
  · cases read
  · simp only [readInt, Option.some.injEq, Prod.mk.injEq] at read
    have high := first.toNat_lt
    have low := second.toNat_lt
    omega

theorem mqttLenStringRead_lt {bytes data : Bytes}
    (read : mqttLenStringRead bytes = some (data, rest)) : data.length < 65536 := by
  rcases andThen_eq_some.mp read with ⟨n, after, length, taken⟩
  have small := readInt_lt length
  simp only [symbols] at taken
  split at taken
  · simp only [Option.some.injEq, Prod.mk.injEq] at taken
    rw [← taken.1, List.length_take]
    omega
  · cases taken

end MQTTPacket

/-- `enum MQTTPropertyTypes`. -/
inductive MQTTPropertyType where
  | byte
  | twoByteInteger
  | fourByteInteger
  | variableByteInteger
  | binaryData
  | utf8EncodedString
  | utf8StringPair
  deriving DecidableEq, Repr

/-- The type that a value has been given. -/
def MQTTPropertyValue.type : MQTTPropertyValue → MQTTPropertyType
  | .byte _ => .byte
  | .integer2 _ => .twoByteInteger
  | .integer4 _ => .fourByteInteger
  | .variableByteInteger _ => .variableByteInteger
  | .data _ => .binaryData
  | .string _ => .utf8EncodedString
  | .stringPair _ _ => .utf8StringPair

namespace MQTTProperty

/-- `namesToTypes`. -/
def namesToTypes : List (Nat × MQTTPropertyType) :=
  [(1, .byte), (2, .fourByteInteger), (3, .utf8EncodedString), (8, .utf8EncodedString),
    (9, .binaryData), (11, .variableByteInteger), (17, .fourByteInteger),
    (18, .utf8EncodedString), (19, .twoByteInteger), (21, .utf8EncodedString), (22, .binaryData),
    (23, .byte), (24, .fourByteInteger), (25, .byte), (26, .utf8EncodedString),
    (28, .utf8EncodedString), (31, .utf8EncodedString), (33, .twoByteInteger),
    (34, .twoByteInteger), (35, .twoByteInteger), (36, .byte), (37, .byte), (38, .utf8StringPair),
    (39, .fourByteInteger), (40, .byte), (41, .byte), (42, .byte)]

/-- `MQTTProperty_getType`. -/
def getType (value : Nat) : Option MQTTPropertyType :=
  (namesToTypes.find? (·.1 == value)).map (·.2)

/-- The length that `MQTTProperties_add` adds for a property. The argument of `MQTTPacket_VBIlen`
is an `int`. -/
def len (prop : MQTTProperty) : Nat :=
  1 + match prop.value with
    | .byte _ => 1
    | .integer2 _ => 2
    | .integer4 _ => 4
    | .variableByteInteger value =>
        MQTTPacket.vbiLen (if value < 2147483648 then value else value - 4294967296)
    | .data data => 2 + data.length
    | .string data => 2 + data.length
    | .stringPair data value => 2 + data.length + (2 + value.length)

/-- `MQTTProperty_write`, for an identifier of the table. -/
def write (prop : MQTTProperty) : Bytes :=
  UInt8.ofNat prop.identifier ::
    match prop.value with
    | .byte value => [UInt8.ofNat value]
    | .integer2 value => MQTTPacket.writeInt value
    | .integer4 value => MQTTPacket.writeInt4 value
    | .variableByteInteger value => MQTTPacket.encode value
    | .data data => MQTTPacket.writeMQTTLenString data
    | .string data => MQTTPacket.writeMQTTLenString data
    | .stringPair data value =>
        MQTTPacket.writeMQTTLenString data ++ MQTTPacket.writeMQTTLenString value

/-- The value of a property, and the number of bytes that it took. -/
def readValue : MQTTPropertyType → Decoder UInt8 (MQTTPropertyValue × Nat)
  | .byte => andThen MQTTPacket.readChar fun value => ret (.byte value, 1)
  | .twoByteInteger => andThen MQTTPacket.readInt fun value => ret (.integer2 value, 2)
  | .fourByteInteger => andThen MQTTPacket.readInt4 fun value => ret (.integer4 value, 4)
  | .variableByteInteger =>
      andThen MQTTPacket.decodeBuf fun (value, len) => ret (.variableByteInteger value, len)
  | .binaryData =>
      andThen MQTTPacket.mqttLenStringRead fun data => ret (.data data, 2 + data.length)
  | .utf8EncodedString =>
      andThen MQTTPacket.mqttLenStringRead fun data => ret (.string data, 2 + data.length)
  | .utf8StringPair =>
      andThen MQTTPacket.mqttLenStringRead fun data =>
        andThen MQTTPacket.mqttLenStringRead fun value =>
          ret (.stringPair data value, 2 + data.length + (2 + value.length))

/-- `MQTTProperty_read`: the property and the number of bytes that it took. -/
def read : Decoder UInt8 (MQTTProperty × Nat) :=
  andThen MQTTPacket.readChar fun identifier =>
    match getType identifier with
    | none => fun _ => none
    | some type => andThen (readValue type) fun (value, len) => ret (⟨identifier, value⟩, len + 1)

end MQTTProperty

namespace MQTTProperties

/-- The field `length`, as `MQTTProperties_add` has computed it. -/
def length (props : MQTTProperties) : Nat :=
  (props.map MQTTProperty.len).sum

/-- `MQTTProperties_len`. -/
def len (props : MQTTProperties) : Nat :=
  length props + MQTTPacket.vbiLen (length props)

/-- `MQTTProperties_write`. -/
def write (props : MQTTProperties) : Bytes :=
  MQTTPacket.encode (length props) ++ props.flatMap MQTTProperty.write

/-- The loop of `MQTTProperties_read`; `remlength` is an `unsigned int`. Each round reads a byte at
least. -/
def readLoop : Nat → Nat → Decoder UInt8 MQTTProperties
  | 0, _ => fun _ => none
  | rounds + 1, remlength =>
      if remlength = 0 then ret []
      else
        andThen MQTTProperty.read fun (prop, proplen) =>
          andThen (readLoop rounds ((remlength + 4294967296 - proplen) % 4294967296)) fun props =>
            ret (prop :: props)

/-- `MQTTProperties_read`. -/
def read : Decoder UInt8 MQTTProperties := fun bytes =>
  if bytes = [] then none
  else
    (MQTTPacket.decodeBuf bytes).bind fun ((remlength, _), rest) =>
      readLoop (rest.length + 1) remlength rest

end MQTTProperties

/-- The value is one of its C type. -/
def MQTTPropertyValue.InType : MQTTPropertyValue → Prop
  | .byte value => value < 256
  | .integer2 value => value < 65536
  | .integer4 value => value < 4294967296
  | .variableByteInteger value => value < 4294967296
  | _ => True

/-- The value has a form on the wire. -/
def MQTTPropertyValue.Representable : MQTTPropertyValue → Prop
  | .variableByteInteger value => value < 268435456
  | .data bytes => bytes.length < 65536
  | .string bytes => bytes.length < 65536
  | .stringPair bytes value => bytes.length < 65536 ∧ value.length < 65536
  | _ => True

instance : DecidablePred MQTTPropertyValue.Representable := fun value => by
  cases value <;> unfold MQTTPropertyValue.Representable <;> infer_instance

namespace MQTTProperty

/-- The value has the type of the identifier. -/
structure WellTyped (prop : MQTTProperty) : Prop where
  type : getType prop.identifier = some prop.value.type
  inType : prop.value.InType

variable {prop : MQTTProperty} {rest : Bytes} {n : Nat}

theorem identifier_lt {value : Nat} {type : MQTTPropertyType}
    (known : getType value = some type) : value < 256 := by
  have all : ∀ entry ∈ namesToTypes, entry.1 < 256 := by decide
  simp only [getType, Option.map_eq_some_iff] at known
  rcases known with ⟨entry, found, _⟩
  have same : entry.1 = value := by simpa using List.find?_some found
  rw [← same]
  exact all entry (List.mem_of_find?_eq_some found)

theorem reads_readValue {value : MQTTPropertyValue} (inType : value.InType)
    (representable : value.Representable) (identifier : Nat) :
    (readValue value.type).Reads (write ⟨identifier, value⟩).tail
      (value, len ⟨identifier, value⟩ - 1) rest := by
  cases value with
  | byte value =>
      change (andThen MQTTPacket.readChar fun value => ret (MQTTPropertyValue.byte value, 1)).Reads
        [UInt8.ofNat value] _ _
      exact Reads.andThen_ret (MQTTPacket.reads_readChar inType) Reads.ret
  | integer2 value =>
      change (andThen MQTTPacket.readInt fun value =>
        ret (MQTTPropertyValue.integer2 value, 2)).Reads (MQTTPacket.writeInt value) _ _
      exact Reads.andThen_ret (MQTTPacket.reads_readInt inType) Reads.ret
  | integer4 value =>
      change (andThen MQTTPacket.readInt4 fun value =>
        ret (MQTTPropertyValue.integer4 value, 4)).Reads (MQTTPacket.writeInt4 value) _ _
      exact Reads.andThen_ret (MQTTPacket.reads_readInt4 inType) Reads.ret
  | variableByteInteger value =>
      have inRange : value < 268435456 := representable
      have length : len ⟨identifier, .variableByteInteger value⟩ - 1 =
          (MQTTPacket.encode value).length := by
        rw [MQTTPacket.length_encode inRange, len]
        simp only
        rw [if_pos (by omega), Nat.add_sub_cancel_left]
      rw [length]
      change (andThen MQTTPacket.decodeBuf fun (value, len) =>
        ret (MQTTPropertyValue.variableByteInteger value, len)).Reads (MQTTPacket.encode value) _ _
      exact Reads.andThen_ret (MQTTPacket.reads_decodeBuf inRange) Reads.ret
  | data bytes =>
      have length : len ⟨identifier, .data bytes⟩ - 1 = 2 + bytes.length := by
        simp [len]
      rw [length]
      change (andThen MQTTPacket.mqttLenStringRead fun bytes =>
        ret (MQTTPropertyValue.data bytes, 2 + bytes.length)).Reads
          (MQTTPacket.writeMQTTLenString bytes) _ _
      exact Reads.andThen_ret (MQTTPacket.reads_mqttLenStringRead representable) Reads.ret
  | string bytes =>
      have length : len ⟨identifier, .string bytes⟩ - 1 = 2 + bytes.length := by
        simp [len]
      rw [length]
      change (andThen MQTTPacket.mqttLenStringRead fun bytes =>
        ret (MQTTPropertyValue.string bytes, 2 + bytes.length)).Reads
          (MQTTPacket.writeMQTTLenString bytes) _ _
      exact Reads.andThen_ret (MQTTPacket.reads_mqttLenStringRead representable) Reads.ret
  | stringPair bytes value =>
      have length : len ⟨identifier, .stringPair bytes value⟩ - 1 =
          2 + bytes.length + (2 + value.length) := by
        simp [len]
      rw [length]
      change (andThen MQTTPacket.mqttLenStringRead fun bytes =>
        andThen MQTTPacket.mqttLenStringRead fun value =>
          ret (MQTTPropertyValue.stringPair bytes value,
            2 + bytes.length + (2 + value.length))).Reads
        (MQTTPacket.writeMQTTLenString bytes ++ MQTTPacket.writeMQTTLenString value) _ _
      apply Reads.andThen (MQTTPacket.reads_mqttLenStringRead representable.1)
      exact Reads.andThen_ret (MQTTPacket.reads_mqttLenStringRead representable.2) Reads.ret

theorem reads_read (wellTyped : prop.WellTyped) (representable : prop.value.Representable) :
    read.Reads (write prop) (prop, len prop) rest := by
  have positive : len prop - 1 + 1 = len prop := by
    unfold len
    omega
  apply @Reads.andThen _ _ _ _ _ [UInt8.ofNat prop.identifier] (write prop).tail
    _ _ _ (MQTTPacket.reads_readChar (identifier_lt wellTyped.type))
  rw [wellTyped.type]
  rw [← positive]
  exact Reads.andThen_ret (reads_readValue wellTyped.inType representable prop.identifier)
    Reads.ret

theorem representable_of_readValue {type : MQTTPropertyType} {value : MQTTPropertyValue}
    {bytes : Bytes} (isRead : readValue type bytes = some ((value, n), rest)) :
    value.Representable := by
  cases type with
  | byte =>
      rw [readValue] at isRead
      rcases andThen_eq_some.mp isRead with ⟨_, _, _, returned⟩
      cases returned
      trivial
  | twoByteInteger =>
      rw [readValue] at isRead
      rcases andThen_eq_some.mp isRead with ⟨_, _, _, returned⟩
      cases returned
      trivial
  | fourByteInteger =>
      rw [readValue] at isRead
      rcases andThen_eq_some.mp isRead with ⟨_, _, _, returned⟩
      cases returned
      trivial
  | variableByteInteger =>
      rw [readValue] at isRead
      rcases andThen_eq_some.mp isRead with ⟨decoded, _, first, returned⟩
      cases returned
      exact MQTTPacket.decodeBuf_lt first
  | binaryData =>
      rw [readValue] at isRead
      rcases andThen_eq_some.mp isRead with ⟨_, _, first, returned⟩
      cases returned
      exact MQTTPacket.mqttLenStringRead_lt first
  | utf8EncodedString =>
      rw [readValue] at isRead
      rcases andThen_eq_some.mp isRead with ⟨_, _, first, returned⟩
      cases returned
      exact MQTTPacket.mqttLenStringRead_lt first
  | utf8StringPair =>
      rw [readValue] at isRead
      rcases andThen_eq_some.mp isRead with ⟨_, _, first, both⟩
      rcases andThen_eq_some.mp both with ⟨_, _, second, returned⟩
      cases returned
      exact ⟨MQTTPacket.mqttLenStringRead_lt first, MQTTPacket.mqttLenStringRead_lt second⟩

/-- A property that was read has a form on the wire. -/
theorem representable_of_read {bytes : Bytes} (isRead : read bytes = some ((prop, n), rest)) :
    prop.value.Representable := by
  rcases andThen_eq_some.mp isRead with ⟨identifier, middle, _, isRead'⟩
  cases known : getType identifier with
  | none =>
      rw [known] at isRead'
      cases isRead'
  | some type =>
      rw [known] at isRead'
      rcases andThen_eq_some.mp isRead' with ⟨⟨value, len⟩, _, isValue, returned⟩
      cases returned
      exact representable_of_readValue isValue

/-- What is written for a property has the length that was added for it, unless it is a number
out of range. -/
theorem length_write (prop : MQTTProperty) :
    (write prop).length = len prop ∨
      (len prop < (write prop).length ∧ ¬prop.value.Representable) := by
  rcases prop with ⟨identifier, value⟩
  cases value with
  | variableByteInteger value =>
      by_cases inRange : value < 268435456
      · left
        simp only [write, len, List.length_cons, MQTTPacket.length_encode inRange]
        rw [if_pos (by omega)]
        omega
      · right
        have long := MQTTPacket.le_length_encode (Nat.le_of_not_lt inRange)
        refine ⟨?_, inRange⟩
        simp only [write, len, List.length_cons]
        have short := MQTTPacket.vbiLen_le
          (if value < 2147483648 then (value : Int) else value - 4294967296)
        omega
  | _ =>
      left
      simp [write, len, MQTTPacket.writeInt, MQTTPacket.writeInt4, MQTTPacket.writeMQTTLenString]
      try omega

end MQTTProperty

namespace MQTTProperties

variable {props : MQTTProperties} {rest : Bytes}

/-- The properties have a form on the wire. -/
structure Representable (props : MQTTProperties) : Prop where
  each : ∀ prop ∈ props, prop.value.Representable
  length : length props < 268435456

theorem length_cons (prop : MQTTProperty) (props : MQTTProperties) :
    length (prop :: props) = prop.len + length props := by
  simp [length]

theorem reads_readLoop {rounds : Nat} (wellTyped : ∀ prop ∈ props, prop.WellTyped)
    (representable : ∀ prop ∈ props, prop.value.Representable)
    (inRange : length props < 4294967296) (enough : List.length props < rounds) :
    (readLoop rounds (length props)).Reads (props.flatMap MQTTProperty.write) props rest := by
  induction props generalizing rounds with
  | nil =>
      cases rounds with
      | zero => cases enough
      | succ rounds => exact Reads.ret
  | cons prop props ih =>
      cases rounds with
      | zero => cases enough
      | succ rounds =>
          rw [length_cons] at inRange ⊢
          have positive : 0 < prop.len := by
            unfold MQTTProperty.len
            omega
          have left : (prop.len + length props + 4294967296 - prop.len) % 4294967296 =
              length props := by
            omega
          rw [readLoop, if_neg (by omega), List.flatMap_cons]
          apply Reads.andThen (MQTTProperty.reads_read (wellTyped prop List.mem_cons_self)
            (representable prop List.mem_cons_self))
          simp only [left]
          have others := ih (fun other mem => wellTyped other (List.mem_cons_of_mem _ mem))
            (fun other mem => representable other (List.mem_cons_of_mem _ mem)) (by omega)
            (Nat.lt_of_succ_lt_succ enough)
          exact Reads.andThen_ret others Reads.ret

theorem length_le_flatMap (props : MQTTProperties) :
    List.length props ≤ (props.flatMap MQTTProperty.write).length := by
  induction props with
  | nil => exact Nat.le_refl 0
  | cons prop props ih =>
      rw [List.flatMap_cons, List.length_append, List.length_cons]
      have one : 1 ≤ prop.write.length := Nat.succ_le_succ (Nat.zero_le _)
      omega

/-- Properties that have a form on the wire are read as they were written. -/
theorem reads_read (wellTyped : ∀ prop ∈ props, prop.WellTyped)
    (representable : Representable props) : read.Reads (write props) props rest := by
  have first := @MQTTPacket.reads_decodeBuf (length props)
    (props.flatMap MQTTProperty.write ++ rest) representable.length
  have nonempty : ¬write props ++ rest = [] := by
    intro empty
    have positive := MQTTPacket.length_encode_pos (length props)
    have none := congrArg List.length empty
    simp only [write, List.length_append, List.length_nil] at none
    omega
  have loop := @reads_readLoop props rest
    ((props.flatMap MQTTProperty.write ++ rest).length + 1) wellTyped representable.each
    (Nat.lt_trans representable.length (by omega)) (by
      have enough := length_le_flatMap props
      rw [List.length_append]
      omega)
  unfold Reads at first loop ⊢
  rw [read, if_neg nonempty, write, List.append_assoc, first]
  exact loop

/-- Properties that were read have a form on the wire each. -/
theorem representable_of_readLoop {rounds remlength : Nat} {bytes : Bytes}
    (isRead : readLoop rounds remlength bytes = some (props, rest)) :
    ∀ prop ∈ props, prop.value.Representable := by
  induction rounds generalizing remlength bytes props with
  | zero => cases isRead
  | succ rounds ih =>
      rw [readLoop] at isRead
      split at isRead
      · cases isRead
        simp
      · rcases andThen_eq_some.mp isRead with ⟨⟨prop, n⟩, middle, first, others⟩
        rcases andThen_eq_some.mp others with ⟨props', last, loop, returned⟩
        cases returned
        intro other mem
        rcases List.mem_cons.mp mem with rfl | mem
        · exact MQTTProperty.representable_of_read first
        · exact ih loop other mem

theorem representable_of_read {bytes : Bytes} (isRead : read bytes = some (props, rest)) :
    ∀ prop ∈ props, prop.value.Representable := by
  rw [read] at isRead
  split at isRead
  · cases isRead
  · rcases Option.bind_eq_some_iff.mp isRead with ⟨⟨⟨remlength, n⟩, middle⟩, _, loop⟩
    exact representable_of_readLoop loop

theorem length_flatMap_write (props : MQTTProperties) :
    (props.flatMap MQTTProperty.write).length = length props ∨
      (length props < (props.flatMap MQTTProperty.write).length ∧
        ∃ prop ∈ props, ¬prop.value.Representable) := by
  induction props with
  | nil => exact .inl rfl
  | cons prop props ih =>
      rw [List.flatMap_cons, List.length_append, length_cons]
      rcases prop.length_write with same | ⟨less, notRepresentable⟩
      · rcases ih with same' | ⟨less', other, mem, notRepresentable⟩
        · exact .inl (by omega)
        · exact .inr ⟨by omega, other, List.mem_cons_of_mem _ mem, notRepresentable⟩
      · refine .inr ⟨?_, prop, List.mem_cons_self, notRepresentable⟩
        rcases ih with same' | ⟨less', _⟩ <;> omega

/-- What is written for properties that have a form on the wire has the length that
`MQTTProperties_len` says. -/
theorem length_write (representable : Representable props) : (write props).length = len props := by
  have front := MQTTPacket.length_encode representable.length
  rcases length_flatMap_write props with same | ⟨less, prop, mem, notRepresentable⟩
  · rw [write, List.length_append, len, front]
    omega
  · exact absurd (representable.each prop mem) notRepresentable

/-- Properties that are too long for their length field are written past the end of the buffer. -/
theorem len_lt_length_write (outOfRange : 268435456 ≤ length props) :
    len props < (write props).length := by
  have front := MQTTPacket.le_length_encode outOfRange
  have long := MQTTPacket.vbiLen_le (length props)
  rw [write, List.length_append, len]
  rcases length_flatMap_write props with same | ⟨less, _⟩ <;> omega

end MQTTProperties

end Paho
