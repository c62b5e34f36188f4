import Paho.Codec.Properties
import Paho.Library.BoundedReader

/-!
# The property grammar and its reader

`MQTTProperties_read` on a buffer with an end, which only `MQTTLenStringRead` and the test for a
first byte look at; the grammar of property lists; and what the reader makes of the bytes at the
pointer.
-/

namespace Paho

open BoundedReader

/-! ## The reader -/

namespace PropertyReader

/-- `readChar`. -/
def readChar : BoundedReader UInt8 Nat
  | [] => .overrun
  | c :: _ => .taken c.toNat 1

/-- `readInt`. -/
def readInt : BoundedReader UInt8 Nat
  | first :: second :: _ => .taken (256 * first.toNat + second.toNat) 2
  | _ => .overrun

/-- `readInt4`. -/
def readInt4 : BoundedReader UInt8 Nat
  | first :: second :: third :: fourth :: _ =>
      .taken
        (16777216 * first.toNat + 65536 * second.toNat + 256 * third.toNat + fourth.toNat) 4
  | _ => .overrun

/-- `MQTTPacket_decodeBuf`, and the advance of the pointer by what it returns. -/
def decodeBuf : BoundedReader UInt8 (Nat × Nat) := fun bytes =>
  match MQTTPacket.decodeBuf bytes with
  | some ((value, len), _) => .taken (value, len) len
  | none => .overrun

/-- `MQTTLenStringRead`. -/
def mqttLenStringRead : BoundedReader UInt8 Bytes
  | first :: second :: rest =>
      let len := 256 * first.toNat + second.toNat
      if len ≤ rest.length then .taken (rest.take len) (2 + len) else .failed 2
  | _ => .failed 0

/-- The `switch` of `MQTTProperty_read`: the value of a property, and `len`. -/
def readValue : MQTTPropertyType → BoundedReader UInt8 (MQTTPropertyValue × Nat)
  | .byte => andThen readChar fun value => ret (.byte value, 1)
  | .twoByteInteger => andThen readInt fun value => ret (.integer2 value, 2)
  | .fourByteInteger => andThen readInt4 fun value => ret (.integer4 value, 4)
  | .variableByteInteger =>
      andThen decodeBuf fun (value, len) => ret (.variableByteInteger value, len)
  | .binaryData => andThen mqttLenStringRead fun data => ret (.data data, 2 + data.length)
  | .utf8EncodedString =>
      andThen mqttLenStringRead fun data => ret (.string data, 2 + data.length)
  | .utf8StringPair =>
      andThen mqttLenStringRead fun data => andThen mqttLenStringRead fun value =>
        ret (.stringPair data value, 2 + data.length + (2 + value.length))

/-- `MQTTProperty_read`: the property, and the number of its bytes. -/
def read : BoundedReader UInt8 (MQTTProperty × Nat) :=
  andThen readChar fun identifier =>
    match MQTTProperty.getType identifier with
    | none => fun _ => .failed 0
    | some type => andThen (readValue type) fun (value, len) => ret (⟨identifier, value⟩, len + 1)

/-- The loop of `MQTTProperties_read`; `remlength` is an `unsigned int`. Running out of rounds is
not returning. -/
def readLoop : Nat → Nat → Bytes → Option (BoundedReading MQTTProperties)
  | 0, _, _ => none
  | rounds + 1, remlength, bytes =>
      if remlength = 0 then some (.taken [] 0)
      else
        match read bytes with
        | .taken (prop, proplen) n =>
            (readLoop rounds ((remlength + 4294967296 - proplen) % 4294967296)
              (bytes.drop n)).map fun reading => (reading.map (prop :: ·)).advance n
        | .failed n => some (.failed n)
        | .overrun => some .overrun

end PropertyReader

/-- The fields of `struct MQTTProperties` that are read: `length` and the array. -/
structure PropertyList where
  length : Nat
  array : MQTTProperties
  deriving DecidableEq, Repr

/-- `MQTTProperties_read` on the bytes from the pointer to `enddata`. A value is taken when it
returns 1. -/
def PropertyReader.readList (bytes : Bytes) : Option (BoundedReading PropertyList) :=
  if bytes = [] then some (.failed 0)
  else
    match decodeBuf bytes with
    | .taken (remlength, _) n =>
        (readLoop (bytes.length + 1) remlength (bytes.drop n)).map fun reading =>
          (reading.map (PropertyList.mk remlength)).advance n
    | .failed n => some (.failed n)
    | .overrun => some .overrun

/-! ## The grammar -/

/-- A variable byte integer: all bytes but the last continue. -/
inductive VBI : Bytes → Nat → Prop
  | last {c : UInt8} (ends : c.toNat < 128) : VBI [c] c.toNat
  | more {c : UInt8} {field : Bytes} {n : Nat} (continues : 128 ≤ c.toNat) (rest : VBI field n) :
      VBI (c :: field) (c.toNat % 128 + 128 * n)

/-- A complete string or complete binary data. -/
inductive LenString : Bytes → Bytes → Prop
  | intro {first second : UInt8} {data : Bytes}
      (length : data.length = 256 * first.toNat + second.toNat) :
      LenString (first :: second :: data) data

/-- The value of a property. -/
inductive IsValue : MQTTPropertyType → Bytes → MQTTPropertyValue → Prop
  | byte (c : UInt8) : IsValue .byte [c] (.byte c.toNat)
  | twoByteInteger (first second : UInt8) :
      IsValue .twoByteInteger [first, second] (.integer2 (256 * first.toNat + second.toNat))
  | fourByteInteger (first second third fourth : UInt8) :
      IsValue .fourByteInteger [first, second, third, fourth]
        (.integer4
          (16777216 * first.toNat + 65536 * second.toNat + 256 * third.toNat + fourth.toNat))
  | variableByteInteger {field : Bytes} {n : Nat} (isVBI : VBI field n) (short : field.length ≤ 4) :
      IsValue .variableByteInteger field (.variableByteInteger n)
  | binaryData {item data : Bytes} (isData : LenString item data) :
      IsValue .binaryData item (.data data)
  | utf8EncodedString {item data : Bytes} (isString : LenString item data) :
      IsValue .utf8EncodedString item (.string data)
  | utf8StringPair {item data item' value : Bytes} (isName : LenString item data)
      (isString : LenString item' value) :
      IsValue .utf8StringPair (item ++ item') (.stringPair data value)

/-- A well-formed property: a known identifier and a value of its type. -/
inductive IsProperty : Bytes → MQTTProperty → Prop
  | intro {identifier : UInt8} {type : MQTTPropertyType} {item : Bytes} {value : MQTTPropertyValue}
      (known : MQTTProperty.getType identifier.toNat = some type)
      (isValue : IsValue type item value) :
      IsProperty (identifier :: item) ⟨identifier.toNat, value⟩

/-- A concatenation of well-formed properties. -/
inductive AreProperties : Bytes → MQTTProperties → Prop
  | nil : AreProperties [] []
  | cons {item body : Bytes} {prop : MQTTProperty} {props : MQTTProperties}
      (first : IsProperty item prop) (rest : AreProperties body props) :
      AreProperties (item ++ body) (prop :: props)

/-- The bytes begin with a property list, which has `n` bytes: a variable byte integer of at most
four bytes and as many bytes of properties as it says. -/
def BeginsWithList (bytes : Bytes) (list : PropertyList) (n : Nat) : Prop :=
  ∃ field body rest, bytes = field ++ (body ++ rest) ∧ VBI field list.length ∧ field.length ≤ 4 ∧
    body.length = list.length ∧ AreProperties body list.array ∧ n = field.length + body.length

/-! ## Variable byte integers -/

/-- All of these bytes continue. -/
def Continue (bytes : Bytes) : Prop :=
  ∀ c ∈ bytes, 128 ≤ c.toNat

instance (bytes : Bytes) : Decidable (Continue bytes) :=
  inferInstanceAs (Decidable (∀ c ∈ bytes, 128 ≤ c.toNat))

/-- The number that the lower seven bits of the bytes make. -/
def lowerBits : Bytes → Nat
  | [] => 0
  | c :: bytes => c.toNat % 128 + 128 * lowerBits bytes

section VariableByteIntegers

variable {bytes field rest : Bytes} {n : Nat}

theorem VBI.not_continue (isVBI : VBI field n) : ¬Continue (field ++ rest) := by
  induction isVBI with
  | @last c ends =>
      intro continues
      have := continues c List.mem_cons_self
      omega
  | more _ _ ih => exact fun continues => ih fun c mem => continues c (List.mem_cons_of_mem _ mem)

theorem VBI.ne_nil (isVBI : VBI field n) : 0 < field.length := by
  cases isVBI <;> simp

theorem vbiDecode_of_vbi (isVBI : VBI field n) {left : Nat} (short : field.length ≤ left)
    (multiplier value len : Nat) :
    MQTTPacket.vbiDecode left multiplier value len (field ++ rest) =
      some ((value + n * multiplier, len + field.length), rest) := by
  induction isVBI generalizing left multiplier value len with
  | @last c ends =>
      cases left with
      | zero => cases short
      | succ left =>
          simp [MQTTPacket.vbiDecode, Nat.not_le_of_lt ends, Nat.mod_eq_of_lt ends]
  | @more c field n continues _ ih =>
      cases left with
      | zero => cases short
      | succ left =>
          have fewer : field.length ≤ left := Nat.le_of_succ_le_succ short
          simp only [MQTTPacket.vbiDecode, List.cons_append, continues, if_true, ih fewer,
            List.length_cons]
          congr 3
          · ring
          · omega

/-- A length field ends in time, or goes on for too long, or is cut off. -/
theorem vbiDecode_cases (left multiplier value len : Nat) (bytes : Bytes) :
    (∃ field n rest, bytes = field ++ rest ∧ VBI field n ∧ field.length ≤ left) ∨
      (∃ field rest, bytes = field ++ rest ∧ field.length = left ∧ Continue field ∧
        MQTTPacket.vbiDecode left multiplier value len bytes =
          some ((value + lowerBits field * multiplier, len + left + 1), rest.drop 1)) ∨
      (Continue bytes ∧ bytes.length < left ∧
        MQTTPacket.vbiDecode left multiplier value len bytes = none) := by
  induction left generalizing multiplier value len bytes with
  | zero =>
      right
      left
      refine ⟨[], bytes, rfl, rfl, by simp [Continue], ?_⟩
      simp [MQTTPacket.vbiDecode, lowerBits]
  | succ left ih =>
      cases bytes with
      | nil =>
          right
          right
          exact ⟨by simp [Continue], Nat.succ_pos left, rfl⟩
      | cons c bytes =>
          by_cases continues : 128 ≤ c.toNat
          · have unfolded : MQTTPacket.vbiDecode (left + 1) multiplier value len (c :: bytes) =
                MQTTPacket.vbiDecode left (multiplier * 128) (value + c.toNat % 128 * multiplier)
                  (len + 1) bytes := by
              simp [MQTTPacket.vbiDecode, continues]
            rw [unfolded]
            rcases ih (multiplier * 128) (value + c.toNat % 128 * multiplier) (len + 1) bytes with
              ⟨field, n, rest, rfl, isVBI, short⟩ | ⟨field, rest, rfl, length, all, result⟩ |
              ⟨all, short, result⟩
            · left
              exact ⟨c :: field, _, rest, rfl, .more continues isVBI, Nat.succ_le_succ short⟩
            · right
              left
              refine ⟨c :: field, rest, rfl, congrArg (· + 1) length, ?_, ?_⟩
              · exact List.forall_mem_cons.mpr ⟨continues, all⟩
              · rw [result]
                simp only [lowerBits]
                congr 3
                · ring
                · omega
            · right
              right
              exact ⟨List.forall_mem_cons.mpr ⟨continues, all⟩, Nat.succ_lt_succ short, result⟩
          · left
            refine ⟨[c], c.toNat, bytes, rfl, .last (Nat.lt_of_not_le continues), ?_⟩
            exact Nat.succ_le_succ (Nat.zero_le left)

/-- Four bytes that continue. -/
def Overlong (field : Bytes) : Prop :=
  field.length = 4 ∧ Continue field

theorem decodeBuf_vbi (isVBI : VBI field n) (short : field.length ≤ 4) :
    PropertyReader.decodeBuf.Takes field (n, field.length) := by
  intro rest
  simp [PropertyReader.decodeBuf, MQTTPacket.decodeBuf, vbiDecode_of_vbi isVBI short]

/-- A field that is too long is taken as one of five bytes. -/
theorem decodeBuf_overlong (overlong : Overlong field) :
    PropertyReader.decodeBuf (field ++ rest) = .taken (lowerBits field, 5) 5 := by
  rcases vbiDecode_cases 4 1 0 0 (field ++ rest) with
    ⟨field', n, rest', split, isVBI, short⟩ | ⟨field', rest', split, length, all, result⟩ |
    ⟨-, short, -⟩
  · have continues : ¬Continue field := by
      rcases List.append_eq_append_iff.mp split with ⟨more, rfl, -⟩ | ⟨more, rfl, -⟩
      · have shorter : more = [] := by
          have := overlong.1
          rw [List.length_append] at short
          exact List.length_eq_zero_iff.mp (by omega)
        rw [shorter, List.append_nil] at isVBI
        have ends := @VBI.not_continue field [] n isVBI
        rwa [List.append_nil] at ends
      · exact isVBI.not_continue
    exact absurd overlong.2 continues
  · have same := (List.append_inj split (overlong.1.trans length.symm)).1
    subst same
    simp [PropertyReader.decodeBuf, MQTTPacket.decodeBuf, result]
  · rw [List.length_append] at short
    have := overlong.1
    omega

theorem decodeBuf_cutOff (continues : Continue bytes) (short : bytes.length < 4) :
    PropertyReader.decodeBuf bytes = .overrun := by
  rcases vbiDecode_cases 4 1 0 0 bytes with
    ⟨field, n, rest, rfl, isVBI, -⟩ | ⟨field, rest, rfl, length, -⟩ | ⟨-, -, result⟩
  · exact absurd continues isVBI.not_continue
  · rw [List.length_append] at short
    omega
  · simp [PropertyReader.decodeBuf, MQTTPacket.decodeBuf, result]

/-- What `MQTTPacket_decodeBuf` can find. -/
theorem decodeBuf_cases (bytes : Bytes) :
    (∃ field n rest, bytes = field ++ rest ∧ VBI field n ∧ field.length ≤ 4) ∨
      (∃ field rest, bytes = field ++ rest ∧ Overlong field) ∨
      (Continue bytes ∧ bytes.length < 4) := by
  rcases vbiDecode_cases 4 1 0 0 bytes with ends | ⟨field, rest, split, length, all, -⟩ |
    ⟨all, short, -⟩
  · exact .inl ends
  · exact .inr (.inl ⟨field, rest, split, length, all⟩)
  · exact .inr (.inr ⟨all, short⟩)

end VariableByteIntegers

/-! ## What the reader makes of the bytes at the pointer -/

/-- What is taken as a property of so many bytes: a well-formed one, or the identifier of a variable
byte integer and four bytes that continue. -/
inductive Item (bytes : Bytes) : MQTTProperty → Nat → Prop
  | property {item rest : Bytes} {prop : MQTTProperty} (split : bytes = item ++ rest)
      (isProperty : IsProperty item prop) : Item bytes prop item.length
  | overlong {identifier : UInt8} {field rest : Bytes}
  (split : bytes = identifier :: (field ++ rest))
      (isNumber : MQTTProperty.getType identifier.toNat = some .variableByteInteger)
      (overlong : Overlong field) :
      Item bytes ⟨identifier.toNat, .variableByteInteger (lowerBits field)⟩ 6

/-- The bytes end within a number of this type. -/
def CutShortValue : MQTTPropertyType → Bytes → Prop
  | .byte, bytes => bytes = []
  | .twoByteInteger, bytes => bytes.length < 2
  | .fourByteInteger, bytes => bytes.length < 4
  | .variableByteInteger, bytes => Continue bytes ∧ bytes.length < 4
  | _, _ => False

/-- The bytes end before the identifier of a property, or within its value, which is a number. -/
inductive CutShort : Bytes → Prop
  | identifier : CutShort []
  | value {identifier : UInt8} {type : MQTTPropertyType} {bytes : Bytes}
      (known : MQTTProperty.getType identifier.toNat = some type)
      (cutShort : CutShortValue type bytes) : CutShort (identifier :: bytes)

namespace PropertyReader

variable {bytes : Bytes} {prop : MQTTProperty} {n : Nat}

theorem takes_readChar (c : UInt8) : readChar.Takes [c] c.toNat :=
  fun _ => rfl

theorem takes_mqttLenStringRead {item data : Bytes} (isString : LenString item data) :
    mqttLenStringRead.Takes item data ∧ item.length = 2 + data.length := by
  cases isString with
  | @intro first second data length =>
      constructor
      · intro rest
        simp only [mqttLenStringRead, List.cons_append, ← length]
        rw [if_pos (by simp), List.take_left]
        congr 1
        simp only [List.length_cons]
        omega
      · simp only [List.length_cons]
        omega

/-- A complete value is taken. -/
theorem takes_readValue {type : MQTTPropertyType} {item : Bytes} {value : MQTTPropertyValue}
    (isValue : IsValue type item value) : (readValue type).Takes item (value, item.length) := by
  cases isValue with
  | byte c => exact (takes_readChar c).andThen_ret (.ret _)
  | twoByteInteger first second => exact fun _ => rfl
  | fourByteInteger first second third fourth => exact fun _ => rfl
  | variableByteInteger isVBI short => exact (decodeBuf_vbi isVBI short).andThen_ret (.ret _)
  | binaryData isData =>
      rcases takes_mqttLenStringRead isData with ⟨takes, length⟩
      rw [length]
      exact takes.andThen_ret (.ret _)
  | utf8EncodedString isString =>
      rcases takes_mqttLenStringRead isString with ⟨takes, length⟩
      rw [length]
      exact takes.andThen_ret (.ret _)
  | utf8StringPair isName isString =>
      rcases takes_mqttLenStringRead isName with ⟨takes, length⟩
      rcases takes_mqttLenStringRead isString with ⟨takes', length'⟩
      rw [List.length_append, length, length']
      exact takes.andThen (takes'.andThen_ret (.ret _))

/-- Every item is taken as what it is. -/
theorem read_item (item : Item bytes prop n) : read bytes = .taken (prop, n) n := by
  cases item with
  | property split isProperty =>
      subst split
      cases isProperty with
      | @intro identifier type item value known isValue =>
          have takes : read.Takes ([identifier] ++ item)
              (⟨identifier.toNat, value⟩, item.length + 1) := by
            apply (takes_readChar identifier).andThen
            simp only [known]
            exact (takes_readValue isValue).andThen_ret (.ret _)
          exact takes _
  | @overlong identifier field rest split isNumber overlong =>
      subst split
      simp only [read, andThen, readChar, List.drop_one, List.tail_cons, isNumber, readValue,
        decodeBuf_overlong overlong, ret, BoundedReading.advance_taken]

/-- The reader goes past the end when the bytes are cut off within a number. -/
theorem read_cutShort (cutShort : CutShort bytes) : read bytes = .overrun := by
  cases cutShort with
  | identifier => rfl
  | @value identifier type rest known cutShort =>
      have value : readValue type rest = .overrun := by
        cases type with
        | byte =>
            cases cutShort
            rfl
        | twoByteInteger =>
            rcases rest with _ | ⟨first, _ | ⟨second, rest⟩⟩
            · rfl
            · rfl
            · simp only [CutShortValue, List.length_cons] at cutShort
              omega
        | fourByteInteger =>
            rcases rest with _ | ⟨first, _ | ⟨second, _ | ⟨third, _ | ⟨fourth, rest⟩⟩⟩⟩
            · rfl
            · rfl
            · rfl
            · rfl
            · simp only [CutShortValue, List.length_cons] at cutShort
              omega
        | variableByteInteger =>
            exact andThen_of_overrun (decodeBuf_cutOff cutShort.1 cutShort.2)
        | binaryData => cases cutShort
        | utf8EncodedString => cases cutShort
        | utf8StringPair => cases cutShort
      simp only [read, andThen, readChar, List.drop_one, List.tail_cons, known, value,
        BoundedReading.advance_overrun]

theorem mqttLenStringRead_cases (bytes : Bytes) :
    (∃ item data rest, bytes = item ++ rest ∧ LenString item data) ∨
      ∃ n, mqttLenStringRead bytes = .failed n := by
  rcases bytes with _ | ⟨first, _ | ⟨second, rest⟩⟩
  · exact .inr ⟨0, rfl⟩
  · exact .inr ⟨0, rfl⟩
  · by_cases complete : 256 * first.toNat + second.toNat ≤ rest.length
    · left
      refine ⟨first :: second :: rest.take (256 * first.toNat + second.toNat), _,
        rest.drop (256 * first.toNat + second.toNat), by simp, .intro ?_⟩
      rw [List.length_take, Nat.min_eq_left complete]
    · right
      exact ⟨2, by simp [mqttLenStringRead, complete]⟩

/-- What the reader can find behind the identifier of a property. -/
theorem readValue_cases (type : MQTTPropertyType) (bytes : Bytes) :
    (∃ item value rest, bytes = item ++ rest ∧ IsValue type item value) ∨
      (type = .variableByteInteger ∧ ∃ field rest, bytes = field ++ rest ∧ Overlong field) ∨
      (∃ n, readValue type bytes = .failed n) ∨ CutShortValue type bytes := by
  cases type with
  | byte =>
      rcases bytes with _ | ⟨c, rest⟩
      · exact .inr (.inr (.inr rfl))
      · exact .inl ⟨_, _, rest, rfl, .byte c⟩
  | twoByteInteger =>
      rcases bytes with _ | ⟨first, _ | ⟨second, rest⟩⟩
      · exact .inr (.inr (.inr (by simp [CutShortValue])))
      · exact .inr (.inr (.inr (by simp [CutShortValue])))
      · exact .inl ⟨_, _, rest, rfl, .twoByteInteger first second⟩
  | fourByteInteger =>
      rcases bytes with _ | ⟨first, _ | ⟨second, _ | ⟨third, _ | ⟨fourth, rest⟩⟩⟩⟩
      · exact .inr (.inr (.inr (by simp [CutShortValue])))
      · exact .inr (.inr (.inr (by simp [CutShortValue])))
      · exact .inr (.inr (.inr (by simp [CutShortValue])))
      · exact .inr (.inr (.inr (by simp [CutShortValue])))
      · exact .inl ⟨_, _, rest, rfl, .fourByteInteger first second third fourth⟩
  | variableByteInteger =>
      rcases decodeBuf_cases bytes with ⟨field, n, rest, split, isVBI, short⟩ | overlong | cutShort
      · exact .inl ⟨field, _, rest, split, .variableByteInteger isVBI short⟩
      · exact .inr (.inl ⟨rfl, overlong⟩)
      · exact .inr (.inr (.inr cutShort))
  | binaryData =>
      rcases mqttLenStringRead_cases bytes with ⟨item, data, rest, split, isData⟩ | ⟨n, fails⟩
      · exact .inl ⟨item, _, rest, split, .binaryData isData⟩
      · exact .inr (.inr (.inl ⟨n, andThen_of_failed fails⟩))
  | utf8EncodedString =>
      rcases mqttLenStringRead_cases bytes with ⟨item, data, rest, split, isString⟩ | ⟨n, fails⟩
      · exact .inl ⟨item, _, rest, split, .utf8EncodedString isString⟩
      · exact .inr (.inr (.inl ⟨n, andThen_of_failed fails⟩))
  | utf8StringPair =>
      rcases mqttLenStringRead_cases bytes with ⟨item, data, rest, rfl, isName⟩ | ⟨n, fails⟩
      · have taken := (takes_mqttLenStringRead isName).1 rest
        rcases mqttLenStringRead_cases rest with ⟨item', value, rest, rfl, isString⟩ | ⟨n, fails⟩
        · exact .inl ⟨item ++ item', _, rest, by simp, .utf8StringPair isName isString⟩
        · refine .inr (.inr (.inl ⟨item.length + n, ?_⟩))
          rw [readValue, andThen_of_taken taken, List.drop_left, andThen_of_failed fails]
          rfl
      · exact .inr (.inr (.inl ⟨n, andThen_of_failed fails⟩))

/-- What the reader can find at the pointer. -/
theorem read_cases (bytes : Bytes) :
    (∃ prop n, Item bytes prop n) ∨ (∃ n, read bytes = .failed n) ∨ CutShort bytes := by
  rcases bytes with _ | ⟨identifier, bytes⟩
  · exact .inr (.inr .identifier)
  · rcases known : MQTTProperty.getType identifier.toNat with _ | type
    · right
      left
      exact ⟨1, by simp [read, andThen, readChar, known]⟩
    · rcases readValue_cases type bytes with ⟨item, value, rest, rfl, isValue⟩ |
        ⟨rfl, field, rest, rfl, overlong⟩ | ⟨n, fails⟩ | cutShort
      · exact .inl ⟨_, _, .property rfl (.intro known isValue)⟩
      · exact .inl ⟨_, _, .overlong rfl known overlong⟩
      · right
        left
        exact ⟨1 + n, by simp [read, andThen, readChar, known, fails]⟩
      · exact .inr (.inr (.value known cutShort))

theorem read_eq_taken {len : Nat} :
    read bytes = .taken (prop, len) n ↔ Item bytes prop n ∧ len = n := by
  constructor
  · intro taken
    rcases read_cases bytes with ⟨prop', n', item⟩ | ⟨n', fails⟩ | cutShort
    · rw [read_item item] at taken
      injection taken with pair same
      injection pair with sameProp sameLen
      subst same sameProp sameLen
      exact ⟨item, rfl⟩
    · rw [fails] at taken
      cases taken
    · rw [read_cutShort cutShort] at taken
      cases taken
  · rintro ⟨item, rfl⟩
    exact read_item item

theorem read_eq_overrun : read bytes = .overrun ↔ CutShort bytes := by
  constructor
  · intro overrun
    rcases read_cases bytes with ⟨prop, n, item⟩ | ⟨n, fails⟩ | cutShort
    · rw [read_item item] at overrun
      cases overrun
    · rw [fails] at overrun
      cases overrun
    · exact cutShort
  · exact read_cutShort

/-- The bytes at the pointer are one item at most. -/
theorem item_unique {prop' : MQTTProperty} {n' : Nat} (item : Item bytes prop n)
    (other : Item bytes prop' n') : prop = prop' ∧ n = n' := by
  have same := (read_item item).symm.trans (read_item other)
  injection same with pair length
  injection pair with prop _
  exact ⟨prop, length⟩

theorem lenString_length {item data : Bytes} (isString : LenString item data) :
    2 ≤ item.length ∧ item.length < 65538 := by
  cases isString with
  | @intro first second data length =>
      have := first.toNat_lt
      have := second.toNat_lt
      simp only [List.length_cons]
      omega

theorem item_bounds (item : Item bytes prop n) : bytes ≠ [] ∧ 0 < n ∧ n < 4294967296 := by
  cases item with
  | overlong split isNumber overlong =>
      subst split
      simp
  | @property item rest prop split isProperty =>
      subst split
      cases isProperty with
      | @intro identifier type item value known isValue =>
          suffices short : item.length < 131076 by
            refine ⟨by simp, Nat.succ_pos _, ?_⟩
            rw [List.length_cons]
            omega
          cases isValue with
          | byte c => simp
          | twoByteInteger first second => simp
          | fourByteInteger first second third fourth => simp
          | variableByteInteger isVBI short => omega
          | binaryData isData =>
              have := lenString_length isData
              omega
          | utf8EncodedString isString =>
              have := lenString_length isString
              omega
          | utf8StringPair isName isString =>
              have := lenString_length isName
              have := lenString_length isString
              rw [List.length_append]
              omega

end PropertyReader

end Paho
