import Paho.Codec.PropertyAcceptance

/-!
# Property lists that are built, written and read

`MQTTProperties_add` keeps a running length, which `MQTTProperties_write` writes in front of the
properties and `MQTTProperties_read` takes items by. The storage for the properties is not refused.
-/

namespace Paho

open PropertyReader

/-- `MQTT_INVALID_PROPERTY_ID`. -/
def mqttInvalidPropertyId : Int := -2

namespace PropertyList

/-- `MQTTProperties_initializer`. -/
def initializer : PropertyList where
  length := 0
  array := []

/-- `MQTTProperties_add`. -/
def add (props : PropertyList) (prop : MQTTProperty) : Int × PropertyList :=
  match MQTTProperty.getType prop.identifier with
  | none => (mqttInvalidPropertyId, props)
  | some _ => (0, { length := props.length + prop.len, array := props.array ++ [prop] })

/-- `MQTTProperties_copy`: what cannot be added is left out. -/
def copy (props : PropertyList) : PropertyList :=
  props.array.foldl (fun result prop => (add result prop).2) initializer

/-- `MQTTProperties_len`. -/
def len (props : PropertyList) : Nat :=
  props.length + MQTTPacket.vbiLen props.length

/-- `MQTTProperties_write`. -/
def write (props : PropertyList) : Bytes :=
  MQTTPacket.encode props.length ++ props.array.flatMap MQTTProperty.write

/-- The lists that are built by successful calls of `MQTTProperties_add` with properties that have a
form on the wire, and by copying. -/
inductive Built : PropertyList → Prop
  | initializer : Built initializer
  | add {props props' : PropertyList} {prop : MQTTProperty} (built : Built props)
      (wellTyped : prop.WellTyped) (representable : prop.value.Representable)
      (added : add props prop = (0, props')) : Built props'
  | copy {props : PropertyList} (built : Built props) : Built props.copy

end PropertyList

section Written

variable {prop : MQTTProperty}

theorem vbi_encode (n : Nat) : VBI (MQTTPacket.encode n) n := by
  induction n using Nat.strongRecOn with
  | ind n ih =>
      by_cases small : n < 128
      · have toNat : (UInt8.ofNat n).toNat = n := Nat.mod_eq_of_lt (by omega)
        have ends : VBI [UInt8.ofNat n] (UInt8.ofNat n).toNat := .last (by omega)
        rw [MQTTPacket.encode_of_lt small]
        rwa [toNat] at ends
      · have toNat : (UInt8.ofNat (n % 128 + 128)).toNat = n % 128 + 128 :=
          Nat.mod_eq_of_lt (by omega)
        have more := VBI.more (show 128 ≤ (UInt8.ofNat (n % 128 + 128)).toNat by omega)
          (ih (n / 128) (by omega))
        have value : (UInt8.ofNat (n % 128 + 128)).toNat % 128 + 128 * (n / 128) = n := by omega
        rw [value] at more
        rw [MQTTPacket.encode_of_le (Nat.le_of_not_lt small)]
        exact more

theorem lenString_write {data : Bytes} (inRange : data.length < 65536) :
    LenString (MQTTPacket.writeMQTTLenString data) data := by
  apply LenString.intro
  have high : (UInt8.ofNat (data.length / 256)).toNat = data.length / 256 :=
    Nat.mod_eq_of_lt (by omega)
  have low : (UInt8.ofNat (data.length % 256)).toNat = data.length % 256 :=
    Nat.mod_eq_of_lt (by omega)
  rw [high, low]
  exact (Nat.div_add_mod data.length 256).symm

/-- A property that has a form on the wire is written in it. -/
theorem isProperty_write (wellTyped : prop.WellTyped) (representable : prop.value.Representable) :
    IsProperty prop.write prop := by
  rcases prop with ⟨identifier, value⟩
  rcases wellTyped with ⟨known, inType⟩
  simp only at known representable inType
  have small := MQTTProperty.identifier_lt known
  have toNat : (UInt8.ofNat identifier).toNat = identifier := Nat.mod_eq_of_lt small
  suffices isValue : IsValue value.type (MQTTProperty.write ⟨identifier, value⟩).tail value by
    have isProperty := IsProperty.intro (toNat.symm ▸ known) isValue
    rwa [toNat] at isProperty
  cases value with
  | byte value =>
      have same : (UInt8.ofNat value).toNat = value := Nat.mod_eq_of_lt inType
      have isValue := IsValue.byte (UInt8.ofNat value)
      rwa [same] at isValue
  | integer2 value =>
      have bound : value < 65536 := inType
      have high : (UInt8.ofNat (value / 256)).toNat = value / 256 := Nat.mod_eq_of_lt (by omega)
      have low : (UInt8.ofNat (value % 256)).toNat = value % 256 := Nat.mod_eq_of_lt (by omega)
      have isValue := IsValue.twoByteInteger (UInt8.ofNat (value / 256)) (UInt8.ofNat (value % 256))
      rwa [high, low, show 256 * (value / 256) + value % 256 = value by omega] at isValue
  | integer4 value =>
      have bound : value < 4294967296 := inType
      have first : (UInt8.ofNat (value / 16777216)).toNat = value / 16777216 :=
        Nat.mod_eq_of_lt (by omega)
      have second : (UInt8.ofNat (value % 16777216 / 65536)).toNat = value % 16777216 / 65536 :=
        Nat.mod_eq_of_lt (by omega)
      have third : (UInt8.ofNat (value % 65536 / 256)).toNat = value % 65536 / 256 :=
        Nat.mod_eq_of_lt (by omega)
      have fourth : (UInt8.ofNat (value % 256)).toNat = value % 256 := Nat.mod_eq_of_lt (by omega)
      have sum : 16777216 * (value / 16777216) + 65536 * (value % 16777216 / 65536) +
          256 * (value % 65536 / 256) + value % 256 = value := by omega
      have isValue := IsValue.fourByteInteger (UInt8.ofNat (value / 16777216))
        (UInt8.ofNat (value % 16777216 / 65536)) (UInt8.ofNat (value % 65536 / 256))
        (UInt8.ofNat (value % 256))
      rwa [first, second, third, fourth, sum] at isValue
  | variableByteInteger value =>
      have inRange : value < 268435456 := representable
      apply IsValue.variableByteInteger (vbi_encode value)
      rw [MQTTPacket.length_encode inRange]
      exact MQTTPacket.vbiLen_le value
  | data data => exact .binaryData (lenString_write representable)
  | string data => exact .utf8EncodedString (lenString_write representable)
  | stringPair data value =>
      exact .utf8StringPair (lenString_write representable.1) (lenString_write representable.2)

theorem areProperties_write {props : MQTTProperties} (wellTyped : ∀ prop ∈ props, prop.WellTyped)
    (representable : ∀ prop ∈ props, prop.value.Representable) :
    AreProperties (props.flatMap MQTTProperty.write) props := by
  induction props with
  | nil => exact .nil
  | cons prop props ih =>
      rw [List.flatMap_cons]
      apply AreProperties.cons
      · apply isProperty_write
        · exact wellTyped prop List.mem_cons_self
        · exact representable prop List.mem_cons_self
      · apply ih
        · exact fun prop mem => wellTyped prop (List.mem_cons_of_mem _ mem)
        · exact fun prop mem => representable prop (List.mem_cons_of_mem _ mem)

end Written

namespace PropertyList

/-- A list as `MQTTProperties_add` leaves it: the running length is that of the properties, which
all have a form on the wire. -/
structure Consistent (props : PropertyList) : Prop where
  length : props.length = MQTTProperties.length props.array
  wellTyped : ∀ prop ∈ props.array, prop.WellTyped
  representable : ∀ prop ∈ props.array, prop.value.Representable

section Consistency

variable {props props' : PropertyList} {prop : MQTTProperty}

theorem consistent_initializer : Consistent initializer := by
  apply Consistent.mk
  · rfl
  · simp [initializer]
  · simp [initializer]

/-- Only an identifier that is not in the table is refused. -/
theorem add_of_wellTyped (wellTyped : prop.WellTyped) :
    add props prop = (0, ⟨props.length + prop.len, props.array ++ [prop]⟩) := by
  simp [add, wellTyped.type]

theorem Consistent.add (consistent : props.Consistent) (wellTyped : prop.WellTyped)
    (representable : prop.value.Representable) (added : props.add prop = (0, props')) :
    props'.Consistent := by
  rw [add_of_wellTyped wellTyped] at added
  injection added with _ same
  subst same
  apply Consistent.mk
  · simp [MQTTProperties.length, consistent.length]
  · simp only [List.forall_mem_append, List.forall_mem_singleton]
    exact ⟨consistent.wellTyped, wellTyped⟩
  · simp only [List.forall_mem_append, List.forall_mem_singleton]
    exact ⟨consistent.representable, representable⟩

/-- Copying onto a list appends the properties, when all of them are in the table. -/
theorem foldl_add {array : MQTTProperties} (wellTyped : ∀ prop ∈ array, prop.WellTyped)
    (result : PropertyList) :
    array.foldl (fun result prop => (PropertyList.add result prop).2) result =
      ⟨result.length + MQTTProperties.length array, result.array ++ array⟩ := by
  induction array generalizing result with
  | nil => simp [MQTTProperties.length]
  | cons prop array ih =>
      rcases List.forall_mem_cons.mp wellTyped with ⟨first, others⟩
      rw [List.foldl_cons, add_of_wellTyped first, ih others]
      simp [MQTTProperties.length, Nat.add_assoc]

/-- A copy is the list over again. -/
theorem Consistent.copy_eq (consistent : props.Consistent) : props.copy = props := by
  rcases props with ⟨length, array⟩
  rw [copy, foldl_add consistent.wellTyped]
  simp [initializer, show length = MQTTProperties.length array from consistent.length]

theorem Built.consistent (built : props.Built) : props.Consistent := by
  induction built with
  | initializer => exact consistent_initializer
  | add _ wellTyped representable added consistent =>
      exact consistent.add wellTyped representable added
  | copy _ consistent => rwa [consistent.copy_eq]

/-- `MQTTProperties_len` is the number of bytes that are written. -/
theorem Consistent.length_write (consistent : props.Consistent)
    (inRange : props.length < 268435456) : props.write.length = props.len := by
  rw [write, List.length_append, MQTTPacket.length_encode inRange, len, Nat.add_comm]
  congr 1
  rw [consistent.length]
  rcases MQTTProperties.length_flatMap_write props.array with same | ⟨-, prop, mem, without⟩
  · exact same
  · exact absurd (consistent.representable prop mem) without

/-- What is written begins with the list, whatever comes behind it. -/
theorem Consistent.beginsWithList (consistent : props.Consistent)
    (inRange : props.length < 268435456) (rest : Bytes) :
    BeginsWithList (props.write ++ rest) props props.write.length := by
  refine ⟨MQTTPacket.encode props.length, props.array.flatMap MQTTProperty.write, rest, ?_,
    vbi_encode _, ?_, ?_, areProperties_write consistent.wellTyped consistent.representable, ?_⟩
  · rw [write, List.append_assoc]
  · rw [MQTTPacket.length_encode inRange]
    exact MQTTPacket.vbiLen_le _
  · rw [consistent.length]
    rcases MQTTProperties.length_flatMap_write props.array with same | ⟨-, prop, mem, without⟩
    · exact same
    · exact absurd (consistent.representable prop mem) without
  · rw [write, List.length_append]

end Consistency

/--
Every property list that was built by adding and copying and whose length is below 2^28 is read back
from what is written of it: `MQTTProperties_read` returns 1 with the same list, and takes all bytes
that were written and no others.
-/
theorem readList_write {props : PropertyList} (built : props.Built)
    (inRange : props.length < 268435456) (rest : Bytes) :
    readList (props.write ++ rest) = some (.taken props props.write.length) :=
  readList_of_beginsWithList (built.consistent.beginsWithList inRange rest)

/-- A copy of a list of a payload format indicator and a user property. -/
theorem readList_write_userProperty :
    readList (copy ⟨8, [⟨1, .byte 1⟩, ⟨38, .stringPair [107] []⟩]⟩).write =
      some (.taken ⟨8, [⟨1, .byte 1⟩, ⟨38, .stringPair [107] []⟩]⟩ 9) := by
  have indicator : MQTTProperty.WellTyped ⟨1, .byte 1⟩ := ⟨rfl, by simp [MQTTPropertyValue.InType]⟩
  have user : MQTTProperty.WellTyped ⟨38, .stringPair [107] []⟩ := ⟨rfl, trivial⟩
  have first : Built ⟨2, [⟨1, .byte 1⟩]⟩ := .add .initializer indicator trivial rfl
  have second : Built ⟨8, [⟨1, .byte 1⟩, ⟨38, .stringPair [107] []⟩]⟩ :=
    .add first user (show MQTTPropertyValue.Representable (.stringPair [107] []) by decide) rfl
  have length : (copy ⟨8, [⟨1, .byte 1⟩, ⟨38, .stringPair [107] []⟩]⟩).write.length = 9 := by
    rw [second.consistent.copy_eq, write, MQTTPacket.encode_of_lt (by decide)]
    rfl
  have taken := readList_write second.copy (by decide) []
  rw [List.append_nil, length] at taken
  exact taken

end PropertyList

end Paho
