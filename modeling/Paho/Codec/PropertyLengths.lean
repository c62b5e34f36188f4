import Paho.Codec.PropertyLists

/-!
# The three lengths of a property list

`MQTTProperties_add` adds up the size of each property, `MQTTProperties_len` predicts the size of
the whole list, and `MQTTProperties_write` moves its pointer and returns a count.
`MQTTPacket_VBIlen` never says more than four bytes, and the count takes one byte for the length
field.
-/

namespace Paho

namespace MQTTProperty

/-- What `MQTTProperty_write` returns, for an identifier of the table. -/
def writeResult (prop : MQTTProperty) : Nat :=
  (match prop.value with
    | .byte _ => 1
    | .integer2 _ => 2
    | .integer4 _ => 4
    | .variableByteInteger value => (MQTTPacket.encode value).length
    | .data data => data.length + 2
    | .string data => data.length + 2
    | .stringPair data value => data.length + value.length + 4) + 1

variable {prop : MQTTProperty}

theorem writeResult_eq (prop : MQTTProperty) : prop.writeResult = prop.write.length := by
  rcases prop with ⟨identifier, value⟩
  cases value with
  | stringPair data value =>
      simp [writeResult, write, MQTTPacket.writeMQTTLenString, MQTTPacket.writeInt]
      omega
  | _ =>
      simp [writeResult, write, MQTTPacket.writeMQTTLenString, MQTTPacket.writeInt,
        MQTTPacket.writeInt4]

theorem len_le_length_write (prop : MQTTProperty) : prop.len ≤ prop.write.length := by
  rcases prop.length_write with same | ⟨less, -⟩ <;> omega

end MQTTProperty

/-- A variable byte integer is within the four bytes that the format gives it. -/
def MQTTPropertyValue.FourBytes : MQTTPropertyValue → Prop
  | .variableByteInteger value => value < 268435456
  | _ => True

instance : DecidablePred MQTTPropertyValue.FourBytes := fun value =>
  match value with
  | .variableByteInteger value => inferInstanceAs (Decidable (value < 268435456))
  | .byte _ | .integer2 _ | .integer4 _ | .data _ | .string _ | .stringPair _ _ => isTrue trivial

theorem MQTTProperty.length_write_eq_len_iff (prop : MQTTProperty) :
    prop.write.length = prop.len ↔ prop.value.FourBytes := by
  rcases prop with ⟨identifier, value⟩
  cases value with
  | variableByteInteger value =>
      rcases length_write ⟨identifier, .variableByteInteger value⟩ with same | ⟨less, long⟩
      · refine iff_of_true same ?_
        show value < 268435456
        by_contra outOfRange
        have long := MQTTPacket.le_length_encode (Nat.le_of_not_lt outOfRange)
        have short := MQTTPacket.vbiLen_le
          (if value < 2147483648 then (value : Int) else value - 4294967296)
        simp only [write, len, List.length_cons] at same
        omega
      · exact iff_of_false (by omega) long
  | _ =>
      refine iff_of_true ?_ trivial
      simp [write, len, MQTTPacket.writeInt, MQTTPacket.writeInt4, MQTTPacket.writeMQTTLenString]
      try omega

namespace PropertyList

/-- What `MQTTProperties_write` returns for a list of properties with identifiers of the table. -/
def writeResult (props : PropertyList) : Nat :=
  props.array.foldl (fun len prop => len + prop.writeResult) 1

/-- The lists that are built by calls of `MQTTProperties_add` that return 0, with any values of the
types of the properties. -/
inductive Added : PropertyList → Prop
  | initializer : Added initializer
  | add {props props' : PropertyList} {prop : MQTTProperty} (added : Added props)
      (wellTyped : prop.WellTyped) (accepted : add props prop = (0, props')) : Added props'

variable {props : PropertyList}

theorem Added.length (added : props.Added) : props.length = MQTTProperties.length props.array := by
  induction added with
  | initializer => rfl
  | add _ wellTyped accepted ih =>
      rw [add_of_wellTyped wellTyped] at accepted
      injection accepted with _ same
      subst same
      simp [MQTTProperties.length, ih]

theorem foldl_writeResult (array : MQTTProperties) (len : Nat) :
    array.foldl (fun len prop => len + prop.writeResult) len =
      len + (array.flatMap MQTTProperty.write).length := by
  induction array generalizing len with
  | nil => rfl
  | cons prop array ih =>
      rw [List.foldl_cons, ih, prop.writeResult_eq, List.flatMap_cons, List.length_append]
      omega

theorem writeResult_eq (props : PropertyList) :
    props.writeResult = 1 + (props.array.flatMap MQTTProperty.write).length :=
  foldl_writeResult props.array 1

theorem length_le_length_flatMap_write (array : MQTTProperties) :
    MQTTProperties.length array ≤ (array.flatMap MQTTProperty.write).length := by
  rcases MQTTProperties.length_flatMap_write array with same | ⟨less, -⟩ <;> omega

/-- The sizes that are added up are those that are written, for properties whose variable byte
integers fit. -/
theorem length_flatMap_write_iff (array : MQTTProperties) :
    (array.flatMap MQTTProperty.write).length = MQTTProperties.length array ↔
      ∀ prop ∈ array, prop.value.FourBytes := by
  induction array with
  | nil => simp [MQTTProperties.length]
  | cons prop array ih =>
      have first := prop.len_le_length_write
      have others := length_le_length_flatMap_write array
      rw [List.forall_mem_cons, ← prop.length_write_eq_len_iff, ← ih, List.flatMap_cons,
        List.length_append, MQTTProperties.length_cons]
      omega

theorem one_eq_length_encode_iff (n : Nat) : (MQTTPacket.encode n).length = 1 ↔ n < 128 := by
  by_cases small : n < 128
  · simp [MQTTPacket.encode_of_lt small, small]
  · have more := MQTTPacket.length_encode_pos (n / 128)
    rw [MQTTPacket.encode_of_le (by omega), List.length_cons]
    omega

/--
The three computations of the length of a list built by `MQTTProperties_add` agree exactly when the
list is shorter than 128 bytes and every variable byte integer in it fits in four bytes. Else the
value that `MQTTProperties_write` returns is too small, or more bytes are written than
`MQTTProperties_len` says.
-/
theorem lengths_agree_iff (added : props.Added) :
    (props.write.length = props.len ∧ props.writeResult = props.write.length) ↔
      props.length < 128 ∧ ∀ prop ∈ props.array, prop.value.FourBytes := by
  have total := added.length
  have least := length_le_length_flatMap_write props.array
  have front := one_eq_length_encode_iff props.length
  rw [← length_flatMap_write_iff, ← total, len, props.writeResult_eq, write, List.length_append,
    ← front]
  constructor
  · rintro ⟨predicted, returned⟩
    have one : (MQTTPacket.encode props.length).length = 1 := by omega
    have fits := MQTTPacket.length_encode (show props.length < 268435456 by omega)
    omega
  · rintro ⟨one, same⟩
    have fits := MQTTPacket.length_encode (show props.length < 268435456 by omega)
    omega

/-- A subscription identifier of 5. -/
theorem lengths_agree_subscriptionIdentifier :
    (PropertyList.mk 2 [⟨11, .variableByteInteger 5⟩]).write.length = 3 ∧
      (PropertyList.mk 2 [⟨11, .variableByteInteger 5⟩]).writeResult = 3 := by
  have wellTyped : MQTTProperty.WellTyped ⟨11, .variableByteInteger 5⟩ :=
    ⟨rfl, by simp [MQTTPropertyValue.InType]⟩
  have added : Added ⟨2, [⟨11, .variableByteInteger 5⟩]⟩ := .add .initializer wellTyped rfl
  have agree := (lengths_agree_iff added).mpr ⟨by decide, by decide⟩
  have three : (PropertyList.mk 2 [⟨11, .variableByteInteger 5⟩]).len = 3 := rfl
  rw [agree.2, agree.1]
  exact ⟨three, three⟩

/-- For a content type of 125 bytes 130 bytes are written, as predicted, and 129 are returned. For
the subscription identifier 2^28, which is accepted too, seven bytes are written where six are
predicted. -/
theorem lengths_disagree :
    (Added ⟨128, [⟨3, .string (List.replicate 125 97)⟩]⟩ ∧
      (PropertyList.mk 128 [⟨3, .string (List.replicate 125 97)⟩]).write.length = 130 ∧
      (PropertyList.mk 128 [⟨3, .string (List.replicate 125 97)⟩]).writeResult = 129) ∧
    (Added ⟨5, [⟨11, .variableByteInteger 268435456⟩]⟩ ∧
      (PropertyList.mk 5 [⟨11, .variableByteInteger 268435456⟩]).write.length = 7 ∧
      (PropertyList.mk 5 [⟨11, .variableByteInteger 268435456⟩]).len = 6) := by
  have contentType : MQTTProperty.WellTyped ⟨3, .string (List.replicate 125 97)⟩ := ⟨rfl, trivial⟩
  have identifier : MQTTProperty.WellTyped ⟨11, .variableByteInteger 268435456⟩ :=
    ⟨rfl, by simp [MQTTPropertyValue.InType]⟩
  constructor
  · refine ⟨.add .initializer contentType ?_, ?_, ?_⟩
    · rw [add_of_wellTyped contentType]
      simp only [initializer, MQTTProperty.len, List.length_replicate, List.nil_append]
    · simp [write, MQTTProperty.write, MQTTPacket.encode, MQTTPacket.writeMQTTLenString,
        MQTTPacket.writeInt]
    · simp [writeResult, MQTTProperty.writeResult]
  · refine ⟨.add .initializer identifier rfl, ?_, rfl⟩
    simp [write, MQTTProperty.write, MQTTPacket.encode]

end PropertyList

end Paho
