import Paho.Codec.PropertyLists

/-!
# Properties that were received

Whatever `MQTTProperties_read` has taken has a form on the wire, also when the bytes were not in it:
a variable byte integer that was too long has a value that is not.
-/

namespace Paho

open PropertyReader

section Values

variable {type : MQTTPropertyType} {item field bytes : Bytes} {value : MQTTPropertyValue}
  {prop : MQTTProperty} {n : Nat}

theorem IsValue.type_eq (isValue : IsValue type item value) : value.type = type := by
  cases isValue <;> rfl

theorem lenString_lt {data : Bytes} (isString : LenString item data) :
    data.length < 65536 ∧ item.length = 2 + data.length := by
  cases isString with
  | @intro first second data length =>
      have := first.toNat_lt
      have := second.toNat_lt
      simp only [List.length_cons]
      omega

theorem vbi_lt_four (isVBI : VBI field n) (short : field.length ≤ 4) : n < 268435456 := by
  apply Nat.lt_of_lt_of_le (vbi_lt isVBI)
  exact Nat.pow_le_pow_right (show 0 < 128 by decide) short

/-- No form of a number is shorter than the one that is predicted. -/
theorem vbiLen_le_length (isVBI : VBI field n) (short : field.length ≤ 4) :
    MQTTPacket.vbiLen n ≤ field.length := by
  have below := vbi_lt isVBI
  have positive := isVBI.ne_nil
  have lengths : field.length = 1 ∨ field.length = 2 ∨ field.length = 3 ∨ field.length = 4 := by
    omega
  unfold MQTTPacket.vbiLen
  rcases lengths with length | length | length | length
  · rw [length] at below ⊢
    split_ifs <;> omega
  · rw [length] at below ⊢
    split_ifs <;> omega
  · rw [length] at below ⊢
    split_ifs <;> omega
  · rw [length]
    split_ifs <;> omega

theorem IsValue.inType (isValue : IsValue type item value) : value.InType := by
  cases isValue with
  | byte c => exact c.toNat_lt
  | twoByteInteger first second =>
      have := first.toNat_lt
      have := second.toNat_lt
      simp only [MQTTPropertyValue.InType]
      omega
  | fourByteInteger first second third fourth =>
      have := first.toNat_lt
      have := second.toNat_lt
      have := third.toNat_lt
      have := fourth.toNat_lt
      simp only [MQTTPropertyValue.InType]
      omega
  | variableByteInteger isVBI short =>
      have := vbi_lt_four isVBI short
      simp only [MQTTPropertyValue.InType]
      omega
  | _ => trivial

theorem IsValue.representable (isValue : IsValue type item value) : value.Representable := by
  cases isValue with
  | variableByteInteger isVBI short => exact vbi_lt_four isVBI short
  | binaryData isData => exact (lenString_lt isData).1
  | utf8EncodedString isString => exact (lenString_lt isString).1
  | utf8StringPair isName isString => exact ⟨(lenString_lt isName).1, (lenString_lt isString).1⟩
  | _ => trivial

theorem IsValue.len_le (isValue : IsValue type item value) (identifier : Nat) :
    MQTTProperty.len ⟨identifier, value⟩ ≤ item.length + 1 := by
  cases isValue with
  | @variableByteInteger field n isVBI short =>
      have small := vbi_lt_four isVBI short
      have least := vbiLen_le_length isVBI short
      simp only [MQTTProperty.len]
      rw [if_pos (by omega)]
      omega
  | binaryData isData =>
      have := (lenString_lt isData).2
      simp only [MQTTProperty.len]
      omega
  | utf8EncodedString isString =>
      have := (lenString_lt isString).2
      simp only [MQTTProperty.len]
      omega
  | utf8StringPair isName isString =>
      have := (lenString_lt isName).2
      have := (lenString_lt isString).2
      simp only [MQTTProperty.len, List.length_append]
      omega
  | _ => simp [MQTTProperty.len]

/-- What a property that was taken off the wire is like. -/
structure TakenAs (prop : MQTTProperty) (n : Nat) : Prop where
  wellTyped : prop.WellTyped
  representable : prop.value.Representable
  len_le : prop.len ≤ n

theorem Item.takenAs (item : Item bytes prop n) : TakenAs prop n := by
  cases item with
  | property split isProperty =>
      cases isProperty with
      | intro known isValue =>
          rw [List.length_cons]
          exact ⟨⟨isValue.type_eq ▸ known, isValue.inType⟩, isValue.representable, isValue.len_le _⟩
  | @overlong identifier field rest split isNumber overlong =>
      have small : lowerBits field < 268435456 := by
        have below := lowerBits_lt field
        rwa [overlong.1] at below
      have four := MQTTPacket.vbiLen_le (lowerBits field)
      refine ⟨⟨isNumber, ?_⟩, small, ?_⟩
      · simp only [MQTTPropertyValue.InType]
        omega
      · simp only [MQTTProperty.len]
        rw [if_pos (by omega)]
        omega

/-- An item goes at most one byte past the end. -/
theorem Item.le_length (item : Item bytes prop n) : n ≤ bytes.length + 1 := by
  cases item with
  | property split isProperty =>
      subst split
      rw [List.length_append]
      omega
  | overlong split isNumber overlong =>
      subst split
      have := overlong.1
      simp only [List.length_cons, List.length_append]
      omega

end Values

section Lists

variable {bytes rest : Bytes} {items : List (MQTTProperty × Nat)} {list : PropertyList} {n : Nat}

theorem Walk.takenAs (walk : Walk bytes items rest) : ∀ item ∈ items, TakenAs item.1 item.2 := by
  induction walk with
  | nil bytes => simp
  | cons item _ ih => exact List.forall_mem_cons.mpr ⟨item.takenAs, ih⟩

theorem Walk.total_le (walk : Walk bytes items rest) : total items ≤ bytes.length + 1 := by
  induction walk with
  | nil bytes => exact Nat.zero_le _
  | @cons bytes rest prop n items item walk ih =>
      have first := item.le_length
      rw [total_cons]
      rw [List.length_drop] at ih
      by_cases within : n ≤ bytes.length
      · omega
      · -- nothing is left behind an item that goes past the end
        have past : bytes.drop n = [] := List.drop_eq_nil_of_le (by omega)
        rw [past] at walk
        cases walk with
        | nil => simpa [total] using first
        | cons item' _ => exact absurd rfl (item_bounds item').1

theorem length_le_total (taken : ∀ item ∈ items, TakenAs item.1 item.2) :
    MQTTProperties.length (items.map Prod.fst) ≤ total items := by
  induction items with
  | nil => exact Nat.le_refl 0
  | cons item items ih =>
      rcases List.forall_mem_cons.mp taken with ⟨first, others⟩
      have := first.len_le
      have := ih others
      rw [List.map_cons, MQTTProperties.length_cons, total_cons]
      omega

theorem Announces.pos {length m : Nat} (announces : Announces bytes length m) : 0 < m := by
  cases announces with
  | field split isVBI short => exact isVBI.ne_nil
  | overlong split overlong => decide

/-- The list that was taken from a packet can be written, and its properties can be added again. -/
theorem readList_properties (small : bytes.length < 268435456)
    (taken : readList bytes = some (.taken list n)) :
    (∀ prop ∈ list.array, prop.WellTyped) ∧ MQTTProperties.Representable list.array := by
  rcases readList_taken.mp taken with ⟨m, items, rest, announces, walk, -, array, -⟩
  have each := walk.takenAs
  have bound := walk.total_le
  have positive := announces.pos
  have nonempty := List.length_pos_of_ne_nil announces.ne_nil
  rw [List.length_drop] at bound
  rw [array]
  refine ⟨?_, ⟨?_, ?_⟩⟩
  · exact List.forall_mem_map.mpr fun item mem => (each item mem).wellTyped
  · exact List.forall_mem_map.mpr fun item mem => (each item mem).representable
  · have := length_le_total each
    omega

end Lists

end Paho
