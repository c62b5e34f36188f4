import Paho.Codec.QueueRecords
import Paho.Codec.StoredPackets

/-!
# Queue entries that are restored

`MQTTPersistence_restoreQueueEntry` on the bytes of any record, with its allocation of a payload of
any length, and for which bytes it stays within them.
-/

namespace Paho

open Decoder Native PropertyReader

/-- Whether `mymalloc` gets its storage for an `int`: the size becomes a `size_t`, is rounded up by
`Heap_roundup`, and grows by two eyecatchers of eight bytes; `malloc` refuses more than
`PTRDIFF_MAX` and has whatever is less. -/
def allocates (size : Int) : Bool :=
  let size := (size % 18446744073709551616).toNat
  let rounded := (size + 15) / 16 * 16 % 18446744073709551616
  decide ((rounded + 16) % 18446744073709551616 < 9223372036854775808)

/-- What is left of the bytes from their first zero. -/
def fromZero (bytes : Bytes) : Bytes :=
  bytes.dropWhile (· ≠ 0)

namespace QueueRecord

/-- The fields of an entry behind `payloadlen` and in front of the properties. Nothing is checked.
-/
def readFields (payloadlen : Int32) : Decoder UInt8 Entry :=
  andThen (symbols payloadlen.toInt.toNat) fun payload =>
    andThen readNative fun qos => andThen readNative fun retained => andThen readNative fun dup =>
      andThen readNative fun msgid => andThen readString fun topicName =>
        andThen readNative fun topicLen =>
          ret
            { msg :=
                { payloadlen := payloadlen
                  payload := payload
                  qos := qos
                  retained := retained
                  dup := dup
                  msgid := msgid
                  properties := [] }
              topicName := topicName.bytes
              topicLen := topicLen }

/-- `MQTTPersistence_restoreQueueEntry`, where an entry that is turned down is told from a read
outside the record. A negative length that is allocated is a huge `size_t` for `memcpy`; an error in
the properties is logged only. -/
def restoreQueueEntry (version : Nat) (buffer : Bytes) : Option (Parsed Entry) :=
  (readNative buffer).bind fun (payloadlen, ptr) =>
    if allocates payloadlen.toInt = false then some .bad
    else if payloadlen.toInt < 0 then none
    else
      (readFields payloadlen ptr).bind fun (entry, ptr) =>
        if mqttVersion5 ≤ version then
          match readList ptr with
          | some (.taken properties _) =>
              some (.pack { entry with msg := { entry.msg with properties := properties.array } })
          | some (.failed _) => some (.pack entry)
          | _ => none
        else some (.pack entry)

end QueueRecord

/-- The record of an entry that is read beyond its end: it is cut off within the length of the
payload, within the fields behind the payload or within the name and the length of the topic, the
length is negative and yet allocated, or under MQTT 5 the properties run off. -/
inductive EntryRunsOff (version : Nat) (record : Bytes) : Prop
  | payloadlen (short : record.length < 4)
  | negative {payloadlen : Int32} {rest : Bytes}
  (read : readNative record = some (payloadlen, rest))
      (isNegative : payloadlen.toInt < 0) (allocated : allocates payloadlen.toInt = true)
  | fields {payloadlen : Int32} {rest : Bytes} (read : readNative record = some (payloadlen, rest))
      (nonneg : 0 ≤ payloadlen.toInt) (short : rest.length < payloadlen.toInt.toNat + 16)
  | topic {payloadlen : Int32} {rest : Bytes} (read : readNative record = some (payloadlen, rest))
      (nonneg : 0 ≤ payloadlen.toInt)
      (short : (fromZero (rest.drop (payloadlen.toInt.toNat + 16))).length < 5)
  | properties {payloadlen : Int32} {rest : Bytes} (five : mqttVersion5 ≤ version)
      (read : readNative record = some (payloadlen, rest)) (nonneg : 0 ≤ payloadlen.toInt)
      (runsOff : RunsOff ((fromZero (rest.drop (payloadlen.toInt.toNat + 16))).drop 5))

/-! ## The parts of what is restored -/

/-- The strings and the binary data of a value. -/
def MQTTPropertyValue.parts : MQTTPropertyValue → List Bytes
  | .data value => [value]
  | .string value => [value]
  | .stringPair name value => [name, value]
  | _ => []

/-- All parts of the properties are in the record. -/
def MQTTProperties.Inside (props : MQTTProperties) (record : Bytes) : Prop :=
  ∀ prop ∈ props, ∀ part ∈ prop.value.parts, part <:+: record

/-- The payload, the topic and the parts of the properties of an entry are in the record. -/
def QueueRecord.Entry.Inside (entry : QueueRecord.Entry) (record : Bytes) : Prop :=
  entry.msg.payload <:+: record ∧ entry.topicName <:+: record ∧
    MQTTProperties.Inside entry.msg.properties record

section Properties

open BoundedReader

variable {record bytes : Bytes}

theorem mqttLenStringRead_gives : mqttLenStringRead.Gives record (· <:+: record) := by
  intro input value n suffix taken
  rcases input with _ | ⟨first, _ | ⟨second, rest⟩⟩
  · cases taken
  · cases taken
  · simp only [mqttLenStringRead] at taken
    split at taken
    · cases taken
      have behind : rest <:+ first :: second :: rest := ⟨[first, second], rfl⟩
      exact (List.take_prefix _ _).isInfix.trans (behind.trans suffix).isInfix
    · cases taken

theorem readValue_gives (type : MQTTPropertyType) :
    (PropertyReader.readValue type).Gives record fun result =>
      ∀ part ∈ result.1.parts, part <:+: record := by
  cases type with
  | byte | twoByteInteger | fourByteInteger | variableByteInteger =>
      refine Gives.andThen Gives.any fun value _ => Gives.ret ?_
      simp [MQTTPropertyValue.parts]
  | binaryData | utf8EncodedString =>
      refine Gives.andThen mqttLenStringRead_gives fun data inside => Gives.ret ?_
      simpa [MQTTPropertyValue.parts] using inside
  | utf8StringPair =>
      refine Gives.andThen mqttLenStringRead_gives fun data inside => ?_
      refine Gives.andThen mqttLenStringRead_gives fun value insideToo => Gives.ret ?_
      simpa [MQTTPropertyValue.parts] using ⟨inside, insideToo⟩

theorem read_gives : PropertyReader.read.Gives record fun result =>
    ∀ part ∈ result.1.value.parts, part <:+: record := by
  refine Gives.andThen Gives.any fun identifier _ => ?_
  split
  next => exact Gives.failed
  next type _ =>
    refine Gives.andThen (readValue_gives type) fun result inside => Gives.ret ?_
    exact inside

/-- Every property that a round takes is in the record. -/
theorem readLoop_gives {rounds remlength n : Nat} {props : MQTTProperties}
    (suffix : bytes <:+ record)
    (taken : PropertyReader.readLoop rounds remlength bytes = some (.taken props n)) :
    MQTTProperties.Inside props record := by
  induction rounds generalizing remlength bytes props n with
  | zero => cases taken
  | succ rounds ih =>
      simp only [PropertyReader.readLoop] at taken
      split at taken
      next =>
        cases taken
        simp [MQTTProperties.Inside]
      next =>
        split at taken
        next prop proplen m item =>
          rcases Option.map_eq_some_iff.mp taken with ⟨reading, others, whole⟩
          rcases BoundedReading.advance_eq_taken.mp whole with ⟨k, mapped, -⟩
          rcases BoundedReading.map_eq_taken.mp mapped with ⟨props, rfl, rfl⟩
          have insideToo := ih ((List.drop_suffix m bytes).trans suffix) others
          exact List.forall_mem_cons.mpr ⟨read_gives bytes _ _ suffix item, insideToo⟩
        next => cases taken
        next => cases taken

theorem readList_gives {list : PropertyList} {n : Nat} (suffix : bytes <:+ record)
    (taken : readList bytes = some (.taken list n)) : MQTTProperties.Inside list.array record := by
  rw [readList] at taken
  split at taken
  · cases taken
  · split at taken
    next length len m _ =>
      rcases Option.map_eq_some_iff.mp taken with ⟨reading, loop, whole⟩
      rcases BoundedReading.advance_eq_taken.mp whole with ⟨k, mapped, -⟩
      rcases BoundedReading.map_eq_taken.mp mapped with ⟨props, rfl, rfl⟩
      exact readLoop_gives ((List.drop_suffix m bytes).trans suffix) loop
    next => cases taken
    next => cases taken

end Properties

section Reading

variable {bytes rest record : Bytes} {value : Int32}

theorem fixed_readNative : readNative.Fixed 4 := by
  constructor
  · intro input
    rcases input with _ | ⟨_, _ | ⟨_, _ | ⟨_, _ | ⟨_, tail⟩⟩⟩⟩ <;> simp [readNative]
  · intro input value rest read
    rcases input with _ | ⟨_, _ | ⟨_, _ | ⟨_, _ | ⟨_, tail⟩⟩⟩⟩
    · cases read
    · cases read
    · cases read
    · cases read
    · simp only [readNative, Option.some.injEq, Prod.mk.injEq] at read
      simp [read.2]

theorem length_stringAt (bytes : Bytes) :
    (stringAt bytes).bytes.length + (fromZero bytes).length = bytes.length := by
  rw [stringAt, fromZero, ← List.length_append, List.takeWhile_append_dropWhile]

theorem drop_stringAt (bytes : Bytes) (n : Nat) :
    bytes.drop ((stringAt bytes).bytes.length + n) = (fromZero bytes).drop n := by
  have split : (stringAt bytes).bytes ++ fromZero bytes = bytes := List.takeWhile_append_dropWhile
  have whole := @List.drop_left _ (stringAt bytes).bytes (fromZero bytes)
  rw [split] at whole
  rw [← List.drop_drop, whole]

theorem readString_eq_none_iff :
    QueueRecord.readString bytes = none ↔ (fromZero bytes).length < 1 := by
  have length := length_stringAt bytes
  unfold QueueRecord.readString
  dsimp only
  split
  next short => exact iff_of_true rfl (by omega)
  next long => exact iff_of_false (by simp) (by omega)

theorem readString_rest {name : CString} (read : QueueRecord.readString bytes = some (name, rest)) :
    rest = (fromZero bytes).drop 1 := by
  unfold QueueRecord.readString at read
  dsimp only at read
  split at read
  · cases read
  · cases read
    exact drop_stringAt bytes 1

theorem allocates_of_nonneg {size : Int32} (nonneg : 0 ≤ size.toInt) :
    allocates size.toInt = true := by
  have := size.toInt_lt
  simp only [allocates, decide_eq_true_eq]
  omega

/-- What is needed behind the length of the payload. -/
theorem readFields_eq_none_iff (payloadlen : Int32) (bytes : Bytes) :
    QueueRecord.readFields payloadlen bytes = none ↔
      bytes.length < payloadlen.toInt.toNat + 16 ∨
        (fromZero (bytes.drop (payloadlen.toInt.toNat + 16))).length < 5 := by
  have ends (bytes : Bytes) (next : CString → Int32 → Decoder UInt8 QueueRecord.Entry)
      (total : ∀ name len rest, next name len rest ≠ none) :
      andThen QueueRecord.readString (fun name => andThen readNative (next name)) bytes = none ↔
        (fromZero bytes).length < 5 := by
    cases read : QueueRecord.readString bytes with
    | none =>
        have short := readString_eq_none_iff.mp read
        exact iff_of_true (andThen_of_none read) (by omega)
    | some pair =>
        rcases pair with ⟨name, rest⟩
        have long : ¬(fromZero bytes).length < 1 := by
          rw [← readString_eq_none_iff, read]
          simp
        rw [andThen_of_some read, fixed_readNative.andThen_eq_none_iff fun value =>
          iff_false_intro (total name value _), or_false, readString_rest read, List.length_drop]
        omega
  unfold QueueRecord.readFields
  rw [(Fixed.symbols _).andThen_eq_none_iff fun payload =>
    fixed_readNative.andThen_eq_none_iff fun qos =>
      fixed_readNative.andThen_eq_none_iff fun retained =>
    fixed_readNative.andThen_eq_none_iff fun dup =>
      fixed_readNative.andThen_eq_none_iff fun msgid =>
    ends _ _ fun name len rest => by simp [ret]]
  simp only [List.drop_drop, List.length_drop]
  have fields : payloadlen.toInt.toNat + 4 + 4 + 4 + 4 = payloadlen.toInt.toNat + 16 := by omega
  rw [fields]
  omega

theorem readFields_rest {payloadlen : Int32} {entry : QueueRecord.Entry}
    (read : QueueRecord.readFields payloadlen bytes = some (entry, rest)) :
    rest = (fromZero (bytes.drop (payloadlen.toInt.toNat + 16))).drop 5 := by
  unfold QueueRecord.readFields at read
  rcases (Fixed.symbols _).andThen_eq_some read with ⟨payload, read⟩
  rcases fixed_readNative.andThen_eq_some read with ⟨qos, read⟩
  rcases fixed_readNative.andThen_eq_some read with ⟨retained, read⟩
  rcases fixed_readNative.andThen_eq_some read with ⟨dup, read⟩
  rcases fixed_readNative.andThen_eq_some read with ⟨msgid, read⟩
  rcases andThen_eq_some.mp read with ⟨name, middle, first, read⟩
  rcases fixed_readNative.andThen_eq_some read with ⟨topicLen, read⟩
  simp only [ret, Option.some.injEq, Prod.mk.injEq] at read
  rw [← read.2, readString_rest first]
  simp only [List.drop_drop]

/-- The payload and the topic of an entry are in the bytes behind the length. -/
theorem readFields_inside {payloadlen : Int32} {entry : QueueRecord.Entry}
    (read : QueueRecord.readFields payloadlen bytes = some (entry, rest))
    (suffix : bytes <:+ record) :
    entry.Inside record := by
  unfold QueueRecord.readFields at read
  rcases andThen_eq_some.mp read with ⟨payload, behind, taken, read⟩
  have isDrop := (Fixed.symbols _).rest _ _ _ taken
  simp only [Decoder.symbols, Option.ite_none_right_eq_some, Option.some.injEq,
    Prod.mk.injEq] at taken
  rcases fixed_readNative.andThen_eq_some read with ⟨qos, read⟩
  rcases fixed_readNative.andThen_eq_some read with ⟨retained, read⟩
  rcases fixed_readNative.andThen_eq_some read with ⟨dup, read⟩
  rcases fixed_readNative.andThen_eq_some read with ⟨msgid, read⟩
  rcases andThen_eq_some.mp read with ⟨name, middle, first, read⟩
  rcases fixed_readNative.andThen_eq_some read with ⟨topicLen, read⟩
  simp only [ret, Option.some.injEq, Prod.mk.injEq] at read
  rw [← read.1]
  refine ⟨?_, ?_, ?_⟩
  · rw [← taken.2.1]
    exact (List.take_prefix _ _).isInfix.trans suffix.isInfix
  · simp only [isDrop, List.drop_drop] at first
    unfold QueueRecord.readString at first
    dsimp only at first
    split at first
    · cases first
    · cases first
      exact (List.takeWhile_prefix _).isInfix.trans ((List.drop_suffix _ _).trans suffix).isInfix
  · simp [MQTTProperties.Inside]

end Reading

section Entries

variable {version : Nat} {record rest : Bytes} {payloadlen : Int32}

/-- What runs off behind a length that is not negative. -/
theorem entryRunsOff_iff (read : readNative record = some (payloadlen, rest))
    (nonneg : 0 ≤ payloadlen.toInt) :
    EntryRunsOff version record ↔
      QueueRecord.readFields payloadlen rest = none ∨
        (mqttVersion5 ≤ version ∧
          RunsOff ((fromZero (rest.drop (payloadlen.toInt.toNat + 16))).drop 5)) := by
  rw [readFields_eq_none_iff]
  constructor
  · intro runsOff
    have same {payloadlen' : Int32} {rest' : Bytes}
        (read' : readNative record = some (payloadlen', rest')) :
        payloadlen' = payloadlen ∧ rest' = rest := by
      simpa using read'.symm.trans read
    cases runsOff with
    | payloadlen short =>
        rw [(fixed_readNative.fails record).mpr short] at read
        cases read
    | negative read' isNegative =>
        rcases same read' with ⟨rfl, rfl⟩
        exact absurd isNegative (by omega)
    | fields read' _ short =>
        rcases same read' with ⟨rfl, rfl⟩
        exact .inl (.inl short)
    | topic read' _ short =>
        rcases same read' with ⟨rfl, rfl⟩
        exact .inl (.inr short)
    | properties five read' _ runsOff =>
        rcases same read' with ⟨rfl, rfl⟩
        exact .inr ⟨five, runsOff⟩
  · rintro ((short | short) | ⟨five, runsOff⟩)
    · exact .fields read nonneg short
    · exact .topic read nonneg short
    · exact .properties five read nonneg runsOff

/-- A record is read within its bounds, and what is restored is in it, unless it runs off. -/
theorem restoreQueueEntry_staysInside_iff (version : Nat) (record : Bytes) :
    StaysInside (QueueRecord.restoreQueueEntry version record) (·.Inside record) ↔
      ¬EntryRunsOff version record := by
  cases read : readNative record with
  | none =>
      have short := (fixed_readNative.fails record).mp read
      rw [QueueRecord.restoreQueueEntry, read]
      exact iff_of_false staysInside_none (not_not_intro (.payloadlen short))
  | some pair =>
      rcases pair with ⟨payloadlen, rest⟩
      simp only [QueueRecord.restoreQueueEntry, read, Option.bind_some]
      by_cases negative : payloadlen.toInt < 0
      · cases allocated : allocates payloadlen.toInt with
        | false =>
            apply iff_of_true
            · exact staysInside_bad
            · intro runsOff
              cases runsOff with
              | payloadlen short =>
                  rw [(fixed_readNative.fails record).mpr short] at read
                  cases read
              | negative read' _ allocated' =>
                  cases read.symm.trans read'
                  rw [allocated] at allocated'
                  cases allocated'
              | fields read' nonneg | topic read' nonneg | properties _ read' nonneg =>
                  cases read.symm.trans read'
                  omega
        | true =>
            apply iff_of_false
            · simpa [negative] using staysInside_none
            · exact not_not_intro (.negative read negative allocated)
      · have nonneg : 0 ≤ payloadlen.toInt := by omega
        rw [entryRunsOff_iff read nonneg]
        simp only [allocates_of_nonneg nonneg, negative, Bool.true_eq_false, if_false]
        cases fields : QueueRecord.readFields payloadlen rest with
        | none => simp [staysInside_none]
        | some pair =>
            rcases pair with ⟨entry, ptr⟩
            have afterLength := fixed_readNative.rest _ _ _ read
            have suffix : rest <:+ record := afterLength ▸ List.drop_suffix 4 record
            have inside := readFields_inside fields suffix
            have whole : StaysInside (some (.pack entry)) (·.Inside record) :=
              staysInside_pack.mpr inside
            have behind := readFields_rest fields
            rw [← behind]
            by_cases five : mqttVersion5 ≤ version
            · rcases Option.isSome_iff_exists.mp (readList_isSome ptr) with ⟨reading, result⟩
              rw [← readList_overrun]
              cases reading with
              | taken list n =>
                  have ptrSuffix : ptr <:+ record := by
                    rw [behind]
                    exact (List.drop_suffix _ _).trans ((List.dropWhile_suffix _).trans
                      ((List.drop_suffix _ _).trans suffix))
                  have properties := readList_gives ptrSuffix result
                  have all : StaysInside (some (.pack { entry with
                      msg := { entry.msg with properties := list.array } })) (·.Inside record) :=
                    staysInside_pack.mpr ⟨inside.1, inside.2.1, properties⟩
                  simpa [five, result] using all
              | failed n => simpa [five, result] using whole
              | overrun => simp [five, result, staysInside_none]
            · simpa [five] using whole

end Entries

end Paho
