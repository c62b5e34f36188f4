import Paho.Codec.CommandRecords
import Paho.Codec.StoredEntries

/-!
# Commands that are restored

`MQTTAsync_restoreCommand` on the bytes of any record, in the reading for the queue and in the one
before the command is processed, and for which bytes the three functions that restore stay within
the record.
-/

namespace Paho

open BoundedReader Native PropertyReader

namespace StoredCommand

open CommandRecord

section Reader

variable (version : Nat) (first : Bool)

/-- Copy a string whose zero is not the last byte. Without a zero, `strcpy` goes past the end. -/
def copyString : BoundedReader UInt8 CString := fun bytes =>
  let data_size := (stringAt bytes).bytes.length + 1
  if data_size = bytes.length then .failed 0
  else if bytes.length < data_size then .overrun
  else .taken (stringAt bytes) data_size

/-- Go behind a string that is not copied; without a zero that is behind the end. -/
def skipString : BoundedReader UInt8 CString := fun bytes =>
  let data_size := (stringAt bytes).bytes.length + 1
  if data_size = bytes.length then .failed 0 else .taken (stringAt bytes) data_size

/-- A topic and its QoS. -/
def readTopic : BoundedReader UInt8 (CString × Int32) :=
  andThen copyString fun topic => andThen (checked readNative) fun qos => ret (topic, qos)

/-- A topic, its QoS and its options. -/
def readTopic5 : BoundedReader UInt8 ((CString × Int32) × MQTTSubscribeOptions) :=
  andThen readTopic fun topic => andThen (checked readOptions) fun options => ret (topic, options)

/-- The case `SUBSCRIBE`. -/
def readSub : BoundedReader UInt8 Sub :=
  andThen (checked readNative) fun count =>
    if mqttVersion5 ≤ version then
      andThen (repeated readTopic5 count.toInt.toNat) fun topics =>
        ret
          { count := count
            topics := topics.map Prod.fst
            opts := if count = 1 then (topics.map Prod.snd).headD .zero else .zero
            optlist := if count = 1 then [] else topics.map Prod.snd }
    else
      andThen (repeated readTopic count.toInt.toNat) fun topics =>
        ret { count := count, topics := topics, opts := .zero, optlist := [] }

/-- The case `UNSUBSCRIBE`. -/
def readUnsub : BoundedReader UInt8 Unsub :=
  andThen (checked readNative) fun count =>
    andThen (repeated copyString count.toInt.toNat) fun topics =>
      ret { count := count, topics := topics }

/-- Two values of type `int`, for which there is one check. -/
def readPair : Decoder UInt8 (Int32 × Int32) :=
  Decoder.andThen readNative fun left => Decoder.andThen readNative fun right =>
    Decoder.ret (left, right)

/-- The QoS and the flag behind a payload of negative length. The test for the end lets the length
pass. It moves the pointer back in the first reading, when nothing else moves it; otherwise
it is a `size_t` for `malloc` and for `memcpy`. -/
def readNegative (buffer : Bytes) (payloadlen : Int32) : BoundedReader UInt8 Pub := fun ptr =>
  if first then
    let position := (buffer.length : Int) - ptr.length + payloadlen.toInt
    if position < 0 then .overrun
    else
      andThen (checked readPair) (fun (qos, retained) =>
        ret
          { destinationName := none
            payloadlen := payloadlen
            payload := none
            qos := qos
            retained := retained }) (buffer.drop position.toNat)
  else if allocates payloadlen.toInt then .overrun
  else .failed 0

/-- A PUBLISH behind its topic. The first reading keeps neither the topic nor the payload. -/
def readPayload (buffer : Bytes) (destinationName : CString) : BoundedReader UInt8 Pub :=
  andThen (checked readNative) fun payloadlen =>
    if payloadlen.toInt < 0 then readNegative first buffer payloadlen
    else
      andThen (checked (Decoder.symbols payloadlen.toInt.toNat)) fun payload =>
        andThen (checked readPair) fun (qos, retained) =>
          ret
            { destinationName := if first then none else some destinationName
              payloadlen := payloadlen
              payload := if first then none else some payload
              qos := qos
              retained := retained }

/-- The case `PUBLISH`. -/
def readPub (buffer : Bytes) : BoundedReader UInt8 Pub :=
  andThen (if first then skipString else copyString) (readPayload first buffer)

/-- The `switch` of `MQTTAsync_restoreCommand`. -/
def readDetails (buffer : Bytes) (type : Int32) : BoundedReader UInt8 Details :=
  if type = typeSubscribe then
    if first then ret (.sub { count := 0, topics := [], opts := .zero, optlist := [] })
    else andThen (readSub version) fun sub => ret (.sub sub)
  else if type = typeUnsubscribe then
    if first then ret (.unsub { count := 0, topics := [] })
    else andThen readUnsub fun unsub => ret (.unsub unsub)
  else if type = typePublish then andThen (readPub first buffer) fun pub => ret (.pub pub)
  else fun _ => .failed 0

/-- The properties of a command. -/
def readProperties : BoundedReader UInt8 MQTTProperties := fun bytes =>
  match readList bytes with
  | some reading => reading.map PropertyList.array
  | none => .overrun

/-- The record of a command, whose bytes are all of `buffer`. -/
def reader (buffer : Bytes) : BoundedReader UInt8 CommandRecord.QueuedCommand :=
  andThen (checked readPair) fun (type, token) =>
    andThen (readDetails version first buffer type) fun details =>
      andThen (if first = false ∧ mqttVersion5 ≤ version then readProperties else ret [])
        fun properties =>
          ret
            { command := { token := token, details := details, properties := properties }
              not_restored := first }

/-- `MQTTAsync_restoreCommand`, with `NULL` for `qcommand` in the first reading. A command that
is turned down is told from a read outside the record. -/
def restoreCommand (buffer : Bytes) : Option (Parsed CommandRecord.QueuedCommand) :=
  if buffer = [] then some .bad
  else
    match reader version first buffer buffer with
    | .taken qcommand _ => some (.pack qcommand)
    | .failed _ => some .bad
    | .overrun => none

end Reader

end StoredCommand

/-- The strings of the details of a command, and its payload. -/
def CommandRecord.Details.parts : CommandRecord.Details → List Bytes
  | .sub details => details.topics.map fun topic => topic.1.bytes
  | .unsub details => details.topics.map fun topic => topic.bytes
  | .pub details => (details.destinationName.map CString.bytes).toList ++ details.payload.toList

/-- The parts of the details and of the properties of a command are in the record. -/
def CommandRecord.QueuedCommand.Inside (qcommand : CommandRecord.QueuedCommand) (record : Bytes) :
    Prop :=
  (∀ part ∈ qcommand.command.details.parts, part <:+: record) ∧
    MQTTProperties.Inside qcommand.command.properties record

/-! ## Records that are read beyond their end -/

/-- A topic with so many bytes behind its zero, of which the zero is not the last byte. -/
def Topic (more : Nat) (input left : Bytes) : Prop :=
  ∃ (name : CString) (extra : Bytes), extra.length = more ∧ extra ++ left ≠ [] ∧
    input = name.bytes ++ 0 :: (extra ++ left)

/-- The bytes behind the zero of a topic of a SUBSCRIBE: the QoS and under MQTT 5 the options. -/
def behindTopic (version : Nat) : Nat :=
  if mqttVersion5 ≤ version then 16 else 4

/-- No byte is zero. -/
def Unterminated (bytes : Bytes) : Prop :=
  ∀ byte ∈ bytes, byte ≠ 0

/-- The details of a command, which begin with the ninth byte, are read outside the record: behind
some of the topics no zero ends the next one, or none ends the topic of a PUBLISH; or the
payload has a negative length, for which storage is got, or which in the first reading leads to a
place before the record. -/
inductive DetailsRunOff (version : Nat) : Bool → Int32 → Bytes → Prop
  | subscribe {count : Int32} {body topics left : Bytes} {fewer : Nat}
      (read : readNative body = some (count, topics)) (less : fewer < count.toInt.toNat)
      (steps : Steps (Topic (behindTopic version)) fewer topics left)
      (unterminated : Unterminated left) :
      DetailsRunOff version false CommandRecord.typeSubscribe body
  | unsubscribe {count : Int32} {body topics left : Bytes} {fewer : Nat}
      (read : readNative body = some (count, topics)) (less : fewer < count.toInt.toNat)
      (steps : Steps (Topic 0) fewer topics left) (unterminated : Unterminated left) :
      DetailsRunOff version false CommandRecord.typeUnsubscribe body
  | publish {body : Bytes} (unterminated : Unterminated body) :
      DetailsRunOff version false CommandRecord.typePublish body
  | payload {body part rest : Bytes} {payloadlen : Int32} (topic : Topic 0 body part)
      (read : readNative part = some (payloadlen, rest)) (isNegative : payloadlen.toInt < 0)
      (allocated : allocates payloadlen.toInt = true) :
      DetailsRunOff version false CommandRecord.typePublish body
  | back {body part rest : Bytes} {payloadlen : Int32} (topic : Topic 0 body part)
      (read : readNative part = some (payloadlen, rest)) (isNegative : payloadlen.toInt < 0)
      (before : ((8 + body.length - rest.length : Nat) : Int) + payloadlen.toInt < 0) :
      DetailsRunOff version true CommandRecord.typePublish body

/-- What is left of a command behind its details. -/
inductive BehindDetails (version : Nat) : Int32 → Bytes → Bytes → Prop
  | subscribe {count : Int32} {body topics left : Bytes}
      (read : readNative body = some (count, topics))
      (steps : Steps (Topic (behindTopic version)) count.toInt.toNat topics left) :
      BehindDetails version CommandRecord.typeSubscribe body left
  | unsubscribe {count : Int32} {body topics left : Bytes}
      (read : readNative body = some (count, topics))
      (steps : Steps (Topic 0) count.toInt.toNat topics left) :
      BehindDetails version CommandRecord.typeUnsubscribe body left
  | publish {body part rest : Bytes} {payloadlen : Int32} (topic : Topic 0 body part)
      (read : readNative part = some (payloadlen, rest)) (nonneg : 0 ≤ payloadlen.toInt)
      (whole : payloadlen.toInt.toNat + 8 ≤ rest.length) :
      BehindDetails version CommandRecord.typePublish body
        (rest.drop (payloadlen.toInt.toNat + 8))

/-- The record of a command that is read beyond one of its ends: in its details, or under MQTT 5,
not in the first reading, in the properties behind them. -/
inductive CommandRunsOff (version : Nat) : Bool → Bytes → Prop
  | details {first : Bool} {record body : Bytes} {type token : Int32}
      (read : StoredCommand.readPair record = some ((type, token), body))
      (runOff : DetailsRunOff version first type body) : CommandRunsOff version first record
  | properties {record body left : Bytes} {type token : Int32}
      (read : StoredCommand.readPair record = some ((type, token), body))
      (five : mqttVersion5 ≤ version) (behind : BehindDetails version type body left)
      (runsOff : RunsOff left) : CommandRunsOff version false record

namespace StoredCommand

open CommandRecord

section Topics

variable {version : Nat} {first : Bool} {input left : Bytes} {name : CString} {n : Nat}

theorem fixed_readPair : readPair.Fixed 8 := by
  constructor
  · intro input
    unfold readPair
    rw [fixed_readNative.andThen_eq_none_iff fun left => fixed_readNative.andThen_eq_none_iff
      fun right => show Decoder.ret _ _ = none ↔ False by simp [Decoder.ret]]
    rw [List.length_drop, or_false]
    omega
  · intro input value rest read
    rcases fixed_readNative.andThen_eq_some read with ⟨left, read⟩
    rcases fixed_readNative.andThen_eq_some read with ⟨right, read⟩
    simp only [Decoder.ret, Option.some.injEq, Prod.mk.injEq, List.drop_drop] at read
    exact read.2.symm

/-- The options are three parts of four bytes. -/
theorem fixed_readOptions : readOptions.Fixed 12 := by
  have parts (bytes : Bytes) : bytes.length < 4 ∨ ∃ c0 c1 c2 c3 rest, bytes =
    c0 :: c1 :: c2 :: c3 :: rest := by
    rcases bytes with _ | ⟨c0, _ | ⟨c1, _ | ⟨c2, _ | ⟨c3, rest⟩⟩⟩⟩ <;> simp
  have outcome (input : Bytes) : (input.length < 12 ∧ readOptions input = none) ∨
      ∃ value, readOptions input = some (value, input.drop 12) ∧ 12 ≤ input.length := by
    rcases parts input with short | ⟨a0, a1, a2, a3, second, rfl⟩
    · left
      refine ⟨by omega, ?_⟩
      rcases input with _ | ⟨_, _ | ⟨_, _ | ⟨_, _ | ⟨_, rest⟩⟩⟩⟩
      · rfl
      · rfl
      · rfl
      · rfl
      · simp only [List.length_cons] at short
        omega
    · rcases parts second with short | ⟨b0, b1, b2, b3, third, rfl⟩
      · have unread := (fixed_readNative.fails second).mpr short
        refine .inl ⟨by simp only [List.length_cons]; omega, ?_⟩
        rw [readOptions, Decoder.andThen_of_none unread]
      · rcases parts third with short | ⟨d0, d1, d2, d3, rest, rfl⟩
        · left
          refine ⟨by simp only [List.length_cons]; omega, ?_⟩
          rcases third with _ | ⟨_, _ | ⟨_, _ | ⟨_, _ | ⟨_, rest⟩⟩⟩⟩
          · rfl
          · rfl
          · rfl
          · rfl
          · simp only [List.length_cons] at short
            omega
        · exact .inr ⟨_, rfl, by simp⟩
  constructor
  · intro input
    rcases outcome input with ⟨short, none⟩ | ⟨value, some, long⟩
    · exact iff_of_true none short
    · exact iff_of_false (by simp [some]) (by omega)
  · intro input value rest read
    rcases outcome input with ⟨short, none⟩ | ⟨other, some, long⟩
    · rw [none] at read
      cases read
    · rw [some] at read
      cases read
      rfl

theorem fromZero_eq_nil_iff : fromZero input = [] ↔ Unterminated input := by
  simp [fromZero, Unterminated, List.dropWhile_eq_nil_iff]

/-- The zero that ends a string is where the bytes have it first. -/
theorem stringAt_terminated (name : CString) (rest : Bytes) :
    stringAt (name.bytes ++ 0 :: rest) = name := by
  have written := stringAt_writeString name rest
  rwa [writeString, List.append_assoc] at written

theorem terminated_stringAt (zero : ¬Unterminated input) :
    input = (stringAt input).bytes ++ 0 :: (input.drop ((stringAt input).bytes.length + 1)) := by
  have whole : (stringAt input).bytes ++ fromZero input = input := List.takeWhile_append_dropWhile
  have first := List.head?_dropWhile_not (fun byte : UInt8 => decide (byte ≠ 0)) input
  rw [← fromZero_eq_nil_iff] at zero
  rw [drop_stringAt]
  cases isFrom : fromZero input with
  | nil => exact absurd isFrom zero
  | cons byte rest =>
      rw [fromZero] at isFrom
      rw [isFrom] at first
      have isZero : byte = 0 := by simpa using first
      rw [← isZero, List.drop_one, List.tail_cons, ← isFrom]
      exact whole.symm

theorem copyString_eq_overrun : copyString input = .overrun ↔ Unterminated input := by
  have length := length_stringAt input
  rw [← fromZero_eq_nil_iff, ← List.length_eq_zero_iff]
  simp only [copyString]
  split
  next last => exact iff_of_false (by simp) (by omega)
  next =>
    split
    next short => exact iff_of_true rfl (by omega)
    next long => exact iff_of_false (by simp) (by omega)

theorem copyString_eq_taken : copyString input = .taken name n ↔
    ∃ left ≠ [], input = name.bytes ++ 0 :: left ∧ n = name.bytes.length + 1 := by
  constructor
  · intro taken
    have zero : ¬Unterminated input := by
      rw [← copyString_eq_overrun, taken]
      simp
    have whole := terminated_stringAt zero
    simp only [copyString] at taken
    split at taken
    next => cases taken
    next notLast =>
      split at taken
      next => cases taken
      next =>
        cases taken
        refine ⟨_, ?_, whole, rfl⟩
        intro isLast
        rw [isLast] at whole
        exact notLast (by simpa using (congrArg List.length whole).symm)
  · rintro ⟨left, nonempty, rfl, rfl⟩
    have length := List.length_pos_of_ne_nil nonempty
    simp only [copyString, stringAt_terminated, List.length_append, List.length_cons]
    rw [if_neg (by omega), if_neg (by omega)]

/-- A string that is copied is a topic, and only one without a zero overruns. -/
theorem leaves_copyString (input left : Bytes) : copyString.Leaves input left ↔
    Topic 0 input left := by
  constructor
  · rintro ⟨name, n, taken, rfl⟩
    rcases copyString_eq_taken.mp taken with ⟨left, nonempty, rfl, rfl⟩
    refine ⟨name, [], rfl, ?_, ?_⟩
    · simpa using nonempty
    · simp
  · rintro ⟨name, extra, length, nonempty, rfl⟩
    rw [List.length_eq_zero_iff] at length
    subst length
    exact ⟨name, _, copyString_eq_taken.mpr ⟨left, nonempty, rfl, rfl⟩, by simp⟩

/-- The bytes behind a topic can be taken as a part of it. -/
theorem topic_add {more k : Nat} (positive : 0 < k) :
    Topic (more + k) input left ↔
      ∃ middle, Topic more input middle ∧ k ≤ middle.length ∧ left = middle.drop k := by
  constructor
  · rintro ⟨name, extra, length, -, rfl⟩
    refine ⟨extra.drop more ++ left, ⟨name, extra.take more, ?_, ?_, ?_⟩, ?_, ?_⟩
    · rw [List.length_take]
      omega
    · rw [← List.append_assoc, List.take_append_drop]
      exact List.append_ne_nil_of_left_ne_nil (List.length_pos_iff.mp (by omega)) _
    · rw [← List.append_assoc, List.take_append_drop]
    · rw [List.length_append, List.length_drop]
      omega
    · rw [List.drop_left' (by rw [List.length_drop]; omega)]
  · rintro ⟨middle, ⟨name, extra, length, -, rfl⟩, long, rfl⟩
    refine ⟨name, extra ++ middle.take k, ?_, ?_, ?_⟩
    · rw [List.length_append, List.length_take]
      omega
    · rw [List.append_assoc, List.take_append_drop]
      exact List.append_ne_nil_of_right_ne_nil _ (List.length_pos_iff.mp (by omega))
    · rw [List.append_assoc, List.take_append_drop]

section Part

variable {Value Other Both : Type} {reader : BoundedReader UInt8 Value}
  {decoder : Decoder UInt8 Other} {f : Value → Other → Both} {more k : Nat}

/-- A topic, and a part of it that is checked. -/
theorem leaves_part (leaves : ∀ input left, reader.Leaves input left ↔ Topic more input left)
    (fixed : decoder.Fixed k) (positive : 0 < k) (input left : Bytes) :
    (andThen reader fun value => andThen (checked decoder) fun other => ret (f value other)).Leaves
      input left ↔ Topic (more + k) input left := by
  rw [leaves_andThen, topic_add positive]
  simp only [leaves_andThen_ret, leaves_checked fixed]
  constructor
  · rintro ⟨value, n, taken, long, rfl⟩
    exact ⟨_, (leaves _ _).mp ⟨value, n, taken, rfl⟩, long, rfl⟩
  · rintro ⟨middle, topic, long, rfl⟩
    rcases (leaves _ _).mpr topic with ⟨value, n, taken, rfl⟩
    exact ⟨value, n, taken, long, rfl⟩

theorem part_eq_overrun (input : Bytes) :
    (andThen reader fun value => andThen (checked decoder) fun other => ret (f value other))
      input = .overrun ↔ reader input = .overrun := by
  rw [andThen_eq_overrun]
  simp [andThen_ret_eq_overrun, checked_ne_overrun]

end Part

theorem leaves_readTopic (input left : Bytes) : readTopic.Leaves input left ↔ Topic 4 input left :=
  leaves_part leaves_copyString fixed_readNative (by decide) input left

theorem readTopic_eq_overrun (input : Bytes) : readTopic input = .overrun ↔ Unterminated input :=
  (part_eq_overrun input).trans copyString_eq_overrun

theorem leaves_readTopic5 (input left : Bytes) : readTopic5.Leaves input left ↔
    Topic 16 input left :=
  leaves_part leaves_readTopic fixed_readOptions (by decide) input left

theorem readTopic5_eq_overrun (input : Bytes) : readTopic5 input = .overrun ↔ Unterminated input :=
  (part_eq_overrun input).trans (readTopic_eq_overrun input)

section Counted

variable {Value Other : Type} {next : Int32 → BoundedReader UInt8 Other} {P : Prop}

/-- A count that is checked, and what it says. -/
theorem counted_eq_overrun (body : Bytes) :
    andThen (checked readNative) next body = .overrun ↔
      ∃ count topics, readNative body = some (count, topics) ∧ next count topics = .overrun := by
  rw [andThen_eq_overrun, or_iff_right (checked_ne_overrun _ _)]
  simp only [checked_eq_taken fixed_readNative]
  constructor
  · rintro ⟨count, n, ⟨read, rfl⟩, overrun⟩
    exact ⟨count, _, read, overrun⟩
  · rintro ⟨count, topics, read, overrun⟩
    have isDrop := fixed_readNative.rest _ _ _ read
    subst isDrop
    exact ⟨count, 4, ⟨read, rfl⟩, overrun⟩

theorem leaves_counted (body left : Bytes) :
    (andThen (checked readNative) next).Leaves body left ↔
      ∃ count topics, readNative body = some (count, topics) ∧ (next count).Leaves topics left := by
  rw [leaves_andThen]
  simp only [checked_eq_taken fixed_readNative]
  constructor
  · rintro ⟨count, n, ⟨read, rfl⟩, leaves⟩
    exact ⟨count, _, read, leaves⟩
  · rintro ⟨count, topics, read, leaves⟩
    have isDrop := fixed_readNative.rest _ _ _ read
    subst isDrop
    exact ⟨count, 4, ⟨read, rfl⟩, leaves⟩

end Counted

end Topics

section Details

variable {version n : Nat} {first : Bool} {buffer input body left : Bytes} {name : CString}

theorem readSub_eq_overrun :
    readSub version body = .overrun ↔ DetailsRunOff version false typeSubscribe body := by
  have overrun : readSub version body = .overrun ↔ ∃ count topics,
      readNative body = some (count, topics) ∧ ∃ fewer < count.toInt.toNat, ∃ left,
        Steps (Topic (behindTopic version)) fewer topics left ∧ Unterminated left := by
    rw [readSub, counted_eq_overrun]
    apply exists₂_congr
    intro count topics
    apply and_congr_right
    intro _
    unfold behindTopic
    split
    · rw [andThen_ret_eq_overrun]
      exact repeated_eq_overrun leaves_readTopic5 readTopic5_eq_overrun _ _
    · rw [andThen_ret_eq_overrun]
      exact repeated_eq_overrun leaves_readTopic readTopic_eq_overrun _ _
  rw [overrun]
  constructor
  · rintro ⟨count, topics, read, fewer, less, left, steps, unterminated⟩
    exact .subscribe read less steps unterminated
  · generalize isType : typeSubscribe = type
    intro runOff
    cases runOff with
    | subscribe read less steps unterminated => exact ⟨_, _, read, _, less, _, steps, unterminated⟩
    | unsubscribe | publish | payload => exact absurd isType (by decide)

theorem leaves_readSub :
    (readSub version).Leaves body left ↔ BehindDetails version typeSubscribe body left := by
  have leaves : (readSub version).Leaves body left ↔ ∃ count topics,
      readNative body = some (count, topics) ∧
        Steps (Topic (behindTopic version)) count.toInt.toNat topics left := by
    rw [readSub, leaves_counted]
    apply exists₂_congr
    intro count topics
    apply and_congr_right
    intro _
    unfold behindTopic
    split
    · rw [leaves_andThen_ret]
      exact leaves_repeated leaves_readTopic5 _ _ _
    · rw [leaves_andThen_ret]
      exact leaves_repeated leaves_readTopic _ _ _
  rw [leaves]
  constructor
  · rintro ⟨count, topics, read, steps⟩
    exact .subscribe read steps
  · generalize isType : typeSubscribe = type
    intro behind
    cases behind with
    | subscribe read steps => exact ⟨_, _, read, steps⟩
    | unsubscribe | publish => exact absurd isType (by decide)

theorem readUnsub_eq_overrun :
    readUnsub body = .overrun ↔ DetailsRunOff version false typeUnsubscribe body := by
  rw [readUnsub, counted_eq_overrun]
  simp only [andThen_ret_eq_overrun, repeated_eq_overrun leaves_copyString fun _ =>
    copyString_eq_overrun]
  constructor
  · rintro ⟨count, topics, read, fewer, less, left, steps, unterminated⟩
    exact .unsubscribe read less steps unterminated
  · generalize isType : typeUnsubscribe = type
    intro runOff
    cases runOff with
    | unsubscribe read less steps unterminated =>
        exact ⟨_, _, read, _, less, _, steps, unterminated⟩
    | subscribe | publish | payload => exact absurd isType (by decide)

theorem leaves_readUnsub :
    readUnsub.Leaves body left ↔ BehindDetails version typeUnsubscribe body left := by
  rw [readUnsub, leaves_counted]
  simp only [leaves_andThen_ret, leaves_repeated leaves_copyString]
  constructor
  · rintro ⟨count, topics, read, steps⟩
    exact .unsubscribe read steps
  · generalize isType : typeUnsubscribe = type
    intro behind
    cases behind with
    | unsubscribe read steps => exact ⟨_, _, read, steps⟩
    | subscribe | publish => exact absurd isType (by decide)

/-- A string that is not copied differs only where a copy would overrun. -/
theorem skipString_cases (input : Bytes) : skipString input = copyString input ∨
    Unterminated input ∧ ∃ name, skipString input = .taken name (input.length + 1) := by
  have length := length_stringAt input
  simp only [skipString, copyString]
  split
  next last => exact .inl rfl
  next notLast =>
    split
    next short =>
      right
      refine ⟨?_, stringAt input, ?_⟩
      · rw [← fromZero_eq_nil_iff, ← List.length_eq_zero_iff]
        omega
      · congr 1
        omega
    next long => exact .inl rfl

/-- What of a payload overruns, or is taken back to. -/
def PayloadRunsOff (first : Bool) (buffer part : Bytes) : Prop :=
  ∃ payloadlen rest, readNative part = some (payloadlen, rest) ∧ payloadlen.toInt < 0 ∧
    if first then (buffer.length : Int) - rest.length + payloadlen.toInt < 0
    else allocates payloadlen.toInt = true

theorem readPayload_eq_overrun (name : CString) (part : Bytes) :
    readPayload first buffer name part = .overrun ↔ PayloadRunsOff first buffer part := by
  rw [readPayload, counted_eq_overrun]
  apply exists₂_congr
  intro payloadlen rest
  apply and_congr_right
  intro _
  split
  next negative =>
    rw [readNegative]
    cases first with
    | false =>
        simp only [Bool.false_eq_true, if_false]
        cases allocates payloadlen.toInt <;> simp [negative]
    | true =>
        simp only [if_true, negative, true_and]
        split
        next before => exact iff_of_true rfl before
        next inside =>
          simp [andThen_eq_overrun, checked_ne_overrun, BoundedReader.ret, inside]
  next nonneg =>
    simp [andThen_eq_overrun, checked_ne_overrun, BoundedReader.ret, nonneg]

/-- A string that is there is taken, copied or not. -/
theorem skipString_of_taken (taken : copyString input = .taken name n) :
    skipString input = .taken name n := by
  rcases skipString_cases input with same | ⟨unterminated, -⟩
  · rw [same, taken]
  · rw [copyString_eq_overrun.mpr unterminated] at taken
    cases taken

theorem readPub_eq_overrun (whole : buffer.length = 8 + body.length) :
    readPub first buffer body = .overrun ↔ DetailsRunOff version first typePublish body := by
  have place {n : Nat} {payloadlen : Int32} {rest : Bytes}
      (read : readNative (body.drop n) = some (payloadlen, rest)) :
      (buffer.length : Int) - rest.length = ((8 + body.length - rest.length : Nat) : Int) := by
    have isDrop := fixed_readNative.rest _ _ _ read
    have length := congrArg List.length isDrop
    simp only [List.length_drop] at length
    omega
  rw [readPub, andThen_eq_overrun]
  simp only [readPayload_eq_overrun]
  cases first with
  | false =>
      simp only [Bool.false_eq_true, if_false]
      constructor
      · rintro (overrun | ⟨name, n, taken, payloadlen, rest, read, isNegative, allocated⟩)
        · exact .publish (copyString_eq_overrun.mp overrun)
        · exact .payload ((leaves_copyString _ _).mp ⟨name, n, taken, rfl⟩) read isNegative
            (by simpa using allocated)
      · generalize isType : typePublish = type
        intro runOff
        cases runOff with
        | publish unterminated => exact .inl (copyString_eq_overrun.mpr unterminated)
        | payload topic read isNegative allocated =>
            rcases (leaves_copyString _ _).mpr topic with ⟨name, n, taken, rfl⟩
            exact .inr ⟨name, n, taken, _, _, read, isNegative, by simpa using allocated⟩
        | subscribe | unsubscribe => exact absurd isType (by decide)
  | true =>
      simp only [if_true]
      constructor
      · rintro (overrun | ⟨name, n, taken, payloadlen, rest, read, isNegative, before⟩)
        · unfold skipString at overrun
          dsimp only at overrun
          split at overrun <;> cases overrun
        · rcases skipString_cases body with same | ⟨unterminated, name', behind⟩
          · rw [same] at taken
            refine .back ((leaves_copyString _ _).mp ⟨name, n, taken, rfl⟩) read isNegative ?_
            rw [← place read]
            simpa using before
          · cases taken.symm.trans behind
            rw [List.drop_eq_nil_of_le (by omega)] at read
            cases read
      · generalize isType : typePublish = type
        intro runOff
        cases runOff with
        | back topic read isNegative before =>
            rcases (leaves_copyString _ _).mpr topic with ⟨name, n, taken, rfl⟩
            refine .inr ⟨name, n, skipString_of_taken taken, _, _, read, isNegative, ?_⟩
            rw [← place read] at before
            simpa using before

theorem leaves_readPub :
    (readPub false buffer).Leaves body left ↔ BehindDetails version typePublish body left := by
  have leaves (name : CString) (part : Bytes) :
      (readPayload false buffer name).Leaves part left ↔ ∃ payloadlen rest,
        readNative part = some (payloadlen, rest) ∧ 0 ≤ payloadlen.toInt ∧
          payloadlen.toInt.toNat + 8 ≤ rest.length ∧
            left = rest.drop (payloadlen.toInt.toNat + 8) := by
    rw [readPayload, leaves_counted]
    apply exists₂_congr
    intro payloadlen rest
    apply and_congr_right
    intro _
    split
    next negative =>
      refine iff_of_false ?_ (by omega)
      rintro ⟨pub, n, taken, -⟩
      simp only [readNegative, Bool.false_eq_true, if_false] at taken
      split at taken <;> cases taken
    next nonneg =>
      rw [leaves_andThen]
      simp only [leaves_andThen_ret, leaves_checked fixed_readPair,
        checked_eq_taken (Decoder.Fixed.symbols _), List.length_drop, List.drop_drop]
      constructor
      · rintro ⟨payload, n, ⟨read, rfl⟩, long, rfl⟩
        exact ⟨by omega, by omega, rfl⟩
      · rintro ⟨-, whole, rfl⟩
        refine ⟨rest.take payloadlen.toInt.toNat, _, ⟨?_, rfl⟩, by omega, rfl⟩
        rw [Decoder.symbols, if_pos (by omega)]
  rw [readPub, leaves_andThen]
  simp only [Bool.false_eq_true, if_false, leaves]
  constructor
  · rintro ⟨name, n, taken, payloadlen, rest, read, nonneg, whole, rfl⟩
    exact .publish ((leaves_copyString _ _).mp ⟨name, n, taken, rfl⟩) read nonneg whole
  · generalize isType : typePublish = type
    intro behind
    cases behind with
    | publish topic read nonneg whole =>
        rcases (leaves_copyString _ _).mpr topic with ⟨name, n, taken, rfl⟩
        exact ⟨name, n, taken, _, _, read, nonneg, whole, rfl⟩
    | subscribe | unsubscribe => exact absurd isType (by decide)

theorem readDetails_eq_overrun {type : Int32} (whole : buffer.length = 8 + body.length) :
    readDetails version first buffer type body = .overrun ↔
      DetailsRunOff version first type body := by
  by_cases isSubscribe : type = typeSubscribe
  · subst isSubscribe
    cases first with
    | false =>
        rw [← readSub_eq_overrun]
        simp [readDetails, andThen_ret_eq_overrun]
    | true =>
        refine iff_of_false (by simp [readDetails, BoundedReader.ret]) ?_
        generalize isType : typeSubscribe = type
        intro runOff
        cases runOff with
        | back => exact absurd isType (by decide)
  · by_cases isUnsubscribe : type = typeUnsubscribe
    · subst isUnsubscribe
      cases first with
      | false =>
          rw [← readUnsub_eq_overrun]
          simp [readDetails, andThen_ret_eq_overrun, isSubscribe]
      | true =>
          refine iff_of_false (by simp [readDetails, BoundedReader.ret, isSubscribe]) ?_
          generalize isType : typeUnsubscribe = type
          intro runOff
          cases runOff with
          | back => exact absurd isType (by decide)
    · by_cases isPublish : type = typePublish
      · subst isPublish
        rw [← readPub_eq_overrun whole]
        simp [readDetails, andThen_ret_eq_overrun, isSubscribe, isUnsubscribe]
      · refine iff_of_false (by simp [readDetails, isSubscribe, isUnsubscribe, isPublish]) ?_
        intro runOff
        cases runOff with
        | subscribe => exact isSubscribe rfl
        | unsubscribe => exact isUnsubscribe rfl
        | publish | payload | back => exact isPublish rfl

theorem leaves_readDetails {type : Int32} :
    (readDetails version false buffer type).Leaves body left ↔
    BehindDetails version type body left := by
  unfold readDetails
  simp only [Bool.false_eq_true, if_false]
  split
  next isSubscribe =>
    subst isSubscribe
    rw [leaves_andThen_ret]
    exact leaves_readSub
  next isSubscribe =>
    split
    next isUnsubscribe =>
      subst isUnsubscribe
      rw [leaves_andThen_ret]
      exact leaves_readUnsub
    next isUnsubscribe =>
      split
      next isPublish =>
        subst isPublish
        rw [leaves_andThen_ret]
        exact leaves_readPub
      next isPublish =>
        apply iff_of_false
        · rintro ⟨details, n, taken, -⟩
          cases taken
        · intro behind
          cases behind with
          | subscribe => exact isSubscribe rfl
          | unsubscribe => exact isUnsubscribe rfl
          | publish => exact isPublish rfl

end Details

section Parts

variable {version : Nat} {first : Bool} {buffer record : Bytes}

theorem copyString_gives : copyString.Gives record fun name => name.bytes <:+: record := by
  intro input name n suffix taken
  rcases copyString_eq_taken.mp taken with ⟨left, -, rfl, -⟩
  exact (List.prefix_append _ _).isInfix.trans suffix.isInfix

theorem symbols_gives (n : Nat) : (checked (Decoder.symbols n)).Gives record (· <:+: record) := by
  intro input part k suffix taken
  rcases (checked_eq_taken (Decoder.Fixed.symbols n)).mp taken with ⟨read, rfl⟩
  simp only [Decoder.symbols, Option.ite_none_right_eq_some, Option.some.injEq, Prod.mk.injEq,
    and_true] at read
  rw [← read.2]
  exact (List.take_prefix _ _).isInfix.trans suffix.isInfix

theorem readTopic_gives : readTopic.Gives record fun topic => topic.1.bytes <:+: record :=
  Gives.andThen copyString_gives fun _ inside => Gives.andThen Gives.any fun _ _ => Gives.ret inside

theorem readTopic5_gives : readTopic5.Gives record fun topic => topic.1.1.bytes <:+: record :=
  Gives.andThen readTopic_gives fun _ inside => Gives.andThen Gives.any fun _ _ => Gives.ret inside

theorem readSub_gives : (readSub version).Gives record fun sub =>
    ∀ part ∈ (Details.sub sub).parts, part <:+: record := by
  refine Gives.andThen Gives.any fun count _ => ?_
  split
  · refine Gives.andThen (Gives.repeated readTopic5_gives _) fun topics inside => Gives.ret ?_
    simp only [Details.parts, List.map_map]
    exact List.forall_mem_map.mpr inside
  · refine Gives.andThen (Gives.repeated readTopic_gives _) fun topics inside => Gives.ret ?_
    exact List.forall_mem_map.mpr inside

theorem readUnsub_gives : readUnsub.Gives record fun unsub =>
    ∀ part ∈ (Details.unsub unsub).parts, part <:+: record := by
  refine Gives.andThen Gives.any fun count _ => ?_
  refine Gives.andThen (Gives.repeated copyString_gives _) fun topics inside => Gives.ret ?_
  simpa [Details.parts] using inside

theorem readNegative_gives (payloadlen : Int32) :
    (readNegative first buffer payloadlen).Gives record
    fun pub => ∀ part ∈ (Details.pub pub).parts, part <:+: record := by
  intro input pub n suffix taken
  unfold readNegative at taken
  split at taken
  · dsimp only at taken
    split at taken
    · cases taken
    · have gives : (andThen (checked readPair) fun ((qos, retained) : Int32 × Int32) =>
          ret (Pub.mk none payloadlen none qos retained)).Gives
            (buffer.drop ((buffer.length : Int) - input.length + payloadlen.toInt).toNat)
              fun pub => (Details.pub pub).parts = [] :=
        Gives.andThen Gives.any fun _ _ => Gives.ret rfl
      rw [gives _ pub n (List.suffix_refl _) taken]
      simp
  · split at taken <;> cases taken

theorem readPayload_gives (name : CString) (inside : first = false → name.bytes <:+: record) :
    (readPayload first buffer name).Gives record fun pub =>
      ∀ part ∈ (Details.pub pub).parts, part <:+: record := by
  refine Gives.andThen Gives.any fun payloadlen _ => ?_
  split
  · exact readNegative_gives payloadlen
  · refine Gives.andThen (symbols_gives _) fun payload insideToo => ?_
    refine Gives.andThen Gives.any fun _ _ => Gives.ret ?_
    cases first with
    | true => simp [Details.parts]
    | false => simpa [Details.parts] using ⟨inside rfl, insideToo⟩

theorem readPub_gives : (readPub first buffer).Gives record fun pub =>
    ∀ part ∈ (Details.pub pub).parts, part <:+: record := by
  have name : (if first then skipString else copyString).Gives record fun name =>
      first = false → name.bytes <:+: record := by
    cases first with
    | true => exact Gives.mono Gives.any (by simp)
    | false => exact Gives.mono copyString_gives fun _ inside _ => inside
  exact Gives.andThen name readPayload_gives

theorem readDetails_gives (type : Int32) : (readDetails version first buffer type).Gives record
    fun details => ∀ part ∈ details.parts, part <:+: record := by
  unfold readDetails
  split
  · split
    · exact Gives.ret (by simp [Details.parts])
    · exact Gives.andThen readSub_gives fun _ inside => Gives.ret inside
  · split
    · split
      · exact Gives.ret (by simp [Details.parts])
      · exact Gives.andThen readUnsub_gives fun _ inside => Gives.ret inside
    · split
      · exact Gives.andThen readPub_gives fun _ inside => Gives.ret inside
      · exact Gives.failed

theorem readProperties_gives : readProperties.Gives record fun props => props.Inside record := by
  intro input props n suffix taken
  unfold readProperties at taken
  split at taken
  next reading result =>
    rcases BoundedReading.map_eq_taken.mp taken with ⟨list, rfl, rfl⟩
    exact readList_gives suffix result
  next => cases taken

theorem reader_gives : (reader version first buffer).Gives record fun qcommand =>
    qcommand.Inside record := by
  refine Gives.andThen Gives.any fun pair _ => ?_
  refine Gives.andThen (readDetails_gives _) fun details inside => ?_
  have properties : (if first = false ∧ mqttVersion5 ≤ version then
    readProperties else ret []).Gives
      record fun props => props.Inside record := by
    split
    · exact readProperties_gives
    · exact Gives.ret (by simp [MQTTProperties.Inside])
  exact Gives.andThen properties fun props insideToo => Gives.ret ⟨inside, insideToo⟩

end Parts

end StoredCommand

section Records

open StoredCommand

variable {version : Nat} {first : Bool} {record : Bytes}

theorem readProperties_eq_overrun (part : Bytes) : readProperties part =
    .overrun ↔ RunsOff part := by
  rw [← readList_overrun, readProperties]
  rcases Option.isSome_iff_exists.mp (readList_isSome part) with ⟨reading, result⟩
  rw [result]
  simp [BoundedReading.map_eq_overrun]

theorem reader_eq_overrun : reader version first record record = .overrun ↔
    CommandRunsOff version first record := by
  rw [reader, andThen_eq_overrun, or_iff_right (checked_ne_overrun _ _)]
  simp only [checked_eq_taken fixed_readPair]
  constructor
  · rintro ⟨⟨type, token⟩, n, ⟨read, rfl⟩, overrun⟩
    have long : ¬record.length < 8 := by
      rw [← fixed_readPair.fails record, read]
      simp
    have whole : record.length = 8 + (record.drop 8).length := by
      rw [List.length_drop]
      omega
    rcases andThen_eq_overrun.mp overrun with inDetails | ⟨details, n, taken, behind⟩
    · exact .details read ((readDetails_eq_overrun whole).mp inDetails)
    · rw [andThen_ret_eq_overrun] at behind
      split at behind
      next five =>
        rcases five with ⟨rfl, five⟩
        exact .properties read five (leaves_readDetails.mp ⟨details, n, taken, rfl⟩)
          ((readProperties_eq_overrun _).mp behind)
      next => cases behind
  · intro runsOff
    cases runsOff with
    | @details _ _ body type token read runOff =>
        have isDrop := fixed_readPair.rest _ _ _ read
        subst isDrop
        have long : ¬record.length < 8 := by
          rw [← fixed_readPair.fails record, read]
          simp
        have whole : record.length = 8 + (record.drop 8).length := by
          rw [List.length_drop]
          omega
        refine ⟨(type, token), 8, ⟨read, rfl⟩, andThen_eq_overrun.mpr (.inl ?_)⟩
        exact (readDetails_eq_overrun whole).mpr runOff
    | @properties _ body left type token read five behind runsOff =>
        have isDrop := fixed_readPair.rest _ _ _ read
        subst isDrop
        have leaves : (readDetails version false record type).Leaves (record.drop 8) left :=
          leaves_readDetails.mpr behind
        rcases leaves with ⟨details, n, taken, rfl⟩
        refine ⟨(type, token), 8, ⟨read, rfl⟩,
          andThen_eq_overrun.mpr (.inr ⟨details, n, taken, ?_⟩)⟩
        rw [andThen_ret_eq_overrun, if_pos ⟨rfl, five⟩]
        exact (readProperties_eq_overrun _).mpr runsOff

/-- A record is read within its bounds, and what is restored is in it, unless it runs off. -/
theorem restoreCommand_staysInside_iff (version : Nat) (first : Bool) (record : Bytes) :
    StaysInside (restoreCommand version first record) (·.Inside record) ↔
      ¬CommandRunsOff version first record := by
  rw [← reader_eq_overrun]
  by_cases empty : record = []
  · subst empty
    apply iff_of_true
    · exact staysInside_bad
    · simp [reader, checked, readPair, Decoder.andThen, readNative, andThen]
  · rw [restoreCommand, if_neg empty]
    cases result : reader version first record record with
    | taken qcommand n =>
        have inside := reader_gives record qcommand n (List.suffix_refl record) result
        exact iff_of_true (staysInside_pack.mpr inside) (by simp)
    | failed n => exact iff_of_true staysInside_bad (by simp)
    | overrun => exact iff_of_false staysInside_none (by simp)

end Records

end Paho
