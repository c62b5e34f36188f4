import Paho.Codec.ServerPackets

/-!
# Packets from the server and their layouts

For which bodies the functions of `new_packets` return a packet exactly when the body has the layout
of its type and version, with the fields that it encodes, and read nothing outside it.
-/

namespace Paho

open PropertyReader MQTTPacket

/-- The function returns, reads nothing outside the data, and returns a value exactly when the
layout has it. -/
def Follows {Value : Type} (outcome : Option (Parsed Value)) (layout : Value → Prop) : Prop :=
  ∃ result, outcome = some result ∧ ∀ value, result = .pack value ↔ layout value

section Outcomes

variable {Value : Type} {layout layout' : Value → Prop} {value : Value}

theorem not_follows_none : ¬Follows none layout := by
  rintro ⟨result, returned, -⟩
  cases returned

theorem follows_bad_iff : Follows (some .bad) layout ↔ ∀ value, ¬layout value := by
  simp [Follows]

theorem follows_pack_iff :
    Follows (some (.pack value)) layout ↔ ∀ other, layout other ↔ other = value := by
  simp only [Follows, Option.some.injEq, exists_eq_left', Parsed.pack.injEq]
  constructor
  · intro follows other
    rw [← follows other, eq_comm]
  · intro follows other
    rw [follows other, eq_comm]

theorem follows_congr (same : ∀ value, layout value ↔ layout' value)
    (outcome : Option (Parsed Value)) : Follows outcome layout ↔ Follows outcome layout' := by
  simp only [Follows, same]

end Outcomes

/-! ## Property lists in a packet -/

section Lists

variable {part rest : Bytes} {list list' : PropertyList} {n n' : Nat}

theorem beginsWithList_unique (begins : BeginsWithList part list n)
    (other : BeginsWithList part list' n') : list = list' ∧ n = n' := by
  have same := (readList_of_beginsWithList begins).symm.trans (readList_of_beginsWithList other)
  injection same with same
  injection same with same same'
  exact ⟨same, same'⟩

theorem beginsWithList_append (isList : IsList part list) (rest : Bytes) :
    BeginsWithList (part ++ rest) list part.length := by
  rcases isList with ⟨field, body, more, split, isVBI, short, length, areProperties, whole⟩
  refine ⟨field, body, more ++ rest, ?_, isVBI, short, length, areProperties, whole⟩
  rw [split]
  simp

/-- A list at the front of these bytes is a list and what is behind it. -/
theorem beginsWithList_split (begins : BeginsWithList part list n) :
    ∃ item rest, part = item ++ rest ∧ IsList item list ∧ item.length = n ∧ rest = part.drop n := by
  rcases begins with ⟨field, body, rest, rfl, isVBI, short, length, areProperties, rfl⟩
  refine ⟨field ++ body, rest, by simp, ?_, by simp, ?_⟩
  · exact ⟨field, body, [], by simp, isVBI, short, length, areProperties, by simp⟩
  · rw [← List.append_assoc, List.drop_left' (by simp)]

/-- What `MQTTProperties_read` can come to. -/
inductive ListOutcome (part : Bytes) : Option (BoundedReading PropertyList) → Prop
  | overrun (runsOff : RunsOff part) : ListOutcome part (some .overrun)
  | list {list : PropertyList} {n : Nat} (within : ¬RunsOff part)
      (plain : ∀ rest, ¬Misread part rest) (begins : BeginsWithList part list n) :
      ListOutcome part (some (.taken list n))
  | misread {list : PropertyList} {n : Nat} (within : ¬RunsOff part)
      (misread : Misread part (part.drop n)) : ListOutcome part (some (.taken list n))
  | failed {n : Nat} (within : ¬RunsOff part) (plain : ∀ rest, ¬Misread part rest)
      (absent : ∀ list n, ¬BeginsWithList part list n) : ListOutcome part (some (.failed n))

theorem readList_outcome (part : Bytes) : ListOutcome part (readList part) := by
  rcases Option.isSome_iff_exists.mp (readList_isSome part) with ⟨reading, result⟩
  rw [result]
  have within (notOverrun : reading ≠ .overrun) : ¬RunsOff part := by
    intro runsOff
    rw [readList_overrun.mpr runsOff] at result
    exact notOverrun (Option.some.inj result).symm
  cases reading with
  | overrun => exact .overrun (readList_overrun.mp result)
  | taken list n =>
      rcases taken_cases result with begins | misread
      · exact .list (within (by simp)) (fun rest misread => misread.not_begins list n begins) begins
      · exact .misread (within (by simp)) misread
  | failed n =>
      apply ListOutcome.failed (within (by simp))
      · intro rest misread
        rcases misread.taken with ⟨list, m, taken, -⟩
        rw [result] at taken
        cases taken
      · intro list m begins
        rw [readList_of_beginsWithList begins] at result
        cases result

/-- A property list up to the end of the body is read as it is, or turned down. -/
structure ListOnly (part : Bytes) : Prop where
  within : ¬RunsOff part
  plain : ∀ rest, ¬Misread part rest
  /-- Nothing follows a list. -/
  whole : ∀ list n, BeginsWithList part list n → n = part.length

/-- A property list and reason codes behind it are read as they are, or turned down. -/
structure ListThenCodes (part : Bytes) : Prop where
  within : ¬RunsOff part
  plain : ∀ rest, Misread part rest → rest = []

/-- No property list is found. -/
structure NoList (part : Bytes) : Prop where
  within : ¬RunsOff part
  plain : ∀ rest, ¬Misread part rest
  absent : ∀ list n, ¬BeginsWithList part list n

theorem follows_list_iff {after : PropertyList → ServerContent}
    (injective : ∀ list list', after list = after list' → list = list') (part : Bytes) :
    Follows (readPropertiesThen part fun list _ => .pack (after list))
      (fun content => ∃ list, IsList part list ∧ content = after list) ↔ ListOnly part := by
  have outcome := readList_outcome part
  unfold readPropertiesThen
  generalize readList part = reading at outcome
  cases outcome with
  | overrun runsOff => exact iff_of_false not_follows_none fun good => good.within runsOff
  | @list list n within plain begins =>
      rw [follows_pack_iff]
      constructor
      · intro follows
        refine ⟨within, plain, fun list' n' begins' => ?_⟩
        rcases (follows (after list)).mpr rfl with ⟨other, isList, same⟩
        rw [← injective _ _ same] at isList
        exact ((beginsWithList_unique begins' isList).2)
      · intro good content
        constructor
        · rintro ⟨list', isList, rfl⟩
          rw [(beginsWithList_unique isList begins).1]
        · rintro rfl
          have isList : IsList part list := by
            unfold IsList
            rw [← good.whole list n begins]
            exact begins
          exact ⟨list, isList, rfl⟩
  | @misread list n within misread =>
      refine iff_of_false ?_ fun good => good.plain _ misread
      rw [follows_pack_iff]
      intro follows
      rcases (follows (after list)).mpr rfl with ⟨other, isList, -⟩
      exact misread.not_begins _ _ isList
  | failed within plain absent =>
      refine iff_of_true ?_ ⟨within, plain, fun list n begins => absurd begins (absent list n)⟩
      rw [follows_bad_iff]
      rintro content ⟨list, isList, -⟩
      exact absent _ _ isList

theorem follows_codes_iff (after : PropertyList → List Nat → ServerContent) (part : Bytes) :
    Follows (readPropertiesThen part fun list curdata =>
        if curdata = [] then .bad else .pack (after list (curdata.map UInt8.toNat)))
      (fun content => ∃ item codes list, part = item ++ codes ∧ IsList item list ∧ codes ≠ [] ∧
        content = after list (codes.map UInt8.toNat)) ↔ ListThenCodes part := by
  have outcome := readList_outcome part
  unfold readPropertiesThen
  generalize readList part = reading at outcome
  cases outcome with
  | overrun runsOff => exact iff_of_false not_follows_none fun good => good.within runsOff
  | @list list n within plain begins =>
      refine iff_of_true ?_ ⟨within, fun rest misread => absurd misread (plain rest)⟩
      rcases beginsWithList_split begins with ⟨item, rest, split, isList, length, isRest⟩
      dsimp only
      rw [← isRest]
      have only {item' codes : Bytes} {list' : PropertyList} (split' : part = item' ++ codes)
          (isList' : IsList item' list') : list' = list ∧ codes = rest := by
        have begins' := beginsWithList_append isList' codes
        rw [← split'] at begins'
        rcases beginsWithList_unique begins' begins with ⟨same, same'⟩
        refine ⟨same, ?_⟩
        rw [isRest, ← same', split', List.drop_left]
      by_cases empty : rest = []
      · simp only [if_pos empty, follows_bad_iff]
        rintro content ⟨item', codes, list', split', isList', nonempty, -⟩
        exact nonempty ((only split' isList').2.trans empty)
      · simp only [if_neg empty, follows_pack_iff]
        intro content
        constructor
        · rintro ⟨item', codes, list', split', isList', -, rfl⟩
          rcases only split' isList' with ⟨rfl, rfl⟩
          rfl
        · rintro rfl
          exact ⟨item, rest, list, split, isList, empty, rfl⟩
  | @misread list n within misread =>
      have absent (content : ServerContent) : ¬∃ item codes list, part = item ++ codes ∧
          IsList item list ∧ codes ≠ [] ∧ content = after list (codes.map UInt8.toNat) := by
        rintro ⟨item, codes, list', split, isList, -⟩
        apply misread.not_begins list' item.length
        rw [split]
        exact beginsWithList_append isList codes
      by_cases empty : part.drop n = []
      · simp only [if_pos empty, follows_bad_iff]
        refine iff_of_true absent ⟨within, fun rest other => ?_⟩
        rcases misread.taken with ⟨_, _, taken, same⟩
        rcases other.taken with ⟨_, _, taken', same'⟩
        rw [taken] at taken'
        cases taken'
        rw [same', ← same, empty]
      · simp only [if_neg empty, follows_pack_iff]
        apply iff_of_false
        · intro follows
          exact absent _ ((follows _).mpr rfl)
        · exact fun good => empty (good.plain _ misread)
  | failed within plain absent =>
      refine iff_of_true ?_ ⟨within, fun rest misread => absurd misread (plain rest)⟩
      rw [follows_bad_iff]
      rintro content ⟨item, codes, list, split, isList, -⟩
      apply absent list item.length
      rw [split]
      exact beginsWithList_append isList codes

/-- Where the layout has nothing that can be returned, nothing must be found. -/
theorem follows_absent_iff {after : PropertyList → ServerContent} {layout : ServerContent → Prop}
    (apart : ∀ list, ¬layout (after list)) (part : Bytes) :
    Follows (readPropertiesThen part fun list _ => .pack (after list)) layout ↔
      (∀ content, ¬layout content) ∧ NoList part := by
  have outcome := readList_outcome part
  unfold readPropertiesThen
  generalize readList part = reading at outcome
  cases outcome with
  | overrun runsOff => exact iff_of_false not_follows_none fun good => good.2.within runsOff
  | @list list n within plain begins =>
      rw [follows_pack_iff]
      apply iff_of_false
      · intro follows
        exact apart list ((follows _).mpr rfl)
      · exact fun good => good.2.absent _ _ begins
  | @misread list n within misread =>
      rw [follows_pack_iff]
      apply iff_of_false
      · intro follows
        exact apart list ((follows _).mpr rfl)
      · exact fun good => good.2.plain _ misread
  | failed within plain absent =>
      rw [follows_bad_iff]
      exact ⟨fun none => ⟨none, within, plain, absent⟩, And.left⟩

end Lists

/-! ## The functions of the table -/

/-- The bodies of a packet of this version and type that are read by their layout. Under MQTT 5 a
CONNACK needs its properties; an AUTH, which is read as if it began with a message id, must not be
one; and a property list, where one is read, is neither misread nor followed by what does not belong
to the packet. Before MQTT 5 nothing may follow the fields, and an AUTH must be too short. -/
def Regular (mqttVersion type : Nat) (body : Bytes) : Prop :=
  if mqttVersion5 ≤ mqttVersion then
    if type = connackType then body.length ≠ 2 ∧ (2 < body.length → ListOnly (body.drop 2))
    else if type = subackType ∨ type = unsubackType then
      2 ≤ body.length → ListThenCodes (body.drop 2)
    else if type = disconnectType then 1 < body.length → ListOnly (body.drop 1)
    else if type = authType then
      body.length = 1 ∨
        (3 < body.length ∧ (∀ list, ¬IsList (body.drop 1) list) ∧ NoList (body.drop 3))
    else 3 < body.length → ListOnly (body.drop 3)
  else if type = subackType then True
  else if type = disconnectType then body = []
  else if type = authType then body.length < 2
  else body.length ≤ 2

section Functions

variable {mqttVersion type : Nat} {content : ServerContent} {body curdata : Bytes}

theorem not_isList_nil (list : PropertyList) : ¬IsList [] list := by
  rintro ⟨field, body, rest, split, isVBI, -⟩
  have positive := isVBI.ne_nil
  have empty := congrArg List.length split
  simp only [List.length_append, List.length_nil] at empty
  omega

/-- A packet that has a property list in it, where the list is all that is left. -/
theorem isBody_connack_iff (five : mqttVersion5 ≤ mqttVersion) {flags rc : UInt8} :
    IsBody mqttVersion connackType (flags :: rc :: curdata) content ↔
      ∃ list, IsList curdata list ∧ content = .connack flags.toNat rc.toNat (some list) := by
  constructor
  · intro isBody
    cases isBody with
    | connack early => exact absurd five (Nat.not_le_of_lt early)
    | connackFive _ _ _ isList => exact ⟨_, isList, rfl⟩
    | ack isAck => exact absurd isAck (by decide)
  · rintro ⟨list, isList, rfl⟩
    exact .connackFive five flags rc isList

/-- A body that is too short for its fields has no layout. -/
theorem not_isBody_connack (short : body.length < 2) :
    ¬IsBody mqttVersion connackType body content := by
  intro isBody
  cases isBody with
  | ack isAck => exact absurd isAck (by decide)
  | _ =>
      simp only [List.length_cons] at short
      omega

theorem connack_five_iff (five : mqttVersion5 ≤ mqttVersion) (data : Bytes) :
    Follows (connack mqttVersion data) (IsBody mqttVersion connackType data) ↔
      data.length ≠ 2 ∧ (2 < data.length → ListOnly (data.drop 2)) := by
  rcases data with _ | ⟨flags, _ | ⟨rc, curdata⟩⟩
  · exact iff_of_true (follows_bad_iff.mpr fun content => not_isBody_connack (by simp)) (by simp)
  · exact iff_of_true (follows_bad_iff.mpr fun content => not_isBody_connack (by simp)) (by simp)
  · rw [follows_congr fun content => isBody_connack_iff five]
    cases curdata with
    | nil =>
        refine iff_of_false ?_ (by simp)
        simp only [connack, List.length_cons, List.length_nil, Nat.lt_irrefl, and_false, if_false,
          follows_pack_iff]
        intro follows
        rcases (follows _).mpr rfl with ⟨list, -, same⟩
        cases same
    | cons c curdata =>
        have long : 2 < (flags :: rc :: c :: curdata).length := by simp
        rw [connack, if_pos ⟨five, long⟩, follows_list_iff]
        · simp
        · intro list list' same
          injection same with _ _ same
          exact Option.some.inj same

theorem connack_early_iff (early : mqttVersion < mqttVersion5) (data : Bytes) :
    Follows (connack mqttVersion data) (IsBody mqttVersion connackType data) ↔ data.length ≤ 2 := by
  rcases data with _ | ⟨flags, _ | ⟨rc, curdata⟩⟩
  · exact iff_of_true (follows_bad_iff.mpr fun content => not_isBody_connack (by simp)) (by simp)
  · exact iff_of_true (follows_bad_iff.mpr fun content => not_isBody_connack (by simp)) (by simp)
  · rw [connack, if_neg fun both => absurd both.1 (Nat.not_le_of_lt early), follows_pack_iff]
    have layout (content : ServerContent) :
        IsBody mqttVersion connackType (flags :: rc :: curdata) content ↔
          curdata = [] ∧ content = .connack flags.toNat rc.toNat none := by
      constructor
      · intro isBody
        cases isBody with
        | connack => exact ⟨rfl, rfl⟩
        | connackFive five => exact absurd five (Nat.not_le_of_lt early)
        | ack isAck => exact absurd isAck (by decide)
      · rintro ⟨rfl, rfl⟩
        exact .connack early flags rc
    simp [layout]

theorem not_isBody_suback (short : body.length < 2) :
    ¬IsBody mqttVersion subackType body content := by
  intro isBody
  cases isBody with
  | ack isAck => exact absurd isAck (by decide)
  | _ =>
      simp only [List.length_cons] at short
      omega

theorem suback_five_iff (five : mqttVersion5 ≤ mqttVersion) (data : Bytes) :
    Follows (suback mqttVersion data) (IsBody mqttVersion subackType data) ↔
      (2 ≤ data.length → ListThenCodes (data.drop 2)) := by
  rcases data with _ | ⟨first, _ | ⟨second, curdata⟩⟩
  · exact iff_of_true (follows_bad_iff.mpr fun content => not_isBody_suback (by simp)) (by simp)
  · exact iff_of_true (follows_bad_iff.mpr fun content => not_isBody_suback (by simp)) (by simp)
  · have layout (content : ServerContent) :
        IsBody mqttVersion subackType (first :: second :: curdata) content ↔
          ∃ item codes list, curdata = item ++ codes ∧ IsList item list ∧ codes ≠ [] ∧
            content = .suback (256 * first.toNat + second.toNat) (some list)
              (codes.map UInt8.toNat) := by
      constructor
      · intro isBody
        cases isBody with
        | suback early => exact absurd five (Nat.not_le_of_lt early)
        | subackFive _ _ _ isList nonempty => exact ⟨_, _, _, rfl, isList, nonempty, rfl⟩
        | ack isAck => exact absurd isAck (by decide)
      · rintro ⟨item, codes, list, rfl, isList, nonempty, rfl⟩
        exact .subackFive five first second isList nonempty
    have codes := follows_codes_iff (fun list codes =>
      .suback (256 * first.toNat + second.toNat) (some list) codes) curdata
    rw [follows_congr layout]
    simpa [suback, five] using codes

theorem suback_early (early : mqttVersion < mqttVersion5) (data : Bytes) :
    Follows (suback mqttVersion data) (IsBody mqttVersion subackType data) := by
  rcases data with _ | ⟨first, _ | ⟨second, codes⟩⟩
  · exact follows_bad_iff.mpr fun content => not_isBody_suback (by simp)
  · exact follows_bad_iff.mpr fun content => not_isBody_suback (by simp)
  · have layout (content : ServerContent) :
        IsBody mqttVersion subackType (first :: second :: codes) content ↔
          codes ≠ [] ∧ content = .suback (256 * first.toNat + second.toNat) none
            (codes.map UInt8.toNat) := by
      constructor
      · intro isBody
        cases isBody with
        | suback _ _ _ nonempty => exact ⟨nonempty, rfl⟩
        | subackFive five => exact absurd five (Nat.not_le_of_lt early)
        | ack isAck => exact absurd isAck (by decide)
      · rintro ⟨nonempty, rfl⟩
        exact .suback early first second nonempty
    rw [follows_congr layout]
    by_cases empty : codes = []
    · simp [suback, Nat.not_le_of_lt early, empty, follows_bad_iff]
    · simp [suback, Nat.not_le_of_lt early, empty, follows_pack_iff]

theorem not_isBody_unsuback (short : body.length < 2) :
    ¬IsBody mqttVersion unsubackType body content := by
  intro isBody
  cases isBody with
  | ack isAck => exact absurd isAck (by decide)
  | _ =>
      simp only [List.length_cons] at short
      omega

theorem unsuback_five_iff (five : mqttVersion5 ≤ mqttVersion) (data : Bytes) :
    Follows (unsuback mqttVersion data) (IsBody mqttVersion unsubackType data) ↔
      (2 ≤ data.length → ListThenCodes (data.drop 2)) := by
  rcases data with _ | ⟨first, _ | ⟨second, curdata⟩⟩
  · exact iff_of_true (follows_bad_iff.mpr fun content => not_isBody_unsuback (by simp)) (by simp)
  · exact iff_of_true (follows_bad_iff.mpr fun content => not_isBody_unsuback (by simp)) (by simp)
  · have layout (content : ServerContent) :
        IsBody mqttVersion unsubackType (first :: second :: curdata) content ↔
          ∃ item codes list, curdata = item ++ codes ∧ IsList item list ∧ codes ≠ [] ∧
            content = .unsuback (256 * first.toNat + second.toNat) (some list)
              (some (codes.map UInt8.toNat)) := by
      constructor
      · intro isBody
        cases isBody with
        | unsuback early => exact absurd five (Nat.not_le_of_lt early)
        | unsubackFive _ _ _ isList nonempty => exact ⟨_, _, _, rfl, isList, nonempty, rfl⟩
        | ack isAck => exact absurd isAck (by decide)
      · rintro ⟨item, codes, list, rfl, isList, nonempty, rfl⟩
        exact .unsubackFive five first second isList nonempty
    have codes := follows_codes_iff (fun list codes =>
      .unsuback (256 * first.toNat + second.toNat) (some list) (some codes)) curdata
    rw [follows_congr layout]
    simpa [unsuback, five] using codes

theorem unsuback_early_iff (early : mqttVersion < mqttVersion5) (data : Bytes) :
    Follows (unsuback mqttVersion data) (IsBody mqttVersion unsubackType data) ↔
      data.length ≤ 2 := by
  rcases data with _ | ⟨first, _ | ⟨second, curdata⟩⟩
  · exact iff_of_true (follows_bad_iff.mpr fun content => not_isBody_unsuback (by simp)) (by simp)
  · exact iff_of_true (follows_bad_iff.mpr fun content => not_isBody_unsuback (by simp)) (by simp)
  · have layout (content : ServerContent) :
        IsBody mqttVersion unsubackType (first :: second :: curdata) content ↔
          curdata = [] ∧ content = .unsuback (256 * first.toNat + second.toNat) none none := by
      constructor
      · intro isBody
        cases isBody with
        | unsuback => exact ⟨rfl, rfl⟩
        | unsubackFive five => exact absurd five (Nat.not_le_of_lt early)
        | ack isAck => exact absurd isAck (by decide)
      · rintro ⟨rfl, rfl⟩
        exact .unsuback early first second
    rw [follows_congr layout]
    simp [unsuback, Nat.not_le_of_lt early, follows_pack_iff]

theorem isBody_ack_iff (isAck : type ∈ ackTypes) :
    IsBody mqttVersion type body content ↔ IsAckBody mqttVersion body content := by
  constructor
  · intro isBody
    cases isBody with
    | ack _ isBody => exact isBody
    | _ => exact absurd isAck (by decide)
  · exact .ack isAck

theorem ne_disconnectType (isAck : type ∈ ackTypes) : type ≠ disconnectType := by
  rintro rfl
  exact absurd isAck (by decide)

theorem not_isAckBody (short : body.length < 2) : ¬IsAckBody mqttVersion body content := by
  intro isBody
  cases isBody <;> (simp only [List.length_cons] at short; omega)

/-- The three parts of an acknowledgement, of which the last two can be left out. -/
theorem ack_five_iff (five : mqttVersion5 ≤ mqttVersion) (isAck : type ∈ ackTypes) (data : Bytes) :
    Follows (MQTTPacket.ack mqttVersion type data) (IsBody mqttVersion type data) ↔
      (3 < data.length → ListOnly (data.drop 3)) := by
  rw [follows_congr fun content => isBody_ack_iff isAck]
  have notDisconnect := ne_disconnectType isAck
  rcases data with _ | ⟨first, _ | ⟨second, _ | ⟨rc, _ | ⟨c, curdata⟩⟩⟩⟩
  · refine iff_of_true ?_ (by simp)
    simpa [MQTTPacket.ack, notDisconnect, follows_bad_iff] using fun content =>
      not_isAckBody (by simp)
  · refine iff_of_true ?_ (by simp)
    simpa [MQTTPacket.ack, notDisconnect, follows_bad_iff] using fun content =>
      not_isAckBody (by simp)
  · refine iff_of_true ?_ (by simp)
    simp only [MQTTPacket.ack, notDisconnect, if_false, ackTail, five, if_true, List.length_cons,
      List.length_nil,
      Nat.lt_irrefl, follows_pack_iff]
    intro content
    constructor
    · intro isBody
      cases isBody with
      | early early => exact absurd five (Nat.not_le_of_lt early)
      | success => rfl
    · rintro rfl
      exact .success five first second
  · refine iff_of_true ?_ (by simp)
    simp only [MQTTPacket.ack, notDisconnect, if_false, ackTail, five, if_true, List.length_cons,
      List.length_nil,
      Nat.lt_irrefl, Nat.lt_succ_self, follows_pack_iff]
    intro content
    constructor
    · intro isBody
      cases isBody with
      | reason => rfl
      | properties _ _ _ _ isList => exact absurd isList (not_isList_nil _)
    · rintro rfl
      exact .reason five first second rc
  · have layout (content : ServerContent) :
        IsAckBody mqttVersion (first :: second :: rc :: c :: curdata) content ↔
          ∃ list, IsList (c :: curdata) list ∧
            content = .ack (some (256 * first.toNat + second.toNat))
              (some rc.toNat) (some list) := by
      constructor
      · intro isBody
        cases isBody with
        | properties _ _ _ _ isList => exact ⟨_, isList, rfl⟩
      · rintro ⟨list, isList, rfl⟩
        exact .properties five first second rc isList
    have list := @follows_list_iff (fun list =>
      .ack (some (256 * first.toNat + second.toNat)) (some rc.toNat) (some list))
      (fun list list' same => by injection same with _ _ same; exact Option.some.inj same)
        (c :: curdata)
    rw [follows_congr layout]
    simpa [MQTTPacket.ack, notDisconnect, ackTail, five] using list

theorem ack_early_iff (early : mqttVersion < mqttVersion5) (isAck : type ∈ ackTypes)
    (data : Bytes) :
    Follows (MQTTPacket.ack mqttVersion type data) (IsBody mqttVersion type data) ↔
      data.length ≤ 2 := by
  rw [follows_congr fun content => isBody_ack_iff isAck]
  have notDisconnect := ne_disconnectType isAck
  rcases data with _ | ⟨first, _ | ⟨second, curdata⟩⟩
  · refine iff_of_true ?_ (by simp)
    simpa [MQTTPacket.ack, notDisconnect, follows_bad_iff] using fun content =>
      not_isAckBody (by simp)
  · refine iff_of_true ?_ (by simp)
    simpa [MQTTPacket.ack, notDisconnect, follows_bad_iff] using fun content =>
      not_isAckBody (by simp)
  · have layout (content : ServerContent) :
        IsAckBody mqttVersion (first :: second :: curdata) content ↔
          curdata = [] ∧ content = .ack (some (256 * first.toNat + second.toNat)) none none := by
      constructor
      · intro isBody
        cases isBody with
        | early => exact ⟨rfl, rfl⟩
        | success five => exact absurd five (Nat.not_le_of_lt early)
        | reason five => exact absurd five (Nat.not_le_of_lt early)
        | properties five => exact absurd five (Nat.not_le_of_lt early)
      · rintro ⟨rfl, rfl⟩
        exact .early early first second
    rw [follows_congr layout]
    simp [MQTTPacket.ack, notDisconnect, ackTail, Nat.not_le_of_lt early, follows_pack_iff]

theorem disconnect_five_iff (five : mqttVersion5 ≤ mqttVersion) (data : Bytes) :
    Follows (MQTTPacket.ack mqttVersion disconnectType data)
      (IsBody mqttVersion disconnectType data) ↔ (1 < data.length → ListOnly (data.drop 1)) := by
  rcases data with _ | ⟨rc, _ | ⟨c, curdata⟩⟩
  · refine iff_of_true ?_ (by simp)
    simp only [MQTTPacket.ack, if_true, ackTail, five, List.length_nil, Nat.lt_irrefl, if_false,
      follows_pack_iff]
    intro content
    constructor
    · intro isBody
      cases isBody with
      | ack isAck => exact absurd isAck (by decide)
      | disconnect early => exact absurd five (Nat.not_le_of_lt early)
      | disconnectSuccess => rfl
    · rintro rfl
      exact .disconnectSuccess five
  · refine iff_of_true ?_ (by simp)
    simp only [MQTTPacket.ack, if_true, ackTail, five, List.length_cons, List.length_nil,
      Nat.lt_irrefl, if_false,
      Nat.lt_succ_self, follows_pack_iff]
    intro content
    constructor
    · intro isBody
      cases isBody with
      | ack isAck => exact absurd isAck (by decide)
      | disconnectReason => rfl
      | disconnectFive _ _ isList => exact absurd isList (not_isList_nil _)
    · rintro rfl
      exact .disconnectReason five rc
  · have layout (content : ServerContent) :
        IsBody mqttVersion disconnectType (rc :: c :: curdata) content ↔
          ∃ list, IsList (c :: curdata) list ∧ content = .ack none (some rc.toNat) (some list) := by
      constructor
      · intro isBody
        cases isBody with
        | ack isAck => exact absurd isAck (by decide)
        | disconnectFive _ _ isList => exact ⟨_, isList, rfl⟩
      · rintro ⟨list, isList, rfl⟩
        exact .disconnectFive five rc isList
    have list := @follows_list_iff (fun list => .ack none (some rc.toNat) (some list))
      (fun list list' same => by injection same with _ _ same; exact Option.some.inj same)
        (c :: curdata)
    rw [follows_congr layout]
    simpa [MQTTPacket.ack, ackTail, five] using list

theorem disconnect_early_iff (early : mqttVersion < mqttVersion5) (data : Bytes) :
    Follows (MQTTPacket.ack mqttVersion disconnectType data)
      (IsBody mqttVersion disconnectType data) ↔
      data = [] := by
  have layout (content : ServerContent) :
      IsBody mqttVersion disconnectType data content ↔
        data = [] ∧ content = .ack none none none := by
    constructor
    · intro isBody
      cases isBody with
      | ack isAck => exact absurd isAck (by decide)
      | disconnect => exact ⟨rfl, rfl⟩
      | disconnectSuccess five => exact absurd five (Nat.not_le_of_lt early)
      | disconnectReason five => exact absurd five (Nat.not_le_of_lt early)
      | disconnectFive five => exact absurd five (Nat.not_le_of_lt early)
    · rintro ⟨rfl, rfl⟩
      exact .disconnect early
  rw [follows_congr layout]
  simp [MQTTPacket.ack, ackTail, Nat.not_le_of_lt early, follows_pack_iff]

/-- What an AUTH encodes has no message id. -/
theorem isBody_auth_iff (five : mqttVersion5 ≤ mqttVersion) :
    IsBody mqttVersion authType body content ↔
      (body = [] ∧ content = .ack none (some 0) (some .initializer)) ∨
        ∃ rc part list, body = rc :: part ∧ IsList part list ∧
          content = .ack none (some rc.toNat) (some list) := by
  constructor
  · intro isBody
    cases isBody with
    | ack isAck => exact absurd isAck (by decide)
    | authSuccess => exact .inl ⟨rfl, rfl⟩
    | authFive _ rc isList => exact .inr ⟨rc, _, _, rfl, isList, rfl⟩
  · rintro (⟨rfl, rfl⟩ | ⟨rc, part, list, rfl, isList, rfl⟩)
    · exact .authSuccess five
    · exact .authFive five rc isList

theorem auth_five_iff (five : mqttVersion5 ≤ mqttVersion) (data : Bytes) :
    Follows (MQTTPacket.ack mqttVersion authType data) (IsBody mqttVersion authType data) ↔
      data.length = 1 ∨
        (3 < data.length ∧ (∀ list, ¬IsList (data.drop 1) list) ∧ NoList (data.drop 3)) := by
  have notDisconnect : authType ≠ disconnectType := by decide
  rw [follows_congr fun content => isBody_auth_iff five]
  rcases data with _ | ⟨first, _ | ⟨second, _ | ⟨rc, _ | ⟨c, curdata⟩⟩⟩⟩
  · refine iff_of_false ?_ (by simp)
    simp [MQTTPacket.ack, notDisconnect, follows_bad_iff]
  · refine iff_of_true ?_ (by simp)
    simp only [MQTTPacket.ack, notDisconnect, if_false, follows_bad_iff]
    rintro content (⟨impossible, -⟩ | ⟨rc, part, list, same, isList, -⟩)
    · cases impossible
    · cases same
      exact not_isList_nil _ isList
  · refine iff_of_false ?_ (by simp)
    simp only [MQTTPacket.ack, notDisconnect, if_false, ackTail, five, if_true, List.length_cons,
      List.length_nil,
      Nat.lt_irrefl, follows_pack_iff]
    intro follows
    rcases (follows _).mpr rfl with ⟨-, same⟩ | ⟨_, _, _, -, -, same⟩
    · cases same
    · cases same
  · refine iff_of_false ?_ (by simp)
    simp only [MQTTPacket.ack, notDisconnect, if_false, ackTail, five, if_true, List.length_cons,
      List.length_nil,
      Nat.lt_irrefl, Nat.lt_succ_self, follows_pack_iff]
    intro follows
    rcases (follows _).mpr rfl with ⟨-, same⟩ | ⟨_, _, _, -, -, same⟩
    · cases same
    · cases same
  · have absent := @follows_absent_iff (fun list =>
        .ack (some (256 * first.toNat + second.toNat)) (some rc.toNat) (some list))
      (fun content => (first :: second :: rc :: c :: curdata = [] ∧
          content = .ack none (some 0) (some .initializer)) ∨
        ∃ rc' part list, first :: second :: rc :: c :: curdata = rc' :: part ∧ IsList part list ∧
          content = .ack none (some rc'.toNat) (some list))
      (by simp) (c :: curdata)
    have noLayout : (∀ (content : ServerContent) (list : PropertyList),
          IsList (second :: rc :: c :: curdata) list →
            ¬content = .ack none (some first.toNat) (some list)) ↔
        ∀ list, ¬IsList (second :: rc :: c :: curdata) list :=
      ⟨fun none list isList => none _ list isList rfl,
        fun none _ list isList => absurd isList (none list)⟩
    simpa [MQTTPacket.ack, notDisconnect, ackTail, five, noLayout] using absent

theorem auth_early_iff (early : mqttVersion < mqttVersion5) (data : Bytes) :
    Follows (MQTTPacket.ack mqttVersion authType data) (IsBody mqttVersion authType data) ↔
      data.length < 2 := by
  have notDisconnect : authType ≠ disconnectType := by decide
  have none (content : ServerContent) : ¬IsBody mqttVersion authType data content := by
    intro isBody
    cases isBody with
    | ack isAck => exact absurd isAck (by decide)
    | authSuccess five => exact absurd five (Nat.not_le_of_lt early)
    | authFive five => exact absurd five (Nat.not_le_of_lt early)
  have layout (content : ServerContent) : IsBody mqttVersion authType data content ↔ False :=
    iff_of_false (none content) not_false
  rw [follows_congr layout]
  rcases data with _ | ⟨first, _ | ⟨second, curdata⟩⟩
  · simp [MQTTPacket.ack, notDisconnect, follows_bad_iff]
  · simp [MQTTPacket.ack, notDisconnect, follows_bad_iff]
  · simp [MQTTPacket.ack, notDisconnect, ackTail, Nat.not_le_of_lt early, follows_pack_iff]

end Functions

/-! ## The table -/

section Table

variable {mqttVersion type : Nat} {body : Bytes} {aHeader : UInt8}

theorem others_of_ack (isAck : type ∈ ackTypes) :
    type ≠ connackType ∧ type ≠ subackType ∧ type ≠ unsubackType ∧ type ≠ disconnectType ∧
      type ≠ authType := by
  have all : ∀ type ∈ ackTypes, type ≠ connackType ∧ type ≠ subackType ∧ type ≠ unsubackType ∧
      type ≠ disconnectType ∧ type ≠ authType := by decide
  exact all type isAck

theorem serverContent_follows_iff (isServer : IsServerType type) :
    Follows (serverContent mqttVersion type body) (IsBody mqttVersion type body) ↔
      Regular mqttVersion type body := by
  unfold Regular serverContent
  rcases isServer with rfl | rfl | rfl | isAck | rfl | rfl
  · by_cases five : mqttVersion5 ≤ mqttVersion
    · simpa [five] using connack_five_iff five body
    · simpa [five, connackType, subackType, disconnectType, authType] using
        connack_early_iff (Nat.lt_of_not_le five) body
  · by_cases five : mqttVersion5 ≤ mqttVersion
    · simpa [five, connackType, subackType] using suback_five_iff five body
    · simpa [five, connackType, subackType] using suback_early (Nat.lt_of_not_le five) body
  · by_cases five : mqttVersion5 ≤ mqttVersion
    · simpa [five, connackType, subackType, unsubackType] using unsuback_five_iff five body
    · simpa [five, connackType, subackType, unsubackType, disconnectType, authType] using
        unsuback_early_iff (Nat.lt_of_not_le five) body
  · rcases others_of_ack isAck with ⟨notConnack, notSuback, notUnsuback, notDisconnect, notAuth⟩
    by_cases five : mqttVersion5 ≤ mqttVersion
    · simpa [five, isAck, notConnack, notSuback, notUnsuback, notDisconnect, notAuth] using
        ack_five_iff five isAck body
    · simpa [five, isAck, notConnack, notSuback, notUnsuback, notDisconnect, notAuth] using
        ack_early_iff (Nat.lt_of_not_le five) isAck body
  · by_cases five : mqttVersion5 ≤ mqttVersion
    · simpa [five, connackType, subackType, unsubackType, disconnectType] using
        disconnect_five_iff five body
    · simpa [five, connackType, subackType, unsubackType, disconnectType] using
        disconnect_early_iff (Nat.lt_of_not_le five) body
  · by_cases five : mqttVersion5 ≤ mqttVersion
    · simpa [five, connackType, subackType, unsubackType, disconnectType, authType] using
        auth_five_iff five body
    · simpa [five, connackType, subackType, unsubackType, disconnectType, authType] using
        auth_early_iff (Nat.lt_of_not_le five) body

/-- The entry of `new_packets` for this header byte returns a packet exactly when the body has the
layout of its version and type; the packet then has the fields that the body encodes; and no byte
outside the body is read. -/
def Exact (mqttVersion : Nat) (aHeader : UInt8) (body : Bytes) : Prop :=
  Follows (serverPacket mqttVersion aHeader body) fun pack =>
    pack.mqttVersion = mqttVersion ∧ pack.header = aHeader ∧
      IsBody mqttVersion (Header.ofByte aHeader).type body pack.content

theorem exact_iff_follows : Exact mqttVersion aHeader body ↔
    Follows (serverContent mqttVersion (Header.ofByte aHeader).type body)
      (IsBody mqttVersion (Header.ofByte aHeader).type body) := by
  unfold Exact serverPacket
  cases outcome : serverContent mqttVersion (Header.ofByte aHeader).type body with
  | none => exact iff_of_false not_follows_none not_follows_none
  | some result =>
      cases result with
      | pack content =>
          simp only [Option.map_some, follows_pack_iff]
          constructor
          · intro follows other
            have one := follows ⟨mqttVersion, aHeader, other⟩
            simpa using one
          · rintro follows ⟨version, header, other⟩
            simp only [ServerPacket.mk.injEq, follows other]
      | bad =>
          simp only [Option.map_some, follows_bad_iff]
          constructor
          · exact fun none content isBody => none ⟨mqttVersion, aHeader, content⟩ ⟨rfl, rfl, isBody⟩
          · exact fun none pack isBody => none pack.content isBody.2.2
      | unknown =>
          simp only [Option.map_some, Follows, Option.some.injEq, exists_eq_left', reduceCtorEq,
            false_iff]
          constructor
          · exact fun none content isBody => none ⟨mqttVersion, aHeader, content⟩ ⟨rfl, rfl, isBody⟩
          · exact fun none pack isBody => none pack.content isBody.2.2

end Table

end Paho
