import Paho.Codec.LengthDecoders
import Paho.Codec.ServerPackets

/-!
# Packets that are restored

`MQTTPersistence_restorePacket` on the bytes of a record, with all functions of `new_packets`, and
for which bytes it stays within them.
-/

namespace Paho

open PropertyReader MQTTPacket

/-- What `MQTTPersistence_restorePacket` can return. -/
inductive StoredPacket where
  /-- A PUBLISH, whose payload is the last `payloadlen` bytes of the record. -/
  | publish (pack : PublishPacket) (payloadlen : Int)
  | server (packet : ServerPacket)
  /-- A PINGREQ or a PINGRESP. -/
  | headerOnly (header : UInt8)
  deriving DecidableEq, Repr

/-- Those parts of a packet that are not copied are within the record. -/
def StoredPacket.Inside (packet : StoredPacket) (record : Bytes) : Prop :=
  match packet with
  | .publish _ payloadlen => 0 ≤ payloadlen ∧ payloadlen ≤ record.length
  | _ => True

namespace MQTTPacket

/-- `PINGREQ` and `PINGRESP`, as numbers. -/
def pingreqType : Nat := 12
def pingrespType : Nat := 13

/-- What `MQTTPacket_publish` takes for the payload: as many bytes as `curdata` is in front of the
end, which is a negative number when it is behind it. -/
def payloadlen (mqttVersion qos : Nat) (data : Bytes) : Int :=
  match readUTFlen data with
  | none => 0
  | some (_, _, curdata) =>
      match readMsgId qos curdata with
      | none => 0
      | some (_, curdata) =>
          if mqttVersion5 ≤ mqttVersion then
            match readList curdata with
            | some (.taken _ n) => (curdata.length : Int) - n
            | _ => 0
          else curdata.length

/-- The function of `new_packets` for a type up to DISCONNECT. -/
def storedContent (mqttVersion : Nat) (header : UInt8) (data : Bytes) :
    Option (Parsed StoredPacket) :=
  let type := (Header.ofByte header).type
  if type = publishType then
    (publish mqttVersion header data).map fun
      | .pack pack =>
          .pack (.publish pack (payloadlen mqttVersion (Header.ofByte header).qos data))
      | _ => .bad
  else if type = pingreqType ∨ type = pingrespType then some (.pack (.headerOnly header))
  else if type ≤ disconnectType then
    (serverPacket mqttVersion header data).map fun
      | .pack packet => .pack (.server packet)
      | _ => .bad
  else some .bad

/-- `MQTTPersistence_restorePacket`. A packet is not returned when it is `.bad`. -/
def restorePacket (mqttVersion : Nat) : Bytes → Option (Parsed StoredPacket)
  | [] => none
  | header :: buffer =>
      (restoreLength 1 0 1 buffer).bind fun (remaining_length, fixed_header_length, data) =>
        if fixed_header_length + remaining_length = buffer.length + 1 then
          storedContent mqttVersion header data
        else some .bad

/-- The bytes at which the function for this type reads properties under MQTT 5, if it comes to
that. -/
def propertyPart (type qos : Nat) (body : Bytes) : Option Bytes :=
  if type = publishType then
    (readUTFlen body).bind fun (_, _, curdata) => (readMsgId qos curdata).map Prod.snd
  else if type = connackType then if 2 < body.length then some (body.drop 2) else none
  else if type = subackType ∨ type = unsubackType then
    if 2 ≤ body.length then some (body.drop 2) else none
  else if type = disconnectType then if 1 < body.length then some (body.drop 1) else none
  else if type ∈ ackTypes then if 3 < body.length then some (body.drop 3) else none
  else none

end MQTTPacket

/-- The property list comes out one byte behind the end. -/
def GoesPast (part : Bytes) : Prop :=
  ∃ length n items rest, Announces part length n ∧ Walk (part.drop n) items rest ∧
    Stops length items ∧ part.length < n + total items

/-- What is wrong with a body of which bytes are read, or returned, that are not in it. -/
def BodyRunsOff (type qos : Nat) (body : Bytes) : Prop :=
  ∃ part, propertyPart type qos body = some part ∧
    (RunsOff part ∨ (type = publishType ∧ GoesPast part))

/-- The record of a packet that is read beyond its end, or whose payload would be there: it is
empty; none of the first four bytes of the length ends it; or the length is that of the record, and
under MQTT 5 the properties run off. -/
inductive PacketRunsOff (mqttVersion : Nat) : Bytes → Prop
  | empty : PacketRunsOff mqttVersion []
  | length {header : UInt8} {buffer : Bytes} (continues : Continue (buffer.take 4)) :
      PacketRunsOff mqttVersion (header :: buffer)
  | body {header : UInt8} {field body : Bytes} (five : mqttVersion5 ≤ mqttVersion)
      (isVBI : VBI field body.length) (short : field.length ≤ 4)
      (runsOff : BodyRunsOff (Header.ofByte header).type (Header.ofByte header).qos body) :
      PacketRunsOff mqttVersion (header :: (field ++ body))

/-- The function returns, reads nothing outside the record, and what it returns is within it. -/
def StaysInside {Value : Type} (outcome : Option (Parsed Value)) (inside : Value → Prop) : Prop :=
  ∃ result, outcome = some result ∧ ∀ value, result = .pack value → inside value

section Bodies

variable {mqttVersion type qos : Nat} {header : UInt8} {body part : Bytes}

theorem goesPast_iff {list : PropertyList} {n : Nat}
    (taken : readList part = some (.taken list n)) :
    GoesPast part ↔ part.length < n := by
  rcases readList_taken.mp taken with ⟨m, items, rest, announces, walk, stops, array, rfl⟩
  constructor
  · rintro ⟨length, m', items', rest', announces', walk', stops', past⟩
    rcases announces.unique announces' with ⟨rfl, rfl⟩
    rwa [walk_unique (announces.lt.trans (by decide)) walk stops walk' stops']
  · exact fun past => ⟨list.length, m, items, rest, announces, walk, stops, past⟩

theorem readPropertiesThen_eq_none_iff (part : Bytes)
    (after : PropertyList → Bytes → Parsed ServerContent) :
    readPropertiesThen part after = none ↔ RunsOff part := by
  rw [← readList_overrun, readPropertiesThen]
  rcases Option.isSome_iff_exists.mp (readList_isSome part) with ⟨reading, result⟩
  rw [result]
  cases reading <;> simp

theorem connack_eq_none_iff : connack mqttVersion body = none ↔
    mqttVersion5 ≤ mqttVersion ∧ 2 < body.length ∧ RunsOff (body.drop 2) := by
  rcases body with _ | ⟨flags, _ | ⟨rc, curdata⟩⟩
  · simp [connack]
  · simp [connack]
  · rw [connack]
    split
    next both =>
      have long : 0 < curdata.length := by simpa using both.2
      simp [readPropertiesThen_eq_none_iff, both.1, long]
    next notBoth => simpa using fun five long => absurd ⟨five, by simpa using long⟩ notBoth

theorem suback_eq_none_iff : suback mqttVersion body = none ↔
    mqttVersion5 ≤ mqttVersion ∧ 2 ≤ body.length ∧ RunsOff (body.drop 2) := by
  rcases body with _ | ⟨first, _ | ⟨second, curdata⟩⟩
  · simp [suback]
  · simp [suback]
  · by_cases five : mqttVersion5 ≤ mqttVersion
    · simp [suback, five, readPropertiesThen_eq_none_iff]
    · by_cases empty : curdata = [] <;> simp [suback, five, empty]

theorem unsuback_eq_none_iff : unsuback mqttVersion body = none ↔
    mqttVersion5 ≤ mqttVersion ∧ 2 ≤ body.length ∧ RunsOff (body.drop 2) := by
  rcases body with _ | ⟨first, _ | ⟨second, curdata⟩⟩
  · simp [unsuback]
  · simp [unsuback]
  · by_cases five : mqttVersion5 ≤ mqttVersion
    · simp [unsuback, five, readPropertiesThen_eq_none_iff]
    · simp [unsuback, five]

theorem ackTail_eq_none_iff {afterRc datalen : Nat} {msgId : Option Nat} {curdata : Bytes}
    (room : afterRc < datalen → curdata ≠ []) :
    ackTail mqttVersion afterRc datalen msgId curdata = none ↔
      mqttVersion5 ≤ mqttVersion ∧ afterRc + 1 < datalen ∧ RunsOff (curdata.drop 1) := by
  by_cases five : mqttVersion5 ≤ mqttVersion
  · by_cases reason : afterRc < datalen
    · cases curdata with
      | nil => exact absurd rfl (room reason)
      | cons rc curdata =>
          by_cases more : afterRc + 1 < datalen
          · simp [ackTail, five, reason, more, readPropertiesThen_eq_none_iff]
          · simp [ackTail, five, reason, more]
    · have fewer : ¬afterRc + 1 < datalen := by omega
      simp [ackTail, five, reason, fewer]
  · simp [ackTail, five]

theorem ack_eq_none_iff (notDisconnect : type ≠ disconnectType) :
    MQTTPacket.ack mqttVersion type body = none ↔
      mqttVersion5 ≤ mqttVersion ∧ 3 < body.length ∧ RunsOff (body.drop 3) := by
  rcases body with _ | ⟨first, _ | ⟨second, curdata⟩⟩
  · simp [MQTTPacket.ack, notDisconnect]
  · simp [MQTTPacket.ack, notDisconnect]
  · rw [MQTTPacket.ack, if_neg notDisconnect, ackTail_eq_none_iff]
    · simp
    · rintro long rfl
      simp at long

theorem disconnect_eq_none_iff : MQTTPacket.ack mqttVersion disconnectType body = none ↔
    mqttVersion5 ≤ mqttVersion ∧ 1 < body.length ∧ RunsOff (body.drop 1) := by
  unfold MQTTPacket.ack
  rw [if_pos rfl, ackTail_eq_none_iff fun long => List.ne_nil_of_length_pos long]

/-- The functions for the packets from the server read outside their data when properties run off.
-/
theorem serverContent_eq_none_iff (notPublish : type ≠ publishType) (notAuth : type ≠ authType) :
    serverContent mqttVersion type body = none ↔
      mqttVersion5 ≤ mqttVersion ∧ ∃ part, propertyPart type qos body =
      some part ∧ RunsOff part := by
  unfold serverContent propertyPart
  rw [if_neg notPublish]
  by_cases isConnack : type = connackType
  · rw [if_pos isConnack, if_pos isConnack, connack_eq_none_iff]
    simp
  rw [if_neg isConnack, if_neg isConnack]
  by_cases isSuback : type = subackType
  · rw [if_pos isSuback, if_pos (.inl isSuback), suback_eq_none_iff]
    simp
  by_cases isUnsuback : type = unsubackType
  · rw [if_neg isSuback, if_pos isUnsuback, if_pos (.inr isUnsuback), unsuback_eq_none_iff]
    simp
  rw [if_neg isSuback, if_neg isUnsuback, if_neg (not_or.mpr ⟨isSuback, isUnsuback⟩)]
  by_cases isDisconnect : type = disconnectType
  · subst isDisconnect
    rw [if_pos (.inr (.inl rfl)), if_pos rfl, disconnect_eq_none_iff]
    simp
  rw [if_neg isDisconnect]
  by_cases isAck : type ∈ ackTypes
  · rw [if_pos (.inl isAck), if_pos isAck, ack_eq_none_iff isDisconnect]
    simp
  · rw [if_neg isAck, if_neg (not_or.mpr ⟨isAck, not_or.mpr ⟨isDisconnect, notAuth⟩⟩)]
    simp

theorem staysInside_none {Value : Type} {inside : Value → Prop} : ¬StaysInside none inside := by
  rintro ⟨result, returned, -⟩
  cases returned

theorem staysInside_bad {Value : Type} {inside : Value → Prop} : StaysInside (some .bad) inside :=
  ⟨.bad, rfl, fun value impossible => by cases impossible⟩

theorem staysInside_pack {Value : Type} {inside : Value → Prop} {value : Value} :
    StaysInside (some (.pack value)) inside ↔ inside value := by
  simp [StaysInside]

/-- Where the payload ends up decides, for a PUBLISH. -/
theorem publish_staysInside_iff (isPublish : (Header.ofByte header).type = publishType)
    (record : Bytes) (within : body.length ≤ record.length) :
    StaysInside (storedContent mqttVersion header body) (·.Inside record) ↔
      ¬(mqttVersion5 ≤ mqttVersion ∧
        BodyRunsOff (Header.ofByte header).type (Header.ofByte header).qos body) := by
  rw [BodyRunsOff, storedContent, isPublish]
  simp only [if_true, propertyPart, true_and]
  unfold publish payloadlen
  dsimp only
  cases utf : readUTFlen body with
  | none => simpa using staysInside_bad
  | some read =>
      rcases read with ⟨topic, topiclen, curdata⟩
      have shorter := (readUTFlen_spec utf).2
      dsimp only [Option.bind_some]
      cases readId : readMsgId (Header.ofByte header).qos curdata with
      | none => simpa using staysInside_bad
      | some read =>
          rcases read with ⟨msgId, part⟩
          have shorter' := readMsgId_spec readId
          dsimp only [Option.map_some]
          by_cases five : mqttVersion5 ≤ mqttVersion
          · simp only [five, if_true, true_and, Option.some.injEq, exists_eq_left']
            have overrun := @readList_overrun part
            rcases Option.isSome_iff_exists.mp (readList_isSome part) with ⟨reading, result⟩
            rw [result] at overrun ⊢
            cases reading with
            | overrun =>
                apply iff_of_false
                · exact staysInside_none
                · exact not_not_intro (.inl (overrun.mp rfl))
            | taken list n =>
                have inPart : ¬RunsOff part := fun runsOff => by cases overrun.mpr runsOff
                rw [goesPast_iff result]
                simp only [Option.map_some, staysInside_pack, StoredPacket.Inside, inPart, false_or]
                omega
            | failed n =>
                apply iff_of_true
                · exact staysInside_bad
                · rintro (runsOff | ⟨length, m, items, rest, announces, walk, stops, -⟩)
                  · cases overrun.mpr runsOff
                  · have taken := readList_taken.mpr
                      (⟨m, items, rest, announces, walk, stops, rfl, rfl⟩ :
                        ∃ m' items' rest', Announces part (PropertyList.mk length _).length m' ∧ _)
                    rw [result] at taken
                    cases taken
          · simp only [five, if_false, false_and, not_false_eq_true, iff_true, Option.map_some,
              staysInside_pack, StoredPacket.Inside]
            omega

/-- A packet that is not a PUBLISH is copied as far as it is used. -/
theorem server_staysInside_iff (notPublish : (Header.ofByte header).type ≠ publishType)
    (record : Bytes) :
    StaysInside (storedContent mqttVersion header body) (·.Inside record) ↔
      ¬(mqttVersion5 ≤ mqttVersion ∧
        BodyRunsOff (Header.ofByte header).type (Header.ofByte header).qos body) := by
  have outcome {result : Option (Parsed ServerPacket)} :
      StaysInside (result.map fun
        | .pack packet => Parsed.pack (StoredPacket.server packet)
        | _ => .bad) (·.Inside record) ↔ result ≠ none := by
    cases result with
    | none => simpa using staysInside_none
    | some result =>
        cases result with
        | pack packet => simp [staysInside_pack, StoredPacket.Inside]
        | bad => simpa using staysInside_bad
        | unknown => simpa using staysInside_bad
  have noPart (other : (Header.ofByte header).type = pingreqType ∨
      (Header.ofByte header).type = pingrespType ∨ disconnectType < (Header.ofByte header).type) :
      propertyPart (Header.ofByte header).type (Header.ofByte header).qos body = none := by
    simp only [pingreqType, pingrespType, disconnectType] at other
    unfold propertyPart
    rw [if_neg notPublish, if_neg, if_neg, if_neg, if_neg]
    · simp only [ackTypes, List.mem_cons, List.not_mem_nil, or_false]
      omega
    · simp only [disconnectType]
      omega
    · simp only [subackType, unsubackType]
      omega
    · simp only [connackType]
      omega
  unfold storedContent BodyRunsOff
  simp only [notPublish, if_false, false_and, or_false]
  split
  next isPing =>
    refine iff_of_true (staysInside_pack.mpr trivial) ?_
    rintro ⟨-, part, found, -⟩
    rw [noPart (isPing.imp_right .inl)] at found
    cases found
  next notPing =>
    split
    next upTo =>
      have notAuth : (Header.ofByte header).type ≠ authType := by
        intro isAuth
        rw [isAuth] at upTo
        exact absurd upTo (by decide)
      rw [outcome, serverPacket, Ne, Option.map_eq_none_iff,
        @serverContent_eq_none_iff _ _ (Header.ofByte header).qos _ notPublish notAuth]
    next beyond =>
      refine iff_of_true staysInside_bad ?_
      rintro ⟨-, part, found, -⟩
      rw [noPart (.inr (.inr (Nat.lt_of_not_le beyond)))] at found
      cases found

end Bodies

section Records

variable {mqttVersion n m : Nat} {field field' rest rest' : Bytes}

/-- The field at the front is determined. -/
theorem vbi_unique (isVBI : VBI field n) (short : field.length ≤ 4) (isVBI' : VBI field' m)
    (short' : field'.length ≤ 4) (same : field ++ rest = field' ++ rest') :
    n = m ∧ rest = rest' := by
  have taken := decodeBuf_vbi isVBI short rest
  rw [same, decodeBuf_vbi isVBI' short' rest'] at taken
  injection taken with pair length
  injection pair with value
  exact ⟨value.symm, (List.append_inj same length.symm).2⟩

/-- A record is read within its bounds, and what is restored is within it, unless it runs off. -/
theorem restorePacket_staysInside_iff (mqttVersion : Nat) (record : Bytes) :
    StaysInside (restorePacket mqttVersion record) (·.Inside record) ↔
      ¬PacketRunsOff mqttVersion record := by
  cases record with
  | nil => exact iff_of_false staysInside_none (not_not_intro .empty)
  | cons header buffer =>
      rcases ends_or_none buffer with ⟨ends, field, n, rest, rfl, isVBI, short⟩ | ⟨continues, none⟩
      · have fits : 1 * 128 ^ field.length ≤ 268435456 := by
          rw [Nat.one_mul]
          exact Nat.pow_le_pow_right (by decide) short
        have lengths := @restoreLength_vbi field rest n isVBI 1 0 Nat.one_pos fits 1
        have value : 0 + n * 1 = n := by omega
        rw [value] at lengths
        simp only [restorePacket, lengths, Option.bind_some]
        by_cases whole : rest.length = n
        · subst whole
          have fitsRecord : rest.length ≤ (header :: (field ++ rest)).length := by
            rw [List.length_cons, List.length_append]
            omega
          have body : StaysInside (storedContent mqttVersion header rest)
                (·.Inside (header :: (field ++ rest))) ↔
              ¬(mqttVersion5 ≤ mqttVersion ∧
                BodyRunsOff (Header.ofByte header).type (Header.ofByte header).qos rest) := by
            by_cases isPublish : (Header.ofByte header).type = publishType
            · exact publish_staysInside_iff isPublish _ fitsRecord
            · exact server_staysInside_iff isPublish _
          rw [if_pos (by rw [List.length_append]; omega), body, not_iff_not]
          constructor
          · rintro ⟨five, runsOff⟩
            exact .body five isVBI short runsOff
          · intro runsOff
            generalize isBuffer : field ++ rest = buffer at runsOff
            cases runsOff with
            | length continues => exact absurd continues (isBuffer ▸ ends)
            | body five isVBI' short' runsOff =>
                have same := (vbi_unique isVBI short isVBI' short' isBuffer).2
                subst same
                exact ⟨five, runsOff⟩
        · rw [if_neg (by rw [List.length_append]; omega)]
          refine iff_of_true staysInside_bad ?_
          intro runsOff
          generalize isBuffer : field ++ rest = buffer at runsOff
          cases runsOff with
          | length continues => exact absurd continues (isBuffer ▸ ends)
          | body five isVBI' short' runsOff =>
              rcases vbi_unique isVBI short isVBI' short' isBuffer with ⟨sameLength, same⟩
              rw [same] at whole
              exact whole sameLength.symm
      · have noLength : restoreLength 1 0 1 buffer = Option.none := by
          simpa [recordDecode] using none
        apply iff_of_false
        · rw [restorePacket, noLength]
          exact staysInside_none
        · exact not_not_intro (.length continues)

end Records

end Paho
