import Paho.Codec.Native
import Paho.Codec.Properties

/-!
# Records of messages for the application

What `MQTTPersistence_persistQueueEntry` writes for an entry of the message queue, and
`MQTTPersistence_restoreQueueEntry`, which reads it.
-/

namespace Paho

open Decoder Native

namespace QueueRecord

/-- `MQTTPersistence_message`. -/
structure Message where
  payloadlen : Int32
  payload : Bytes
  qos : Int32
  retained : Int32
  dup : Int32
  msgid : Int32
  properties : MQTTProperties
  deriving DecidableEq

/-- `MQTTPersistence_qEntry`, without its sequence number. The buffer of `topicName` has a zero
behind it. -/
structure Entry where
  msg : Message
  topicName : Bytes
  topicLen : Int32
  deriving DecidableEq

/-- The buffers up to the properties. -/
def writeFields (entry : Entry) : Bytes :=
  writeNative entry.msg.payloadlen ++ (entry.msg.payload ++ (writeNative entry.msg.qos ++
    (writeNative entry.msg.retained ++ (writeNative entry.msg.dup ++
      (writeNative entry.msg.msgid ++ (writeString (stringAt entry.topicName) ++
        writeNative entry.topicLen))))))

/-- The record of an entry. -/
def write (version : Nat) (entry : Entry) : Bytes :=
  if mqttVersion5 ≤ version then writeFields entry ++ MQTTProperties.write entry.msg.properties
  else writeFields entry

/-- Read a string; its end is not checked. -/
def readString : Decoder UInt8 CString := fun bytes =>
  let data_size := (stringAt bytes).bytes.length + 1
  if bytes.length < data_size then none else some (stringAt bytes, bytes.drop data_size)

/-- Read the properties; an error is logged only. -/
def readProperties : Decoder UInt8 MQTTProperties := fun bytes =>
  match MQTTProperties.read bytes with
  | some result => some result
  | none => some ([], bytes)

/-- `MQTTPersistence_restoreQueueEntry`. -/
def read (version : Nat) : Decoder UInt8 Entry :=
  andThen readNative fun payloadlen =>
    if payloadlen.toInt < 0 then fun _ => none
    else
      andThen (symbols payloadlen.toInt.toNat) fun payload =>
        andThen readNative fun qos =>
          andThen readNative fun retained =>
            andThen readNative fun dup =>
              andThen readNative fun msgid =>
                andThen readString fun topicName =>
                  andThen readNative fun topicLen =>
                    andThen (if mqttVersion5 ≤ version then readProperties else ret [])
                      fun properties =>
                        ret
                          { msg :=
                              { payloadlen := payloadlen
                                payload := payload
                                qos := qos
                                retained := retained
                                dup := dup
                                msgid := msgid
                                properties := properties }
                            topicName := topicName.bytes
                            topicLen := topicLen }

variable {version : Nat} {entry : Entry} {rest : Bytes}

/-- An entry that can be read from its record. -/
structure Readable (version : Nat) (entry : Entry) : Prop where
  payload : entry.msg.payload.length < 2147483648
  payloadlen : entry.msg.payloadlen = Int32.ofNat entry.msg.payload.length
  wellTyped : ∀ prop ∈ entry.msg.properties, prop.WellTyped
  representable : MQTTProperties.Representable entry.msg.properties
  early : version < mqttVersion5 → entry.msg.properties = []

/-- An entry as its record has it: the name of the topic ends at the first zero. -/
def stored (entry : Entry) : Entry :=
  { entry with topicName := (stringAt entry.topicName).bytes }

theorem reads_readString (string : CString) :
    readString.Reads (writeString string) string rest := by
  unfold Reads readString
  rw [stringAt_writeString]
  have length : (writeString string ++ rest).length = string.bytes.length + 1 + rest.length := by
    simp only [writeString, List.length_append, List.length_singleton]
  simp only [length]
  rw [if_neg (by omega), List.drop_left' (by simp [writeString])]

theorem stringAt_eq {name : Bytes} (noZero : ∀ byte ∈ name, byte ≠ 0) :
    (stringAt name).bytes = name := by
  apply List.takeWhile_eq_self_iff.mpr
  intro byte mem
  simpa using noZero byte mem

theorem stored_eq (noZero : ∀ byte ∈ entry.topicName, byte ≠ 0) : stored entry = entry := by
  unfold stored
  rw [stringAt_eq noZero]

theorem write_stored : write version (stored entry) = write version entry := by
  have same : stringAt (stringAt entry.topicName).bytes = stringAt entry.topicName := by
    have bytes := stringAt_eq (stringAt entry.topicName).noZero
    cases whole : stringAt entry.topicName with
    | mk name noZero =>
        rw [whole] at bytes
        simp only at bytes
        cases again : stringAt name with
        | mk name' noZero' =>
            rw [again] at bytes
            simp only at bytes
            simp only [bytes]
  simp only [write, writeFields, stored, same]

theorem Readable.stored (readable : Readable version entry) : Readable version (stored entry) :=
  ⟨readable.payload, readable.payloadlen, readable.wellTyped, readable.representable,
    readable.early⟩

/-- The record of an entry is read as the entry. -/
theorem read_write (readable : Readable version entry) :
    read version (write version entry) = some (QueueRecord.stored entry, []) := by
  have length : (Int32.ofNat entry.msg.payload.length).toInt = entry.msg.payload.length := by
    have small := readable.payload
    exact Int32.toInt_ofNat_of_lt (by omega)
  have reads (written : Bytes) (properties : MQTTProperties)
      (readsProperties :
        (if mqttVersion5 ≤ version then readProperties else ret []).Reads written properties []) :
      (read version).Reads (writeFields entry ++ written)
        { QueueRecord.stored entry with msg := { entry.msg with properties := properties } }
          [] := by
    rw [writeFields, readable.payloadlen]
    simp only [List.append_assoc]
    apply Reads.andThen (reads_readNative _)
    rw [if_neg (by omega)]
    apply Reads.andThen (Reads.symbols (by omega))
    apply Reads.andThen (reads_readNative _)
    apply Reads.andThen (reads_readNative _)
    apply Reads.andThen (reads_readNative _)
    apply Reads.andThen (reads_readNative _)
    apply Reads.andThen (reads_readString _)
    apply Reads.andThen (reads_readNative _)
    apply Reads.andThen_ret readsProperties
    rw [← readable.payloadlen]
    exact Reads.ret
  by_cases five : mqttVersion5 ≤ version
  · have whole := @MQTTProperties.reads_read entry.msg.properties [] readable.wellTyped
      readable.representable
    have readsProperties := reads (MQTTProperties.write entry.msg.properties) entry.msg.properties
      (by
        rw [if_pos five]
        unfold Reads at whole ⊢
        simp only [readProperties, whole])
    unfold Reads at readsProperties
    rwa [List.append_nil, ← show write version entry = _ from if_pos five] at readsProperties
  · have none := readable.early (Nat.lt_of_not_le five)
    have readsProperties := reads [] entry.msg.properties (by
      rw [if_neg five, none]
      exact Reads.ret)
    unfold Reads at readsProperties
    rwa [List.append_nil, List.append_nil, ← show write version entry = _ from if_neg five]
      at readsProperties

end QueueRecord

end Paho
