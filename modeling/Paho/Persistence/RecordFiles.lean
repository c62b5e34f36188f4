import Paho.Codec.StoredPackets
import Paho.Persistence.FileStore
import Paho.Protocol.Inbound

/-!
# Records in files

`MQTTPersistence.c` on the default persistence: the keys as text, the records as the bytes of
packets, and the loops over the keys that the directory has. The callbacks `beforeWrite` and
`afterRead` are not set.
-/

namespace Paho

open FileStore MQTTPacket

namespace RecordFiles

/-- `PERSISTENCE_PUBLISH_SENT`, `PERSISTENCE_V5_PUBLISH_SENT` and the other stems. -/
def stemText : Stem → Bool → FileName
  | .publishSent, false => "s-".toList
  | .publishSent, true => "s5-".toList
  | .pubrel, false => "sc-".toList
  | .pubrel, true => "sc5-".toList
  | .publishReceived, false => "r-".toList
  | .publishReceived, true => "r5-".toList
  | .command, false => "c-".toList
  | .command, true => "c5-".toList
  | .queue, false => "q-".toList
  | .queue, true => "q5-".toList

/-- `PERSISTENCE_MAX_KEY_LENGTH`. -/
def maxKeyLength : Nat := 10

/-- A stem and a number as `"%s%d"` formats them. -/
def keyText (k : PersistenceKey) : FileName :=
  stemText k.stem k.v5 ++ Nat.toDigits 10 k.number

/-- `snprintf` of a key. There is none when it would be cut off. -/
def writeKey (k : PersistenceKey) : Option FileName :=
  if (keyText k).length ≤ maxKeyLength then some (keyText k) else none

/-- Whether `strncmp` finds a stem at the beginning of a key. -/
def hasStem (stem : Stem) (v5 : Bool) (text : FileName) : Bool :=
  (stemText stem v5).isPrefixOf text

/-- `data_MQTTVersion`, for a key with or without the stem of MQTT 5. -/
def dataVersion (v5 : Bool) : Nat :=
  if v5 then mqttVersion5 else mqttVersion311

/-- A `Publish` as the session reads it. -/
def sessionPublish (pack : PublishPacket) : Publish where
  dup := pack.dup
  qos := pack.qos
  retain := pack.retain
  topic := some pack.topic
  msgId := pack.msgId
  payload := some pack.payload
  mqttVersion := pack.mqttVersion
  properties := pack.properties.array

section Files

variable {Dir : Type} [DecidableEq Dir] (handle : Path)

/-- `MQTTPersistence_putPacket`; the result is whether the return code is 0. -/
def putPacket (files : FileSystem Dir UInt8) (buf0 : Bytes) (buffers : List Bytes)
    (htype : PacketType) (msgId scr mqttVersion : Nat) : Bool × FileSystem Dir UInt8 :=
  let key : PersistenceKey :=
    if scr = 0 then
      match htype with
      | .publish => MQTTPersistence.key .publishSent mqttVersion msgId
      | .pubrel => MQTTPersistence.key .pubrel mqttVersion msgId
      | _ => { stem := .publishSent, v5 := false, number := msgId }
    else MQTTPersistence.key .publishReceived mqttVersion msgId
  match writeKey key with
  | some text => pstput files handle text (buf0 :: buffers)
  | none => (false, files)

/-- What `MQTTPersistence_remove` does for the keys in turn. The return codes of `pstremove` add up,
and a key that is cut off ends it. -/
def removeLoop : Bool → List PersistenceKey → FileSystem Dir UInt8 → Bool × FileSystem Dir UInt8
  | rc, [], files => (rc, files)
  | rc, k :: keys, files =>
      match writeKey k with
      | some text =>
          let removal := pstremove files handle text
          removeLoop (rc && removal.1) keys removal.2
      | none => (false, files)

/-- `MQTTPersistence_remove`. -/
def remove (files : FileSystem Dir UInt8) (type : Stem) (msgId : Nat) :
    Bool × FileSystem Dir UInt8 :=
  removeLoop handle true (MQTTPersistence.removedKeys type msgId) files

/-- Whether `MQTTAsync_unpersistInflightMessages` removes a key. -/
def isInflightText (text : FileName) : Bool :=
  hasStem .publishSent false text || hasStem .publishSent true text ||
    hasStem .pubrel false text || hasStem .pubrel true text ||
    hasStem .publishReceived false text || hasStem .publishReceived true text

/-- The loop of `MQTTAsync_unpersistInflightMessages`. -/
def unpersistLoop : List FileName → FileSystem Dir UInt8 → Bool × FileSystem Dir UInt8
  | [], files => (true, files)
  | text :: texts, files =>
      if isInflightText text then
        let removal := pstremove files handle text
        if removal.1 then unpersistLoop texts removal.2 else (false, removal.2)
      else unpersistLoop texts files

/-- `MQTTAsync_unpersistInflightMessages`. -/
def unpersistInflightMessages (files : FileSystem Dir UInt8) : Bool × FileSystem Dir UInt8 :=
  match pstkeys files handle with
  | some (_, texts) => unpersistLoop handle texts files
  | none => (false, files)

/-- How one round of the loop of `MQTTPersistence_restorePackets` ends. -/
inductive Restoring (Dir : Type) where
  /-- `rc` is 0. -/
  | continues (c : Clients) (files : FileSystem Dir UInt8)
  /-- `rc` is an error code, and the loop ends. -/
  | failed (c : Clients) (files : FileSystem Dir UInt8)
  /-- `goto exit`. -/
  | exits (c : Clients) (files : FileSystem Dir UInt8)

/-- A record is removed while the session is restored. -/
def removeRecord (c : Clients) (files : FileSystem Dir UInt8) (text : FileName) : Restoring Dir :=
  let removal := pstremove files handle text
  if removal.1 then .continues c removal.2 else .failed c removal.2

/-- The stem of MQTT 5 that a key has, and `cur_key`. -/
def currentKey (text : FileName) : Bool × FileName :=
  if hasStem .publishReceived true text then (true, stemText .publishReceived false)
  else if hasStem .publishSent true text then (true, stemText .publishSent false)
  else if hasStem .pubrel true text then (true, stemText .pubrel false)
  else (false, text)

/-- What is done with a packet that was restored. It has no outcome when the packet is not one of
the type that the key is for. -/
def restorePack (c : Clients) (files : FileSystem Dir UInt8) (text cur_key : FileName)
    (pack : StoredPacket) : Option (Restoring Dir) :=
  if hasStem .publishReceived false cur_key then
    match pack with
    | .publish publish _ =>
        let msg := MQTTPersistence.restoredReceived c (sessionPublish publish)
        some (.continues { c with inboundMsgs := c.inboundMsgs ++ [msg] } files)
    | _ => none
  else if hasStem .publishSent false cur_key then
    match pack with
    | .publish publish _ =>
        match writeKey (MQTTPersistence.key .pubrel c.mqttVersion publish.msgId) with
        | none => some (.failed c files)
        | some key =>
            let publish := { sessionPublish publish with mqttVersion := c.mqttVersion }
            let msg := MQTTProtocol.createMessage publish publish.qos publish.retain c.clock
            let msg :=
              if pstcontainskey files handle key then { msg with nextMessageType := some .pubcomp }
              else msg
            let msg := { msg with lastTouch := 0 }
            let outboundMsgs := MQTTPersistence.insertInOrder msg c.outboundMsgs
            some (.continues { c with outboundMsgs := outboundMsgs } files)
    | _ => none
  else if hasStem .pubrel false cur_key then
    match pack with
    | .server { content := .ack (some msgId) _ _, .. } =>
        match writeKey (MQTTPersistence.key .publishSent c.mqttVersion msgId) with
        | none => some (.failed c files)
        | some key =>
            if pstcontainskey files handle key then some (.continues c files)
            else some (removeRecord handle c files text)
    | _ => none
  else some (.continues c files)

/-- One round of the loop of `MQTTPersistence_restorePackets`. It has no outcome when a record is
read outside its bytes. -/
def restoreKey (c : Clients) (files : FileSystem Dir UInt8) (text : FileName) :
    Option (Restoring Dir) :=
  if hasStem .command false text || hasStem .command true text then some (.continues c files)
  else if hasStem .queue false text || hasStem .queue true text then some (.continues c files)
  else
    match pstget files handle text with
    | none => some (.failed c files)
    | some buffer =>
        let (v5, cur_key) := currentKey text
        if v5 = true ∧ c.mqttVersion < mqttVersion5 then some (.exits c files)
        else
          (restorePacket (dataVersion v5) buffer).bind fun
            | .pack pack => restorePack handle c files text cur_key pack
            | _ => some (removeRecord handle c files text)

/-- The loop of `MQTTPersistence_restorePackets` over the keys that `pstkeys` returned. -/
def restoreKeys (c : Clients) (files : FileSystem Dir UInt8) :
    List FileName → Option (Restoring Dir)
  | [] => some (.continues c files)
  | text :: texts =>
      (restoreKey handle c files text).bind fun
        | .continues c files => restoreKeys c files texts
        | ended => some ended

/-- `MQTTPersistence_restorePackets`: whether `rc` is 0, the client and the files. -/
def restorePackets (c : Clients) (files : FileSystem Dir UInt8) :
    Option (Bool × Clients × FileSystem Dir UInt8) :=
  let wrapped (c : Clients) : Clients :=
    { c with outboundMsgs := MQTTPersistence.wrapMsgID c.outboundMsgs }
  match pstkeys files handle with
  | none => some (false, wrapped c, files)
  | some (_, texts) =>
      (restoreKeys handle c files texts).map fun
        | .continues c files => (true, wrapped c, files)
        | .failed c files => (false, wrapped c, files)
        | .exits c files => (false, c, files)

/-- The id that `readInt` finds at the beginning of a buffer. -/
def bufferId (buffer : Bytes) : Option Nat :=
  (readMsgId 1 buffer).map Prod.fst

/-- The put in `MQTTPacket_sends`, before the write. It has no outcome when a buffer is shorter than
its entry. -/
def putSends (files : FileSystem Dir UInt8) (header : Header) (bufs : List PacketBuffer)
    (mqttVersion : Nat) : Option (Bool × FileSystem Dir UInt8) :=
  if header.type = publishType ∧ header.qos ≠ 0 then
    if ∀ buf ∈ bufs, buf.buflen ≤ buf.buffer.length then
      (bufs[2]?.bind fun buf => bufferId buf.buffer).map fun msgId =>
        putPacket handle files (header.byte :: encode (totalLength bufs))
          (bufs.map fun buf => buf.buffer.take buf.buflen) .publish msgId 0 mqttVersion
    else none
  else some (true, files)

/-- PUBREL, as a number. -/
def pubrelType : Nat := 6

/-- The put in `MQTTPacket_send`, before the write. -/
def putSend (files : FileSystem Dir UInt8) (header : Header) (buffer : Bytes)
    (mqttVersion : Nat) : Option (Bool × FileSystem Dir UInt8) :=
  if header.type = pubrelType then
    (bufferId buffer).map fun msgId =>
      putPacket handle files (header.byte :: encode buffer.length) [buffer] .pubrel msgId 0
        mqttVersion
  else some (true, files)

/-- The put in `MQTTPacket_Factory`, for a PUBLISH that has been read from `data`. -/
def putReceived (files : FileSystem Dir UInt8) (header : UInt8) (data : Bytes)
    (pack : PublishPacket) (mqttVersion : Nat) : Bool × FileSystem Dir UInt8 :=
  if (Header.ofByte header).qos = 2 then
    putPacket handle files (header :: encode data.length) [data] .publish pack.msgId 1 mqttVersion
  else (true, files)

end Files

end RecordFiles

end Paho
