import Paho.Codec.Native
import Paho.Codec.Properties

/-!
# Records of commands

The SUBSCRIBE, UNSUBSCRIBE and PUBLISH commands that the functions of `MQTTAsync.c` queue,
`MQTTAsync_persistCommand`, which writes such a command into a record, and
`MQTTAsync_restoreCommand`, which reads it from one. Memory allocation succeeds.
-/

namespace Paho

open Decoder Native

/-- `MQTTSubscribe_options`. -/
structure MQTTSubscribeOptions where
  struct_id : UInt8 × UInt8 × UInt8 × UInt8
  struct_version : Int32
  noLocal : UInt8
  retainAsPublished : UInt8
  retainHandling : UInt8
  deriving DecidableEq, Repr

namespace MQTTSubscribeOptions

/-- `MQTTSubscribe_options_initializer`. -/
def initializer : MQTTSubscribeOptions :=
  { struct_id := (77, 81, 83, 79)
    struct_version := 0
    noLocal := 0
    retainAsPublished := 0
    retainHandling := 0 }

/-- After `memset`. -/
def zero : MQTTSubscribeOptions :=
  { initializer with struct_id := (0, 0, 0, 0) }

end MQTTSubscribeOptions

namespace CommandRecord

/-- `details.sub`; `topics` has the elements of the arrays `topics` and `qoss`. -/
structure Sub where
  count : Int32
  topics : List (CString × Int32)
  opts : MQTTSubscribeOptions
  optlist : List MQTTSubscribeOptions
  deriving DecidableEq, Repr

/-- `details.unsub`. -/
structure Unsub where
  count : Int32
  topics : List CString
  deriving DecidableEq, Repr

/-- `details.pub`. -/
structure Pub where
  destinationName : Option CString
  payloadlen : Int32
  payload : Option Bytes
  qos : Int32
  retained : Int32
  deriving DecidableEq, Repr

/-- `details`, with the member that the type of the command selects. -/
inductive Details where
  | sub (sub : Sub)
  | unsub (unsub : Unsub)
  | pub (pub : Pub)
  deriving DecidableEq, Repr

/-- `PUBLISH`, `SUBSCRIBE` and `UNSUBSCRIBE`. -/
def typePublish : Int32 := 3
def typeSubscribe : Int32 := 8
def typeUnsubscribe : Int32 := 10

/-- The type of the command. -/
def Details.type : Details → Int32
  | .sub _ => typeSubscribe
  | .unsub _ => typeUnsubscribe
  | .pub _ => typePublish

/-- `MQTTAsync_command`, as far as it is stored. -/
structure Command where
  token : Int32
  details : Details
  properties : MQTTProperties
  deriving DecidableEq

/-- `MQTTAsync_queuedCommand`. -/
structure QueuedCommand where
  command : Command
  not_restored : Bool
  deriving DecidableEq

section Queueing

/-- A property as an application can pass it: its value is of the type that its identifier has, or
the identifier is unknown. -/
abbrev PassedProperty :=
  { prop : MQTTProperty // (MQTTProperty.getType prop.identifier).isSome → prop.WellTyped }

/-- The members of `MQTTAsync_responseOptions` that go into a command. -/
structure ResponseOptions where
  properties : List PassedProperty
  subscribeOptions : MQTTSubscribeOptions
  subscribeOptionsList : List MQTTSubscribeOptions

/-- `MQTTProperties_copy`: `MQTTProperties_add` refuses unknown identifiers. -/
def copy (props : List PassedProperty) : MQTTProperties :=
  (props.map Subtype.val).filter fun prop => (MQTTProperty.getType prop.identifier).isSome

/-- The properties of a new command. -/
def newProperties (version : Nat) (response : Option ResponseOptions) : MQTTProperties :=
  match response with
  | some response => if mqttVersion5 ≤ version then copy response.properties else []
  | none => []

/-- The command that `MQTTAsync_subscribeMany` queues, if it does. Several topics under MQTT 5 need
a response structure. -/
def subscribeMany (version : Nat) (token : Int32) (topics : Counted (CString × Int32))
    (response : Option ResponseOptions) : Option Command :=
  let count := topics.val.length
  let sub : Sub :=
    { count := Int32.ofNat count, topics := topics.val, opts := .zero, optlist := [] }
  let command (sub : Sub) : Command :=
    { token := token, details := .sub sub, properties := newProperties version response }
  if version < mqttVersion5 then some (command sub)
  else
    match response with
    | none => if 1 < count then none else some (command sub)
    | some response =>
        let options := response.subscribeOptionsList
        if count ≤ 1 then some (command { sub with opts := response.subscribeOptions })
        else if options.length = 0 then
          some (command { sub with
            opts := response.subscribeOptions
            optlist := List.replicate count .initializer })
        else if options.length = count then
          some (command { sub with opts := response.subscribeOptions, optlist := options })
        else none

/-- The command that `MQTTAsync_unsubscribeMany` queues. -/
def unsubscribeMany (version : Nat) (token : Int32) (topics : Counted CString)
    (response : Option ResponseOptions) : Command :=
  { token := token
    details := .unsub { count := Int32.ofNat topics.val.length, topics := topics.val }
    properties := newProperties version response }

/-- The command that `MQTTAsync_send` queues. -/
def send (version : Nat) (token : Int32) (destinationName : CString) (payload : Counted UInt8)
    (qos retained : Int32) (response : Option ResponseOptions) : Command :=
  { token := token
    details := .pub
      { destinationName := some destinationName
        payloadlen := Int32.ofNat payload.val.length
        payload := some payload.val
        qos := qos
        retained := retained }
    properties := newProperties version response }

/-- The commands that the asynchronous client queues for an application. -/
inductive Queued (version : Nat) : Command → Prop where
  | subscribe (token : Int32) (topics : Counted (CString × Int32))
      (response : Option ResponseOptions) (command : Command)
      (queued : subscribeMany version token topics response = some command) :
      Queued version command
  | unsubscribe (token : Int32) (topics : Counted CString) (response : Option ResponseOptions) :
      Queued version (unsubscribeMany version token topics response)
  | publish (token : Int32) (destinationName : CString) (payload : Counted UInt8)
      (qos retained : Int32) (response : Option ResponseOptions) :
      Queued version (send version token destinationName payload qos retained response)

end Queueing

section Writing

/-- The bytes of an `MQTTSubscribe_options`, with a byte of padding. -/
def writeOptions (options : MQTTSubscribeOptions) : Bytes :=
  let (c0, c1, c2, c3) := options.struct_id
  [c0, c1, c2, c3] ++ writeNative options.struct_version ++
    [options.noLocal, options.retainAsPublished, options.retainHandling, 0]

/-- A topic and its QoS. -/
def writeTopic (topic : CString × Int32) : Bytes :=
  writeString topic.1 ++ writeNative topic.2

/-- A topic, its QoS and its options. -/
def writeTopic5 (topic : (CString × Int32) × MQTTSubscribeOptions) : Bytes :=
  writeTopic topic.1 ++ writeOptions topic.2

/-- The options of the topics: one topic has `opts`, several have `optlist`. -/
def Sub.options (sub : Sub) : List MQTTSubscribeOptions :=
  if sub.count = 1 then [sub.opts] else sub.optlist

/-- The buffers for the details of a command. -/
def writeDetails (version : Nat) : Details → Bytes
  | .sub sub =>
      writeNative sub.count ++
        if mqttVersion5 ≤ version then (sub.topics.zip sub.options).flatMap writeTopic5
        else sub.topics.flatMap writeTopic
  | .unsub unsub => writeNative unsub.count ++ unsub.topics.flatMap writeString
  | .pub pub =>
      (pub.destinationName.map writeString).getD [] ++ writeNative pub.payloadlen ++
        pub.payload.getD [] ++ writeNative pub.qos ++ writeNative pub.retained

/-- `MQTTAsync_persistCommand`: the record that is put. It has no outcome when the properties do
not fit the buffer of the length that `MQTTProperties_len` says. -/
def persistCommand (version : Nat) (command : Command) : Option Bytes :=
  let record := writeNative command.details.type ++ writeNative command.token ++
    writeDetails version command.details
  if mqttVersion5 ≤ version then
    if (MQTTProperties.write command.properties).length ≤ MQTTProperties.len command.properties
    then some (record ++ MQTTProperties.write command.properties)
    else none
  else some record

end Writing

section Reading

/-- Read a string. Without a zero, the copy goes past the end of the buffer. -/
def readString : Decoder UInt8 CString := fun bytes =>
  let data_size := (stringAt bytes).bytes.length + 1
  if data_size = bytes.length then none
  else if bytes.length < data_size then none
  else some (stringAt bytes, bytes.drop data_size)

/-- Read an `MQTTSubscribe_options`. -/
def readOptions : Decoder UInt8 MQTTSubscribeOptions
  | c0 :: c1 :: c2 :: c3 :: rest =>
      andThen readNative (fun struct_version => fun
        | noLocal :: retainAsPublished :: retainHandling :: _ :: rest =>
            some ({ struct_id := (c0, c1, c2, c3)
                    struct_version := struct_version
                    noLocal := noLocal
                    retainAsPublished := retainAsPublished
                    retainHandling := retainHandling }, rest)
        | _ => none) rest
  | _ => none

/-- Read a topic and its QoS. -/
def readTopic : Decoder UInt8 (CString × Int32) :=
  andThen readString fun topic => andThen readNative fun qos => ret (topic, qos)

/-- Read a topic, its QoS and its options. -/
def readTopic5 : Decoder UInt8 ((CString × Int32) × MQTTSubscribeOptions) :=
  andThen readTopic fun topic => andThen readOptions fun options => ret (topic, options)

/-- The case `SUBSCRIBE` of `MQTTAsync_restoreCommand`. -/
def readSub (version : Nat) : Decoder UInt8 Sub :=
  andThen readNative fun count =>
    if mqttVersion5 ≤ version then
      andThen (repeated readTopic5 count.toInt.toNat) fun topics =>
        if count = 1 then
          ret
            { count := count
              topics := topics.map Prod.fst
              opts := (topics.map Prod.snd).headD .zero
              optlist := [] }
        else
          ret
            { count := count
              topics := topics.map Prod.fst
              opts := .zero
              optlist := topics.map Prod.snd }
    else
      andThen (repeated readTopic count.toInt.toNat) fun topics =>
        ret { count := count, topics := topics, opts := .zero, optlist := [] }

/-- The case `UNSUBSCRIBE` of `MQTTAsync_restoreCommand`. -/
def readUnsub : Decoder UInt8 Unsub :=
  andThen readNative fun count =>
    andThen (repeated readString count.toInt.toNat) fun topics =>
      ret { count := count, topics := topics }

/-- The case `PUBLISH` of `MQTTAsync_restoreCommand`. The first reading keeps neither the topic
nor the payload. -/
def readPub (first : Bool) : Decoder UInt8 Pub :=
  andThen readString fun destinationName =>
    andThen readNative fun payloadlen =>
      if payloadlen.toInt < 0 then fun _ => none
      else
        andThen (symbols payloadlen.toInt.toNat) fun payload =>
          andThen readNative fun qos =>
            andThen readNative fun retained =>
              ret
                { destinationName := if first then none else some destinationName
                  payloadlen := payloadlen
                  payload := if first then none else some payload
                  qos := qos
                  retained := retained }

/-- The switch of `MQTTAsync_restoreCommand`. -/
def readDetails (version : Nat) (first : Bool) (type : Int32) : Decoder UInt8 Details :=
  if type = typeSubscribe then
    if first then ret (.sub { count := 0, topics := [], opts := .zero, optlist := [] })
    else andThen (readSub version) fun sub => ret (.sub sub)
  else if type = typeUnsubscribe then
    if first then ret (.unsub { count := 0, topics := [] })
    else andThen readUnsub fun unsub => ret (.unsub unsub)
  else if type = typePublish then andThen (readPub first) fun pub => ret (.pub pub)
  else fun _ => none

/-- `MQTTAsync_restoreCommand`, with `NULL` for `qcommand` in the first reading. The members that
are not read are zero. -/
def restoreCommand (buffer : Bytes) (version : Nat) (qcommand : Option QueuedCommand) :
    Option QueuedCommand :=
  let reader : Decoder UInt8 QueuedCommand :=
    andThen readNative fun type =>
      andThen readNative fun token =>
        andThen (readDetails version qcommand.isNone type) fun details =>
          andThen
            (if qcommand.isSome ∧ mqttVersion5 ≤ version then MQTTProperties.read else ret [])
            fun properties =>
              ret
                { command := { token := token, details := details, properties := properties }
                  not_restored := qcommand.isNone }
  (reader buffer).map Prod.fst

/-- What the record of a command becomes: `MQTTAsync_restoreCommands` reads it once, and
`MQTTAsync_processCommand` once more. -/
def restored (version : Nat) (record : Bytes) : Option QueuedCommand :=
  (restoreCommand record version none).bind fun qcommand =>
    restoreCommand record version (some qcommand)

end Reading

/-- The details that processing a command uses: `opts` is used for one topic only. -/
def Details.used : Details → Details
  | .sub details =>
      .sub { details with opts := if details.count = 1 then details.opts else .zero }
  | details => details

/-- Two commands have the same type, token, details and properties. -/
def Command.Same (left right : Command) : Prop :=
  left.token = right.token ∧ left.details.used = right.details.used ∧
    left.properties = right.properties

instance (left right : Command) : Decidable (left.Same right) :=
  inferInstanceAs (Decidable (_ ∧ _ ∧ _))

/-- The record of a command is restored as that command. -/
def RoundTrips (version : Nat) (command : Command) : Prop :=
  ∃ record qcommand, persistCommand version command = some record ∧
    restored version record = some qcommand ∧ qcommand.command.Same command

end CommandRecord

end Paho
