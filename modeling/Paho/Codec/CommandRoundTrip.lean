import Paho.Codec.CommandRecords

/-!
# The round trip of a command record

Each field of a record is read as it was written. The test for a string without a terminating
zero in `MQTTAsync_restoreCommand` also refuses a string that ends the record: that is the last
topic of an UNSUBSCRIBE command before MQTT 5.
-/

namespace Paho

open Decoder Native

namespace CommandRecord

variable {rest : Bytes}

/-- A string is read, if it does not end the record. -/
theorem reads_readString (string : CString) (more : rest ≠ []) :
    readString.Reads (writeString string) string rest := by
  have positive : 0 < rest.length := List.length_pos_iff.mpr more
  unfold Reads readString
  rw [stringAt_writeString]
  have length : (writeString string ++ rest).length = string.bytes.length + 1 + rest.length := by
    simp only [writeString, List.length_append, List.length_singleton]
  simp only [length]
  rw [if_neg (by omega), if_neg (by omega), List.drop_left' (by simp [writeString])]

/-- A string that ends the record is taken for one without a terminating zero. -/
theorem readString_last (string : CString) : readString (writeString string) = none := by
  have whole := stringAt_writeString string []
  rw [List.append_nil] at whole
  unfold readString
  rw [whole]
  simp [writeString]

theorem reads_readOptions (options : MQTTSubscribeOptions) :
    readOptions.Reads (writeOptions options) options rest := by
  rcases options with ⟨⟨c0, c1, c2, c3⟩, version, noLocal, retainAsPublished, retainHandling⟩
  have field := @reads_readNative ([noLocal, retainAsPublished, retainHandling, 0] ++ rest) version
  unfold Reads at field ⊢
  simp only [writeOptions, List.append_assoc, List.cons_append, List.nil_append] at field ⊢
  simp only [readOptions, andThen, field]
  rfl

theorem reads_readTopic (topic : CString × Int32) :
    readTopic.Reads (writeTopic topic) topic rest := by
  apply Reads.andThen (reads_readString topic.1 (writeNative_ne_nil topic.2 rest))
  exact Reads.andThen_ret (reads_readNative topic.2) Reads.ret

theorem reads_readTopic5 (topic : (CString × Int32) × MQTTSubscribeOptions) :
    readTopic5.Reads (writeTopic5 topic) topic rest :=
  Reads.andThen (reads_readTopic topic.1)
    (Reads.andThen_ret (reads_readOptions topic.2) Reads.ret)

/-- What the queueing functions make sure of for `details.sub`. -/
structure Sub.Queued (version : Nat) (sub : Sub) : Prop where
  fits : sub.topics.length < 2147483648
  count : sub.count = Int32.ofNat sub.topics.length
  options : mqttVersion5 ≤ version → sub.options.length = sub.topics.length
  single : mqttVersion5 ≤ version → sub.count = 1 → sub.optlist = []
  plain : version < mqttVersion5 → sub.opts = .zero ∧ sub.optlist = []

theorem Sub.Queued.toNat_count {version : Nat} {sub : Sub} (queued : sub.Queued version) :
    sub.count.toInt.toNat = sub.topics.length := by
  rw [queued.count]
  exact Native.toNat_count ⟨sub.topics, queued.fits⟩

theorem reads_readSub {version : Nat} {sub : Sub} (queued : sub.Queued version) :
    ∃ sub', (Details.sub sub').used = (Details.sub sub).used ∧
      (readSub version).Reads
        (writeNative sub.count ++
          if mqttVersion5 ≤ version then (sub.topics.zip sub.options).flatMap writeTopic5
          else sub.topics.flatMap writeTopic) sub' rest := by
  by_cases five : mqttVersion5 ≤ version
  · have lengths := queued.options five
    have count : (sub.topics.zip sub.options).length = sub.count.toInt.toNat := by
      rw [List.length_zip, lengths, Nat.min_self, queued.toNat_count]
    have all := @Reads.repeated _ _ readTopic5 rest writeTopic5 (fun _ => True)
      (sub.topics.zip sub.options) (fun topic _ _ _ => reads_readTopic5 topic)
      (fun _ _ _ _ => trivial) trivial
    rw [count] at all
    have topics : (sub.topics.zip sub.options).map Prod.fst = sub.topics :=
      List.map_fst_zip (Nat.le_of_eq lengths.symm)
    have options : (sub.topics.zip sub.options).map Prod.snd = sub.options :=
      List.map_snd_zip (Nat.le_of_eq lengths)
    by_cases one : sub.count = 1
    · refine ⟨{ sub with opts := sub.opts, optlist := [] }, ?_, ?_⟩
      · simp [Details.used, one, queued.single five one]
      · have single : sub.options = [sub.opts] := if_pos one
        rw [if_pos five]
        apply Reads.andThen (reads_readNative sub.count)
        rw [if_pos five]
        apply Reads.andThen_ret all
        rw [if_pos one, topics, options, single]
        exact Reads.ret
    · refine ⟨{ sub with opts := .zero }, ?_, ?_⟩
      · simp [Details.used, one]
      · have several : sub.options = sub.optlist := if_neg one
        rw [if_pos five]
        apply Reads.andThen (reads_readNative sub.count)
        rw [if_pos five]
        apply Reads.andThen_ret all
        rw [if_neg one, topics, options, several]
        exact Reads.ret
  · rcases queued.plain (Nat.lt_of_not_le five) with ⟨opts, optlist⟩
    have all := @Reads.repeated _ _ readTopic rest writeTopic (fun _ => True) sub.topics
      (fun topic _ _ _ => reads_readTopic topic) (fun _ _ _ _ => trivial) trivial
    refine ⟨sub, rfl, ?_⟩
    rw [if_neg five]
    apply Reads.andThen (reads_readNative sub.count)
    rw [if_neg five, queued.toNat_count]
    apply Reads.andThen_ret all
    rcases sub with ⟨count, topics, _, _⟩
    cases opts
    cases optlist
    exact Reads.ret

/-- The topics of an UNSUBSCRIBE command are read if something follows them. -/
theorem reads_readUnsub {unsub : Unsub} (fits : unsub.topics.length < 2147483648)
    (count : unsub.count = Int32.ofNat unsub.topics.length)
    (more : unsub.topics = [] ∨ rest ≠ []) :
    readUnsub.Reads (writeNative unsub.count ++ unsub.topics.flatMap writeString) unsub rest := by
  have all : (repeated readString unsub.topics.length).Reads (unsub.topics.flatMap writeString)
      unsub.topics rest := by
    rcases more with none | more
    · rw [none]
      exact Reads.ret
    · apply @Reads.repeated _ _ readString rest writeString (fun rest => rest ≠ []) unsub.topics
      · exact fun topic _ rest more => reads_readString topic more
      · intro topic _ rest more empty
        exact more (List.append_eq_nil_iff.mp empty).2
      · exact more
  apply Reads.andThen (reads_readNative unsub.count)
  rw [count, toNat_count ⟨unsub.topics, fits⟩, ← count]
  exact Reads.andThen_ret all Reads.ret

/-- The topics of an UNSUBSCRIBE command are refused if nothing follows them. -/
theorem repeated_readString_last {topics : List CString} (some : topics ≠ []) :
    repeated readString topics.length (topics.flatMap writeString) = none := by
  induction topics with
  | nil => exact absurd rfl some
  | cons topic topics ih =>
      rw [List.flatMap_cons, List.length_cons, repeated]
      cases topics with
      | nil =>
          apply andThen_of_none
          rw [List.flatMap_nil, List.append_nil, readString_last]
      | cons other topics =>
          have more : (other :: topics).flatMap writeString ≠ [] := by simp [writeString]
          apply (andThen_of_some (reads_readString topic more)).trans
          exact andThen_of_none (ih (List.cons_ne_nil _ _))

theorem readUnsub_last {unsub : Unsub} (fits : unsub.topics.length < 2147483648)
    (count : unsub.count = Int32.ofNat unsub.topics.length) (some : unsub.topics ≠ []) :
    readUnsub (writeNative unsub.count ++ unsub.topics.flatMap writeString) = none := by
  apply (andThen_of_some (reads_readNative unsub.count)).trans
  apply andThen_of_none
  rw [count, toNat_count ⟨unsub.topics, fits⟩]
  exact repeated_readString_last some

/-- Both readings of a PUBLISH command. -/
theorem reads_readPub (first : Bool) (destinationName : CString) (payload : Counted UInt8)
    (qos retained : Int32) :
    (readPub first).Reads
      (writeString destinationName ++ (writeNative (Int32.ofNat payload.val.length) ++
        (payload.val ++ (writeNative qos ++ writeNative retained))))
      { destinationName := if first then none else some destinationName
        payloadlen := Int32.ofNat payload.val.length
        payload := if first then none else some payload.val
        qos := qos
        retained := retained } rest := by
  have small := payload.property
  have length : (Int32.ofNat payload.val.length).toInt = payload.val.length :=
    Int32.toInt_ofNat_of_lt (by omega)
  have more : writeNative (Int32.ofNat payload.val.length) ++
      (payload.val ++ (writeNative qos ++ writeNative retained)) ++ rest ≠ [] := by
    rw [List.append_assoc]
    exact writeNative_ne_nil _ _
  apply Reads.andThen (reads_readString destinationName more)
  apply Reads.andThen (reads_readNative _)
  rw [if_neg (by omega)]
  apply Reads.andThen (Reads.symbols (by omega))
  apply Reads.andThen (reads_readNative qos)
  exact Reads.andThen_ret (reads_readNative retained) Reads.ret

section Restoring

variable {version : Nat} {command : Command}

/-- The details of a command as the queueing functions make them. -/
inductive Details.Queued (version : Nat) : Details → Prop where
  | sub (sub : Sub) (queued : sub.Queued version) : Details.Queued version (.sub sub)
  | unsub (unsub : Unsub) (fits : unsub.topics.length < 2147483648)
      (count : unsub.count = Int32.ofNat unsub.topics.length) :
        Details.Queued version (.unsub unsub)
  | pub (destinationName : CString) (payload : Counted UInt8) (qos retained : Int32) :
      Details.Queued version
        (.pub
          { destinationName := some destinationName
            payloadlen := Int32.ofNat payload.val.length
            payload := some payload.val
            qos := qos
            retained := retained })

theorem count_eq_one {α : Type} {items : List α} (fits : items.length < 2147483648) :
    Int32.ofNat items.length = 1 ↔ items.length = 1 := by
  constructor
  · intro one
    have length := toNat_count ⟨items, fits⟩
    rw [one] at length
    exact length.symm
  · intro one
    rw [one]
    rfl

theorem subscribeMany_queued {token : Int32} {topics : Counted (CString × Int32)}
    {response : Option ResponseOptions}
    (queued : subscribeMany version token topics response = some command) :
    command.details.Queued version ∧ command.properties = newProperties version response := by
  have fits := topics.property
  have one := count_eq_one fits
  unfold subscribeMany at queued
  split at queued
  next early =>
    cases queued
    refine ⟨.sub _ ⟨fits, rfl, ?_, ?_, fun _ => ⟨rfl, rfl⟩⟩, rfl⟩
    · exact fun five => absurd five (Nat.not_le_of_lt early)
    · exact fun five => absurd five (Nat.not_le_of_lt early)
  next five =>
    have few (notMany : topics.val.length ≤ 1) (opts : MQTTSubscribeOptions) :
        Sub.Queued version ⟨Int32.ofNat topics.val.length, topics.val, opts, []⟩ := by
      refine ⟨fits, rfl, fun _ => ?_, fun _ _ => rfl, fun early => absurd early five⟩
      unfold Sub.options
      by_cases single : topics.val.length = 1
      · rw [if_pos (one.mpr single), single]
        rfl
      · rw [if_neg fun isOne => single (one.mp isOne)]
        simp only [List.length_nil]
        omega
    have several (many : ¬topics.val.length ≤ 1) (opts : MQTTSubscribeOptions)
        {options : List MQTTSubscribeOptions} (lengths : options.length = topics.val.length) :
        Sub.Queued version ⟨Int32.ofNat topics.val.length, topics.val, opts, options⟩ := by
      have notOne : ¬Int32.ofNat topics.val.length = 1 := by
        intro isOne
        have single := one.mp isOne
        omega
      refine ⟨fits, rfl, fun _ => ?_, fun _ isOne => absurd isOne notOne,
        fun early => absurd early five⟩
      unfold Sub.options
      rw [if_neg notOne]
      exact lengths
    cases response with
    | none =>
        simp only at queued
        split at queued
        · cases queued
        next notMany =>
          cases queued
          exact ⟨.sub _ (few (by omega) _), rfl⟩
    | some response =>
        simp only at queued
        split at queued
        next notMany =>
          cases queued
          exact ⟨.sub _ (few notMany _), rfl⟩
        next many =>
          split at queued
          · cases queued
            exact ⟨.sub _ (several many _ (List.length_replicate ..)), rfl⟩
          · split at queued
            next lengths =>
              cases queued
              exact ⟨.sub _ (several many _ lengths), rfl⟩
            · cases queued

theorem Queued.spec (queued : Queued version command) :
    command.details.Queued version ∧
      ∃ response, command.properties = newProperties version response := by
  cases queued with
  | subscribe token topics response command queued =>
      have spec := subscribeMany_queued queued
      exact ⟨spec.1, response, spec.2⟩
  | unsubscribe token topics response =>
      exact ⟨.unsub _ topics.property rfl, response, rfl⟩
  | publish token destinationName payload qos retained response =>
      exact ⟨.pub destinationName payload qos retained, response, rfl⟩

/-- The properties of a command have the types of their identifiers. -/
theorem Queued.wellTyped (queued : Queued version command) :
    ∀ prop ∈ command.properties, prop.WellTyped := by
  rcases queued.spec with ⟨_, response, isNew⟩
  rw [isNew]
  intro prop mem
  unfold newProperties at mem
  split at mem
  · split at mem
    · rcases List.mem_filter.mp mem with ⟨mem, known⟩
      rcases List.mem_map.mp mem with ⟨passed, _, rfl⟩
      exact passed.property known
    · cases mem
  · cases mem

/-- Before MQTT 5 a command has no properties. -/
theorem Queued.noProperties (queued : Queued version command) (early : version < mqttVersion5) :
    command.properties = [] := by
  rcases queued.spec with ⟨_, response, isNew⟩
  rw [isNew]
  unfold newProperties
  split
  · exact if_neg (Nat.not_le_of_lt early)
  · rfl

/-- The record ends with a topic. -/
def EndsWithTopic (version : Nat) : Details → Prop
  | .unsub unsub => version < mqttVersion5 ∧ unsub.topics ≠ []
  | _ => False

/-- The second reading of the details. -/
theorem reads_readDetails {details : Details} (queued : details.Queued version)
    (readable : rest ≠ [] ∨ (version < mqttVersion5 ∧ ¬EndsWithTopic version details)) :
    ∃ details', details'.used = details.used ∧
      (readDetails version false details.type).Reads (writeDetails version details) details'
        rest := by
  cases queued with
  | sub sub queued =>
      rcases @reads_readSub rest version sub queued with ⟨sub', same, reads⟩
      refine ⟨.sub sub', same, ?_⟩
      change (andThen (readSub version) fun sub => ret (Details.sub sub)).Reads _ _ _
      exact Reads.andThen_ret reads Reads.ret
  | unsub unsub fits count =>
      refine ⟨.unsub unsub, rfl, ?_⟩
      have more : unsub.topics = [] ∨ rest ≠ [] := by
        rcases readable with more | ⟨early, noTopic⟩
        · exact .inr more
        · exact .inl (by_contra fun some => noTopic ⟨early, some⟩)
      change (andThen readUnsub fun unsub => ret (Details.unsub unsub)).Reads _ _ _
      exact Reads.andThen_ret (reads_readUnsub fits count more) Reads.ret
  | pub destinationName payload qos retained =>
      refine ⟨_, rfl, ?_⟩
      have reads := @reads_readPub rest false destinationName payload qos retained
      change (andThen (readPub false) fun pub => ret (Details.pub pub)).Reads _ _ _
      have written : writeDetails version (.pub
          { destinationName := some destinationName
            payloadlen := Int32.ofNat payload.val.length
            payload := some payload.val
            qos := qos
            retained := retained }) =
          writeString destinationName ++ (writeNative (Int32.ofNat payload.val.length) ++
            (payload.val ++ (writeNative qos ++ writeNative retained))) := by
        simp [writeDetails, List.append_assoc]
      rw [written]
      exact Reads.andThen_ret reads Reads.ret

/-- The first reading of the details of a command. -/
theorem readDetails_first {details : Details} (queued : details.Queued version) (rest : Bytes) :
    ∃ details' rest', readDetails version true details.type (writeDetails version details ++ rest) =
      some (details', rest') ∧ details'.type = details.type := by
  cases queued with
  | sub sub queued => exact ⟨_, _, rfl, rfl⟩
  | unsub unsub fits count => exact ⟨_, _, rfl, rfl⟩
  | pub destinationName payload qos retained =>
      have reads := @reads_readPub rest true destinationName payload qos retained
      have written : writeDetails version (.pub
          { destinationName := some destinationName
            payloadlen := Int32.ofNat payload.val.length
            payload := some payload.val
            qos := qos
            retained := retained }) =
          writeString destinationName ++ (writeNative (Int32.ofNat payload.val.length) ++
            (payload.val ++ (writeNative qos ++ writeNative retained))) := by
        simp [writeDetails, List.append_assoc]
      rw [written]
      have first := @andThen_of_some _ _ _ _ (fun pub => ret (Details.pub pub)) _ _ _ reads
      exact ⟨_, _, first, rfl⟩

/-- The head of a record is read in either reading. -/
theorem restoreCommand_eq (type token : Int32) (body : Bytes) (qcommand : Option QueuedCommand) :
    restoreCommand (writeNative type ++ writeNative token ++ body) version qcommand =
      ((andThen (readDetails version qcommand.isNone type) fun details =>
        andThen (if qcommand.isSome ∧ mqttVersion5 ≤ version then MQTTProperties.read else ret [])
          fun properties =>
            ret
              { command := { token := token, details := details, properties := properties }
                not_restored := qcommand.isNone }) body).map Prod.fst := by
  unfold restoreCommand
  rw [List.append_assoc]
  apply congrArg (Option.map Prod.fst)
  apply (andThen_of_some (reads_readNative type)).trans
  exact andThen_of_some (reads_readNative token)

/-- The first reading of a record finds a command of its type. -/
theorem restoreCommand_first {details : Details} (queued : details.Queued version)
    (token : Int32) (rest : Bytes) :
    ∃ qcommand, restoreCommand
      (writeNative details.type ++ writeNative token ++ (writeDetails version details ++ rest))
      version none = some qcommand ∧ qcommand.command.details.type = details.type := by
  rcases readDetails_first queued rest with ⟨details', rest', first, sameType⟩
  rw [restoreCommand_eq]
  refine ⟨⟨⟨token, details', []⟩, true⟩, ?_, sameType⟩
  apply (congrArg (Option.map Prod.fst) (andThen_of_some first)).trans
  rfl

/-- What becomes of the record of a command. -/
theorem restored_eq {details : Details} (queued : details.Queued version) (token : Int32)
    (rest : Bytes) :
    ∃ qcommand, restored version
      (writeNative details.type ++ writeNative token ++ (writeDetails version details ++ rest)) =
        restoreCommand
          (writeNative details.type ++ writeNative token ++ (writeDetails version details ++ rest))
          version (some qcommand) := by
  rcases restoreCommand_first queued token rest with ⟨qcommand, first, _⟩
  refine ⟨qcommand, ?_⟩
  rw [restored, first]
  rfl

/-- Whether a record of the command can be read again. -/
structure Restorable (version : Nat) (command : Command) : Prop where
  properties : mqttVersion5 ≤ version → MQTTProperties.Representable command.properties
  noTopic : ¬EndsWithTopic version command.details

theorem roundTrips_of_restorable (queued : Queued version command)
    (restorable : Restorable version command) : RoundTrips version command := by
  have details := queued.spec.1
  by_cases five : mqttVersion5 ≤ version
  · have representable := restorable.properties five
    have fits : (MQTTProperties.write command.properties).length ≤
        MQTTProperties.len command.properties :=
      Nat.le_of_eq (MQTTProperties.length_write representable)
    have written : persistCommand version command =
        some (writeNative command.details.type ++ writeNative command.token ++
          (writeDetails version command.details ++ MQTTProperties.write command.properties)) := by
      unfold persistCommand
      rw [if_pos five, if_pos fits]
      simp only [List.append_assoc]
    have more : MQTTProperties.write command.properties ≠ [] := by
      intro empty
      have positive := MQTTPacket.length_encode_pos (MQTTProperties.length command.properties)
      have none := congrArg List.length empty
      simp only [MQTTProperties.write, List.length_append, List.length_nil] at none
      omega
    rcases reads_readDetails details (.inl more) with ⟨details', used, first⟩
    have second := @MQTTProperties.reads_read command.properties [] queued.wellTyped representable
    unfold Reads at second
    rw [List.append_nil] at second
    rcases restored_eq details command.token (MQTTProperties.write command.properties) with
      ⟨qcommand, isRestored⟩
    refine ⟨_, ⟨⟨command.token, details', command.properties⟩, false⟩, written, ?_,
      rfl, used, rfl⟩
    rw [isRestored, restoreCommand_eq]
    apply (congrArg (Option.map Prod.fst) (andThen_of_some first)).trans
    rw [if_pos ⟨rfl, five⟩]
    apply (congrArg (Option.map Prod.fst) (andThen_of_some second)).trans
    rfl
  · have early : version < mqttVersion5 := Nat.lt_of_not_le five
    have written : persistCommand version command =
        some (writeNative command.details.type ++ writeNative command.token ++
          (writeDetails version command.details ++ [])) := by
      unfold persistCommand
      rw [if_neg five]
      simp only [List.append_nil]
    rcases @reads_readDetails [] version command.details details
      (.inr ⟨early, restorable.noTopic⟩) with ⟨details', used, first⟩
    rcases restored_eq details command.token [] with ⟨qcommand, isRestored⟩
    refine ⟨_, ⟨⟨command.token, details', []⟩, false⟩, written, ?_, rfl, used,
      (queued.noProperties early).symm⟩
    rw [isRestored, restoreCommand_eq]
    apply (congrArg (Option.map Prod.fst) (andThen_of_some first)).trans
    rw [if_neg fun both => five both.2]
    rfl

/-- The record of an UNSUBSCRIBE command before MQTT 5 is refused. -/
theorem restored_of_endsWithTopic (queued : Queued version command)
    (topic : EndsWithTopic version command.details) :
    ∃ record, persistCommand version command = some record ∧ restored version record = none := by
  have details := queued.spec.1
  cases details' : command.details with
  | sub sub =>
      rw [details'] at topic
      exact topic.elim
  | pub pub =>
      rw [details'] at topic
      exact topic.elim
  | unsub unsub =>
      rw [details'] at topic details
      rcases topic with ⟨early, some⟩
      refine ⟨writeNative (Details.unsub unsub).type ++ writeNative command.token ++
        (writeDetails version (.unsub unsub) ++ []), ?_, ?_⟩
      · unfold persistCommand
        rw [if_neg (Nat.not_le_of_lt early), details', List.append_nil]
      · rcases restored_eq details command.token [] with ⟨qcommand, isRestored⟩
        rw [isRestored, restoreCommand_eq]
        cases details with
        | unsub _ fits count =>
            have refused : readDetails version false (Details.unsub unsub).type
                (writeDetails version (.unsub unsub) ++ []) = none := by
              rw [List.append_nil]
              exact @andThen_of_none _ _ _ _ (fun unsub => ret (Details.unsub unsub)) _
                (readUnsub_last fits count some)
            exact congrArg (Option.map Prod.fst) (andThen_of_none refused)

/-- Properties that were restored have a form on the wire. -/
theorem representable_of_restoreCommand {buffer : Bytes} {qcommand restored : QueuedCommand}
    (five : mqttVersion5 ≤ version)
    (isRestored : restoreCommand buffer version (some qcommand) = some restored) :
    ∀ prop ∈ restored.command.properties, prop.value.Representable := by
  rcases Option.map_eq_some_iff.mp isRestored with ⟨⟨result, rest⟩, read, rfl⟩
  rcases andThen_eq_some.mp read with ⟨type, _, _, read⟩
  rcases andThen_eq_some.mp read with ⟨token, _, _, read⟩
  rcases andThen_eq_some.mp read with ⟨details, _, _, read⟩
  rcases andThen_eq_some.mp read with ⟨properties, _, first, read⟩
  cases read
  rw [if_pos ⟨rfl, five⟩] at first
  exact MQTTProperties.representable_of_read first

theorem restorable_of_roundTrips (queued : Queued version command)
    (roundTrips : RoundTrips version command) : Restorable version command := by
  rcases roundTrips with ⟨record, qcommand, written, isRestored, same⟩
  refine ⟨fun five => ⟨?_, ?_⟩, fun topic => ?_⟩
  · rw [← same.2.2]
    rcases Option.bind_eq_some_iff.mp isRestored with ⟨first, _, second⟩
    exact representable_of_restoreCommand five second
  · by_contra outOfRange
    have long := MQTTProperties.len_lt_length_write (Nat.le_of_not_lt outOfRange)
    unfold persistCommand at written
    rw [if_pos five, if_neg (Nat.not_le_of_lt long)] at written
    cases written
  · rcases restored_of_endsWithTopic queued topic with ⟨record', written', refused⟩
    cases written.symm.trans written'
    cases isRestored.symm.trans refused

end Restoring

/-- A command round-trips exactly when its properties have a form on the wire and its record does
not end with a topic, as that of an UNSUBSCRIBE command before MQTT 5 does. -/
theorem roundTrips_iff {version : Nat} {command : Command} (queued : Queued version command) :
    RoundTrips version command ↔ Restorable version command :=
  ⟨restorable_of_roundTrips queued, roundTrips_of_restorable queued⟩

/-- The topic `a`. -/
def topicA : CString :=
  { bytes := [97], noZero := by simp }

/-- Both cases of `roundTrips_iff` at MQTT 3.1.1: a publication is restored, and an UNSUBSCRIBE
command is not. -/
theorem roundTrips_iff_311 :
    RoundTrips mqttVersion311 (send mqttVersion311 1 topicA ⟨[0, 1], by decide⟩ 1 0 none) ∧
      ¬RoundTrips mqttVersion311
        (unsubscribeMany mqttVersion311 1 ⟨[topicA], by decide⟩ none) := by
  constructor
  · apply (roundTrips_iff (.publish 1 topicA ⟨[0, 1], by decide⟩ 1 0 none)).mpr
    exact ⟨fun five => absurd five (by decide), id⟩
  · intro roundTrips
    have restorable := (roundTrips_iff (.unsubscribe 1 ⟨[topicA], by decide⟩ none)).mp roundTrips
    exact restorable.noTopic ⟨by decide, by decide⟩

/-- Not every command round-trips: an UNSUBSCRIBE command at MQTT 3.1.1 is restored as `NULL`. -/
theorem not_roundTrips :
    ¬∀ version command, Queued version command → RoundTrips version command := by
  intro all
  have queued : Queued mqttVersion311
      (unsubscribeMany mqttVersion311 1 ⟨[topicA], by decide⟩ none) :=
    .unsubscribe 1 ⟨[topicA], by decide⟩ none
  rcases all _ _ queued with ⟨record, qcommand, written, isRestored, _⟩
  rcases restored_of_endsWithTopic queued ⟨by decide, by decide⟩ with ⟨record', written', refused⟩
  cases written.symm.trans written'
  cases isRestored.symm.trans refused

end CommandRecord

end Paho
