import Paho.Codec.ClientPackets
import Paho.Codec.ServerPacketLayouts

/-!
# Packets from the client and their layouts

For which calls the buffer of a packet is filled exactly and read back by the layout of its type and
version.
-/

namespace Paho

open MQTTPacket Layout

/-! ## Fields -/

namespace ClientLayout

theorem delimited_byte : Delimited byte := by
  constructor
  rintro _ _ rest rest' value value' rfl rfl same
  injection same with same
  exact ⟨congrArg (fun c => [c]) same, same⟩

theorem delimited_twoBytes : Delimited twoBytes := by
  constructor
  rintro _ _ rest rest' value value' ⟨first, second, rfl, rfl⟩ ⟨first', second', rfl, rfl⟩ same
  injection same with same same'
  injection same' with same'
  subst same
  subst same'
  exact ⟨rfl, rfl⟩

theorem delimited_constant (bytes : Bytes) : Delimited (constant bytes) := by
  constructor
  rintro _ _ rest rest' _ _ rfl rfl _
  exact ⟨rfl, rfl⟩

theorem delimited_lenString : Delimited LenString := by
  constructor
  rintro _ _ rest rest' data data' ⟨length⟩ ⟨length'⟩ same
  simp only [List.cons_append, List.cons.injEq] at same
  rcases same with ⟨rfl, rfl, same⟩
  rcases List.append_inj same (length.trans length'.symm) with ⟨rfl, -⟩
  exact ⟨rfl, rfl⟩

theorem delimited_isList : Delimited IsList := by
  constructor
  intro item item' rest rest' list list' isList isList' same
  have begins := beginsWithList_append isList rest
  rw [same] at begins
  rcases beginsWithList_unique begins (beginsWithList_append isList' rest') with ⟨rfl, length⟩
  exact ⟨(List.append_inj same length).1, rfl⟩

theorem vbi_unique {field field' rest rest' : Bytes} {n n' : Nat} (isVBI : VBI field n)
    (isVBI' : VBI field' n') (same : field ++ rest = field' ++ rest') :
    field = field' ∧ n = n' := by
  have decoded := @vbiDecode_of_vbi field rest n isVBI (field.length + field'.length)
    (by omega) 1 0 0
  have decoded' := @vbiDecode_of_vbi field' rest' n' isVBI'
    (field.length + field'.length) (by omega)
    1 0 0
  rw [same, decoded'] at decoded
  simp only [Nat.zero_add, Nat.mul_one, Option.some.injEq, Prod.mk.injEq] at decoded
  exact ⟨(List.append_inj same decoded.1.2.symm).1, decoded.1.1.symm⟩

theorem delimited_will (mqttVersion : Nat) (flags : ConnectFlags) :
    Delimited (will mqttVersion flags) := by
  apply Delimited.andThen (delimited_isList.optional _)
  intro properties
  apply Delimited.andThen delimited_lenString
  intro topic
  apply Delimited.andThen delimited_lenString
  intro payload
  exact Delimited.ret

theorem unambiguous_connect (mqttVersion : Nat) : Unambiguous (connect mqttVersion) := by
  apply Unambiguous.andThen (delimited_constant _)
  intro _
  apply Unambiguous.andThen delimited_byte
  intro flagsByte
  apply Unambiguous.andThen delimited_twoBytes
  intro keepAlive
  apply Unambiguous.andThen (delimited_isList.optional _)
  intro properties
  apply Unambiguous.andThen delimited_lenString
  intro clientID
  apply Unambiguous.andThen ((delimited_will mqttVersion _).optional _)
  intro will
  apply Unambiguous.andThen (delimited_lenString.optional _)
  intro username
  apply Unambiguous.andThen (delimited_lenString.optional _)
  intro password
  exact Delimited.check.unambiguous

theorem delimited_subscription (mqttVersion : Nat) : Delimited (subscription mqttVersion) := by
  apply Delimited.andThen delimited_lenString
  intro topic
  apply Delimited.andThen delimited_byte
  intro options
  exact Delimited.check

theorem not_lenString_nil (data : Bytes) : ¬LenString [] data := by
  rintro ⟨⟩

theorem not_subscription_nil (mqttVersion : Nat) (fields : SubscriptionFields) :
    ¬subscription mqttVersion [] fields := by
  rintro ⟨front, rest, topic, empty, isTopic, -⟩
  rcases List.append_eq_nil_iff.mp empty.symm with ⟨rfl, -⟩
  exact not_lenString_nil topic isTopic

theorem unambiguous_topics {Topic : Type} {topic : Layout UInt8 Topic} (delimited : Delimited topic)
    (nonempty : ∀ value, ¬topic [] value) (mqttVersion : Nat) :
    Unambiguous (topics mqttVersion topic) := by
  apply Unambiguous.andThen delimited_twoBytes
  intro msgId
  apply Unambiguous.andThen (delimited_isList.optional _)
  intro properties
  constructor
  rintro symbols _ _ ⟨front, rest, values, rfl, many, rfl, rfl⟩
    ⟨front', rest', values', same, many', rfl, rfl⟩
  simp only [List.append_nil] at same
  subst same
  rw [(Unambiguous.many delimited nonempty).unique many many']

theorem unambiguous_disconnect (mqttVersion : Nat) : Unambiguous (Disconnect mqttVersion) := by
  constructor
  intro symbols value value' first second
  cases first with
  | early early =>
      cases second with
      | early => rfl
      | success five => exact absurd five (Nat.not_le_of_lt early)
  | success five =>
      cases second with
      | early early => exact absurd five (Nat.not_le_of_lt early)
      | success => rfl
  | reason five reason =>
      cases second with
      | reason => rfl
      | properties _ _ isList => exact absurd isList (not_isList_nil _)
  | @properties five reason part list isList =>
      cases second with
      | reason => exact absurd isList (not_isList_nil _)
      | properties _ _ isList' => rw [delimited_isList.unambiguous.unique isList isList']

end ClientLayout

/-! ## The packet around a body -/

section Exact

variable {Fields : Type} {outgoing : Outgoing} {type : Nat} {body : Layout UInt8 Fields}
  {fields : Fields}

/-- A packet whose length fits into four bytes. -/
theorem packet_iff {header : Header} {buffer : Bytes} (small : header.type < 16)
    (qos : header.qos < 4) (inRange : buffer.length < 268435456) {other : Header} :
    ClientLayout.packet header.type body (header.byte :: (encode buffer.length ++ buffer))
      (other, fields) ↔ other = header ∧ body buffer fields := by
  have isHeader := Header.ofByte_byte small qos
  constructor
  · rintro ⟨first, field, rest, same, rfl, _, isVBI, short, isBody⟩
    injection same with same same'
    subst same
    rcases ClientLayout.vbi_unique (vbi_encode buffer.length) isVBI same' with ⟨rfl, -⟩
    rw [← List.append_cancel_left same'] at isBody
    exact ⟨isHeader, isBody⟩
  · rintro ⟨rfl, isBody⟩
    have short : (encode buffer.length).length ≤ 4 := by
      rw [length_encode inRange]
      exact vbiLen_le _
    exact ⟨_, _, _, rfl, isHeader.symm, rfl, vbi_encode _, short, isBody⟩

/-- What is sent is read back when the length fits and the buffer is read back. -/
theorem Outgoing.exact_iff_readsBack (isType : outgoing.header.type = type) (small : type < 16)
    (qos : outgoing.header.qos < 4) :
    outgoing.Exact type body fields ↔
      outgoing.buffer.length = outgoing.len ∧ outgoing.len < 268435456 ∧
        ReadsBack body outgoing.buffer fields := by
  subst isType
  unfold Outgoing.Exact
  refine and_congr_right fun exact => ?_
  have sent : sends outgoing.header [⟨outgoing.buffer, outgoing.len⟩] =
      some (outgoing.header.byte :: (encode outgoing.buffer.length ++ outgoing.buffer)) := by
    rw [(sends_exact (by simpa [PacketBuffer.Exact] using exact.symm)).1]
    simp [totalLength, exact]
  rw [sent, ← exact]
  simp only [Option.some.injEq, exists_eq_left']
  constructor
  · intro readsBack
    have inRange : outgoing.buffer.length < 268435456 := by
      by_contra long
      rcases readsBack.stands with ⟨first, field, rest, same, _, _, isVBI, short, _⟩
      injection same with _ same
      rcases ClientLayout.vbi_unique (vbi_encode _) isVBI same with ⟨rfl, -⟩
      have five := le_length_encode (Nat.le_of_not_lt long)
      omega
    refine ⟨inRange, fun other => ?_⟩
    have whole := readsBack (outgoing.header, other)
    rw [packet_iff small qos inRange] at whole
    simpa using whole
  · rintro ⟨inRange, readsBack⟩ ⟨header, other⟩
    rw [packet_iff small qos inRange, readsBack other, Prod.mk.injEq]

end Exact

/-! ## Parts of the buffers -/

section Parts

variable {mqttVersion : Nat} {props : Option BuiltList}

theorem length_le_propertiesLen (props : BuiltList) :
    props.val.length ≤ propertiesLen (some props) :=
  Nat.le_add_right _ _

theorem length_writeProperties (inRange : propertiesLen props < 268435456) :
    (writeProperties props).length = propertiesLen props := by
  cases props with
  | none => simp [writeProperties, propertiesLen, encode_of_lt]
  | some props =>
      have shorter := length_le_propertiesLen props
      exact props.property.consistent.length_write (by omega)

theorem isList_writeProperties (inRange : propertiesLen props < 268435456) :
    IsList (writeProperties props) (props.elim .initializer (·.val)) := by
  have isList {list : PropertyList} (built : list.Built) (small : list.length < 268435456) :
      IsList list.write list := by
    have begins := built.consistent.beginsWithList small []
    rwa [List.append_nil] at begins
  cases props with
  | none =>
      have empty : PropertyList.initializer.write = encode 0 := List.append_nil _
      have begins := isList .initializer (by decide)
      rwa [empty] at begins
  | some props =>
      have shorter := length_le_propertiesLen props
      exact isList props.property (by omega)

theorem length_optionalProperties
    (inRange : mqttVersion5 ≤ mqttVersion → propertiesLen props < 268435456) :
    (if mqttVersion5 ≤ mqttVersion then writeProperties props else []).length =
      if mqttVersion5 ≤ mqttVersion then propertiesLen props else 0 := by
  split
  next five => exact length_writeProperties (inRange five)
  · rfl

/-- The properties of a packet, if it has any. -/
theorem optional_writeProperties
    (inRange : mqttVersion5 ≤ mqttVersion → propertiesLen props < 268435456) :
    optional (ClientLayout.isFive mqttVersion) IsList
      (if mqttVersion5 ≤ mqttVersion then writeProperties props else [])
      (sentProperties mqttVersion props) := by
  by_cases five : mqttVersion5 ≤ mqttVersion
  · simp only [ClientLayout.isFive, five, decide_true, if_true, sentProperties]
    exact optional_present (isList_writeProperties (inRange five))
  · simp only [ClientLayout.isFive, five, decide_false, if_false, sentProperties]
    exact optional_absent

theorem lenString_writeUTF (string : ShortString) : LenString (writeUTF string) string.val.bytes :=
  lenString_write (Nat.lt_succ_of_le string.property)

theorem lenString_writeData (data : ShortData) : LenString (writeData data.val) data.val :=
  lenString_write (Nat.lt_succ_of_le data.property)

theorem writeSigned_natCast (n : Nat) : writeSigned n = writeInt n := by
  have byte (m : Nat) : UInt8.ofInt m = UInt8.ofNat m := by
    apply UInt8.toNat_inj.mp
    simp only [UInt8.ofInt, UInt8.toNat_ofNat']
    omega
  have high : (n : Int).tdiv 256 = (n / 256 : Nat) := rfl
  have low : (n : Int).tmod 256 = (n % 256 : Nat) := rfl
  rw [writeSigned, writeInt, high, low, byte, byte]

theorem twoBytes_writeInt {n : Nat} (small : n ≤ 65535) : ClientLayout.twoBytes (writeInt n) n := by
  refine ⟨_, _, rfl, ?_⟩
  have high : (UInt8.ofNat (n / 256)).toNat = n / 256 := Nat.mod_eq_of_lt (by omega)
  have low : (UInt8.ofNat (n % 256)).toNat = n % 256 := Nat.mod_eq_of_lt (by omega)
  omega

end Parts

/-! ## CONNECT -/

namespace ConnectFlags

theorem ofByte_all {flags : ConnectFlags} (qos : flags.willQoS < 4) :
    ofByte flags.all = flags ∧ flags.all.toNat % 2 = 0 := by
  rcases flags with ⟨cleanstart, will, willQoS, willRetain, password, username⟩
  simp only at qos
  have qosBits : willQoS % 4 = willQoS := Nat.mod_eq_of_lt qos
  have c := Bool.toNat_le cleanstart
  have w := Bool.toNat_le will
  have r := Bool.toNat_le willRetain
  have p := Bool.toNat_le password
  have u := Bool.toNat_le username
  have toNat : (all ⟨cleanstart, will, willQoS, willRetain, password, username⟩).toNat =
      2 * cleanstart.toNat + 4 * will.toNat + 8 * willQoS + 32 * willRetain.toNat +
        64 * password.toNat + 128 * username.toNat := by
    simp only [all, qosBits]
    exact Nat.mod_eq_of_lt (by omega)
  have bit {n : Nat} {b : Bool} (same : n = b.toNat) : (n == 1) = b := by
    rw [same]
    cases b <;> rfl
  simp only [ofByte, toNat, ConnectFlags.mk.injEq]
  refine ⟨⟨bit ?_, bit ?_, ?_, bit ?_, bit ?_, bit ?_⟩, ?_⟩
  all_goals omega

end ConnectFlags

section Connect

variable {call : ConnectCall}

theorem writeProtocol_eq (known : call.mqttVersion = mqttVersion31 ∨
    call.mqttVersion = mqttVersion311 ∨ call.mqttVersion = mqttVersion5) :
    writeProtocol call.mqttVersion = ClientLayout.protocol call.mqttVersion := by
  rcases known with version | version | version
  all_goals
    rw [version]
    rfl

theorem propertiesLen_le_connectLen (five : mqttVersion5 ≤ call.mqttVersion) :
    propertiesLen call.connectProperties ≤ connectLen call ∧
      (call.will.isSome → propertiesLen call.willProperties ≤ connectLen call) := by
  unfold connectLen
  rw [if_pos five]
  constructor
  · omega
  · intro present
    rw [if_pos present]
    omega

theorem length_connectBuffer (fits : connectLen call < 268435456) :
    (sendConnect call).buffer.length = connectLen call := by
  have protocol : (writeProtocol call.mqttVersion).length =
      if call.mqttVersion = mqttVersion31 then 9 else 7 := by
    unfold writeProtocol
    split <;> rfl
  have front := length_optionalProperties fun five =>
    Nat.lt_of_le_of_lt (propertiesLen_le_connectLen five).1 fits
  have will : (call.will.elim [] (writeWill call)).length =
      call.will.elim 0 (fun will => will.topic.val.bytes.length + 2 +
        (will.payload.val.length + 2)) +
        if mqttVersion5 ≤ call.mqttVersion then
          if call.will.isSome then propertiesLen call.willProperties else 0
        else 0 := by
    cases isWill : call.will with
    | none => simp
    | some will =>
        have back := length_optionalProperties fun five => Nat.lt_of_le_of_lt
          ((propertiesLen_le_connectLen five).2 (by rw [isWill]; rfl)) fits
        simp only [Option.elim_some, writeWill, writeUTF, writeData, writeInt,
          List.length_append, back,
          List.length_cons, List.length_nil, Option.isSome_some, if_true]
        omega
  have username : (call.username.elim [] writeUTF).length =
      call.username.elim 0 (fun username => username.val.bytes.length + 2) := by
    cases call.username with
    | none => rfl
    | some username => simp [writeUTF, writeInt]
  have password : (call.password.elim [] fun password => writeData password.val).length =
      call.password.elim 0 (fun password => password.val.length + 2) := by
    cases call.password with
    | none => rfl
    | some password => simp [writeData, writeInt]
  simp only [sendConnect, List.length_append, protocol, front, will, username,
    password, writeSigned,
    writeUTF, writeInt, List.length_cons, List.length_nil, connectLen]
  split
  · split <;> omega
  · split <;> omega

/-- The two values of the CONNECT that are written into fewer bits than they have. -/
structure ConnectCall.InRange (call : ConnectCall) : Prop where
  keepAlive : 0 ≤ call.keepAliveInterval ∧ call.keepAliveInterval < 65536
  retained : ∀ will, call.will = some will → will.retained = 0 ∨ will.retained = 1

/-- The bits of the flags byte are those of the call. -/
theorem ofByte_connectFlags (call : ConnectCall) :
    ConnectFlags.ofByte (connectFlags call).all = connectFlags call ∧
      (connectFlags call).all.toNat % 2 = 0 := by
  apply ConnectFlags.ofByte_all
  unfold connectFlags
  cases call.will with
  | none => exact Nat.zero_lt_succ 3
  | some will => exact Nat.lt_of_le_of_lt will.qos_le (by decide)

theorem will_written (fits : connectLen call < 268435456) (inRange : call.InRange)
    {message : WillMessages} (isMessage : call.will = some message) :
    ClientLayout.will call.mqttVersion (connectFlags call) (writeWill call message)
      { qos := message.qos
        retained := message.retained
        properties := sentProperties call.mqttVersion call.willProperties
        topic := message.topic.val.bytes
        payload := message.payload.val } := by
  have properties := @optional_writeProperties call.mqttVersion call.willProperties fun five =>
    Nat.lt_of_le_of_lt ((propertiesLen_le_connectLen five).2 (by rw [isMessage]; rfl)) fits
  apply andThen_intro properties
  apply andThen_intro (lenString_writeUTF message.topic)
  apply andThen_ret (lenString_writeData message.payload)
  refine ⟨rfl, ?_⟩
  simp only [connectFlags, isMessage, Option.elim_some]
  rcases inRange.retained message isMessage with retained | retained
  · simp [retained]
  · simp [retained]

theorem connect_written (fits : connectLen call < 268435456) (inRange : call.InRange) :
    ClientLayout.connect call.mqttVersion (sendConnect call).buffer call.fields := by
  rcases ofByte_connectFlags call with ⟨bits, even⟩
  rcases inRange.keepAlive with ⟨nonneg, small⟩
  rcases Int.eq_ofNat_of_zero_le nonneg with ⟨interval, isInterval⟩
  have protocol : ClientLayout.constant (ClientLayout.protocol call.mqttVersion)
      (writeProtocol call.mqttVersion) () := writeProtocol_eq call.known
  have flags : ClientLayout.byte [(connectFlags call).all] (connectFlags call).all := rfl
  have keepAlive : ClientLayout.twoBytes (writeSigned call.keepAliveInterval) interval := by
    rw [isInterval, writeSigned_natCast]
    exact twoBytes_writeInt (by omega)
  have properties := @optional_writeProperties call.mqttVersion call.connectProperties fun five =>
    Nat.lt_of_le_of_lt (propertiesLen_le_connectLen five).1 fits
  have will := optional_of_option fun message isMessage => will_written fits inRange isMessage
  have username : optional call.username.isSome LenString (call.username.elim [] writeUTF)
      (call.username.map (·.val.bytes)) := optional_of_option fun string _ =>
        lenString_writeUTF string
  have password : optional call.password.isSome LenString
      (call.password.elim [] fun password => writeData password.val) (call.password.map (·.val)) :=
    optional_of_option fun data _ => lenString_writeData data
  apply andThen_intro protocol
  apply andThen_intro flags
  apply andThen_intro keepAlive
  apply andThen_intro properties
  apply andThen_intro (lenString_writeUTF call.clientID)
  simp only [bits]
  apply andThen_intro will
  apply andThen_intro username
  apply andThen_ret password
  refine ⟨⟨even, ?_⟩, rfl, ?_⟩
  · intro absent
    have noWill : call.will = none := Option.isSome_eq_false_iff.mp absent |>
      Option.isNone_iff_eq_none.mp
    simp [connectFlags, noWill]
  · simp only [ConnectCall.fields, isInterval, connectFlags]

theorem inRange_of_connect {symbols : Bytes}
    (isConnect : ClientLayout.connect call.mqttVersion symbols call.fields) : call.InRange := by
  rcases isConnect with ⟨_, _, _, _, _, _, _, flagsByte, _, _, _, _, keepAlive, _,
    ⟨first, second, _, isKeepAlive⟩, _, _, properties, _, _, _, _, clientID, _, _, _, _, will, _,
    isWill, _, _, username, _, _, _, _, password, _, _, _, _, same⟩
  injection same with _ sameKeepAlive _ _ sameWill _ _
  constructor
  · have high := first.toNat_lt
    have low := second.toNat_lt
    have interval : call.keepAliveInterval = keepAlive := sameKeepAlive
    omega
  · intro message isMessage
    have isFields := sameWill
    rw [isMessage] at isFields
    rw [← isFields] at isWill
    rcases optional_eq_some isWill with ⟨_, _, _, _, _, _, _, _, _, _, _, _, _, _, _, _, same⟩
    injection same with _ sameRetained _ _ _
    rw [sameRetained]
    cases (ConnectFlags.ofByte flagsByte).willRetain <;> simp

theorem connect_exact_iff (call : ConnectCall) :
    (sendConnect call).Exact connectType (ClientLayout.connect call.mqttVersion) call.fields ↔
      connectLen call < 268435456 ∧ call.InRange := by
  have isType : (sendConnect call).header.type = connectType := rfl
  rw [Outgoing.exact_iff_readsBack isType (by decide) (show 0 < 4 by decide),
    (ClientLayout.unambiguous_connect _).readsBack_iff]
  constructor
  · rintro ⟨_, fits, isConnect⟩
    exact ⟨fits, inRange_of_connect isConnect⟩
  · rintro ⟨fits, inRange⟩
    exact ⟨length_connectBuffer fits, fits, connect_written fits inRange⟩

end Connect

/-! ## SUBSCRIBE and UNSUBSCRIBE -/

section Topics

/-- Items that have a size and so many bytes more. -/
theorem length_flatMap_write {Item : Type} {write : Item → Bytes} {size : Item → Nat} {more : Nat}
    (each : ∀ item, (write item).length = size item + more) (items : List Item) :
    (items.flatMap write).length = items.length * more + (items.map size).sum := by
  induction items with
  | nil => simp
  | cons item items ih =>
      rw [List.flatMap_cons, List.length_append, each, ih, List.map_cons, List.sum_cons,
        List.length_cons, Nat.succ_mul]
      omega

variable {mqttVersion msgid : Nat} {props : Option BuiltList} {written : Bytes}
  (fits : mqttVersion5 ≤ mqttVersion → propertiesLen props < 268435456)

include fits

theorem length_topicsBuffer {n : Nat} (length : written.length = n) :
    (writeInt msgid ++
      ((if mqttVersion5 ≤ mqttVersion then writeProperties props else []) ++ written)).length =
        2 + n + if mqttVersion5 ≤ mqttVersion then propertiesLen props else 0 := by
  simp only [List.length_append, length_optionalProperties fits, length, writeInt, List.length_cons,
    List.length_nil]
  omega

/-- The buffer of a packet with topics. -/
theorem topics_written {Topic : Type} {topic : Layout UInt8 Topic} {values : List Topic}
    (small : msgid ≤ 65535) (many : Many topic written values) :
    ClientLayout.topics mqttVersion topic
      (writeInt msgid ++
        ((if mqttVersion5 ≤ mqttVersion then writeProperties props else []) ++ written))
      ⟨msgid, sentProperties mqttVersion props, values⟩ := by
  apply andThen_intro (twoBytes_writeInt small)
  apply andThen_intro (optional_writeProperties fits)
  exact andThen_ret many ⟨rfl, rfl⟩

end Topics

/-- The options have the values that their bits have room for. -/
structure MQTTSubscribeOptions.InRange (opts : MQTTSubscribeOptions) : Prop where
  noLocal : opts.noLocal.toNat ≤ 1
  retainAsPublished : opts.retainAsPublished.toNat ≤ 1
  retainHandling : opts.retainHandling.toNat ≤ 3

section Subscribe

variable {call : SubscribeCall} {qos : Nat} {opts : MQTTSubscribeOptions}

theorem toNat_subopts (qos_le : qos ≤ 2) (inRange : opts.InRange) :
    (subopts qos (some opts)).toNat = qos + 4 * opts.noLocal.toNat +
      8 * opts.retainAsPublished.toNat + 16 * opts.retainHandling.toNat := by
  have all : ∀ (q : Fin 3) (noLocal published : Fin 2) (handling : Fin 4),
      (UInt8.ofNat q ||| UInt8.ofNat noLocal <<< 2 ||| UInt8.ofNat published <<< 3 |||
        UInt8.ofNat handling <<< 4).toNat = q + 4 * noLocal + 8 * published + 16 * handling := by
    decide
  rcases inRange with ⟨noLocal, published, handling⟩
  have this := all ⟨qos, by omega⟩ ⟨opts.noLocal.toNat, by omega⟩
    ⟨opts.retainAsPublished.toNat, by omega⟩ ⟨opts.retainHandling.toNat, by omega⟩
  simpa [subopts] using this

/-- The options of the topics have the values that their bits have room for. -/
def SubscribeCall.InRange (call : SubscribeCall) : Prop :=
  ∀ i < call.topics.length, ∀ opts, topicOpts call i = some opts → opts.InRange

theorem propertiesLen_le_subscribeLen (fits : (sendSubscribe call).len < 268435456)
    (five : mqttVersion5 ≤ call.mqttVersion) : propertiesLen call.props < 268435456 := by
  simp only [sendSubscribe, if_pos five] at fits
  omega

theorem length_subscribeBuffer (fits : (sendSubscribe call).len < 268435456) :
    (sendSubscribe call).buffer.length = (sendSubscribe call).len := by
  have topics := @length_flatMap_write (TopicAndQoS × Nat)
    (fun entry => writeUTF entry.1.topic ++ [subopts entry.1.qos (topicOpts call entry.2)])
    (fun entry => entry.1.topic.val.bytes.length) 3
    (by simp [writeUTF, writeInt]) call.topics.zipIdx
  have sizes : call.topics.zipIdx.map (fun entry => entry.1.topic.val.bytes.length) =
      call.topics.map (·.topic.val.bytes.length) := by
    conv => rhs; rw [← List.zipIdx_map_fst 0 call.topics, List.map_map]
    rfl
  rw [sizes, List.length_zipIdx] at topics
  have whole := @length_topicsBuffer _ call.msgid _ _
    (fun five => propertiesLen_le_subscribeLen fits five) _ topics
  simp only [sendSubscribe, Nat.add_assoc] at whole ⊢
  exact whole

theorem subscription_written {topic : TopicAndQoS} {i : Nat}
    (inRange : ∀ opts, topicOpts call i = some opts → opts.InRange) :
    ClientLayout.subscription call.mqttVersion
      (writeUTF topic.topic ++ [subopts topic.qos (topicOpts call i)])
      (call.subscription (topic, i)) := by
  have qos_le := topic.qos_le
  have options : ClientLayout.byte [subopts topic.qos (topicOpts call i)]
      (subopts topic.qos (topicOpts call i)) := rfl
  apply andThen_intro (lenString_writeUTF topic.topic)
  apply andThen_ret options
  cases isOpts : topicOpts call i with
  | none =>
      have bits : (subopts topic.qos none).toNat = topic.qos := Nat.mod_eq_of_lt (by omega)
      refine ⟨?_, rfl, ?_⟩
      · rw [bits]
        split <;> omega
      · simp only [SubscribeCall.subscription, isOpts, bits, Option.elim_none,
          SubscriptionFields.mk.injEq, true_and]
        omega
  | some opts =>
      have small := inRange opts isOpts
      have bits := toNat_subopts qos_le small
      rcases small with ⟨noLocal, published, handling⟩
      have five : mqttVersion5 ≤ call.mqttVersion := by
        by_contra early
        simp [topicOpts, early] at isOpts
      refine ⟨?_, rfl, ?_⟩
      · rw [bits, if_pos five]
        omega
      · simp only [SubscribeCall.subscription, isOpts, bits, Option.elim_some,
          SubscriptionFields.mk.injEq, true_and]
        omega

theorem inRange_of_subscribe {symbols : Bytes}
    (isSubscribe : ClientLayout.topics call.mqttVersion (ClientLayout.subscription call.mqttVersion)
      symbols call.fields) : call.InRange := by
  rcases isSubscribe with ⟨_, _, _, _, _, _, _, _, _, _, _, _, values, _, many, _, same⟩
  injection same with _ _ sameTopics
  intro i inside opts isOpts
  have member : (call.topics[i], i) ∈ call.topics.zipIdx := by
    simp [List.mem_zipIdx_iff_getElem?, inside]
  have five : mqttVersion5 ≤ call.mqttVersion := by
    by_contra early
    simp [topicOpts, early] at isOpts
  have isValue : call.subscription (call.topics[i], i) ∈ values :=
    sameTopics ▸ List.mem_map_of_mem member
  rcases many.forall _ isValue with ⟨_, _, _, _, _, _, _, _, options, _, _, small, _, isFields⟩
  injection isFields with _ _ noLocal published handling
  simp only [isOpts, Option.elim_some, if_pos five] at noLocal published handling small
  exact ⟨by omega, by omega, by omega⟩

theorem subscribe_exact_iff (call : SubscribeCall) :
    (sendSubscribe call).Exact subscribeType
        (ClientLayout.topics call.mqttVersion (ClientLayout.subscription call.mqttVersion))
        call.fields ↔
      (sendSubscribe call).len < 268435456 ∧ call.InRange := by
  have isType : (sendSubscribe call).header.type = subscribeType := rfl
  have unambiguous := ClientLayout.unambiguous_topics
    (ClientLayout.delimited_subscription call.mqttVersion)
    (ClientLayout.not_subscription_nil call.mqttVersion) call.mqttVersion
  rw [Outgoing.exact_iff_readsBack isType (by decide) (show 1 < 4 by decide),
    unambiguous.readsBack_iff]
  constructor
  · rintro ⟨_, fits, isSubscribe⟩
    exact ⟨fits, inRange_of_subscribe isSubscribe⟩
  · rintro ⟨fits, inRange⟩
    refine ⟨length_subscribeBuffer fits, fits, ?_⟩
    apply topics_written (fun five => propertiesLen_le_subscribeLen fits five) call.msgid_le
    apply Many.of_map
    rintro ⟨topic, i⟩ member
    apply subscription_written
    exact inRange i (List.mem_zipIdx' member).1

end Subscribe

section Unsubscribe

variable {call : UnsubscribeCall}

theorem propertiesLen_le_unsubscribeLen (fits : (sendUnsubscribe call).len < 268435456)
    (five : mqttVersion5 ≤ call.mqttVersion) : propertiesLen call.props < 268435456 := by
  simp only [sendUnsubscribe, if_pos five] at fits
  omega

theorem length_unsubscribeBuffer (fits : (sendUnsubscribe call).len < 268435456) :
    (sendUnsubscribe call).buffer.length = (sendUnsubscribe call).len := by
  have size (string : ShortString) : (writeUTF string).length = string.val.bytes.length + 2 := by
    simp [writeUTF, writeInt]
  have topics := length_flatMap_write size call.topics
  have whole := @length_topicsBuffer _ call.msgid _ _
    (fun five => propertiesLen_le_unsubscribeLen fits five) _ topics
  simp only [sendUnsubscribe, Nat.add_assoc] at whole ⊢
  exact whole

theorem unsubscribe_exact_iff (call : UnsubscribeCall) :
    (sendUnsubscribe call).Exact unsubscribeType
        (ClientLayout.topics call.mqttVersion LenString) call.fields ↔
      (sendUnsubscribe call).len < 268435456 := by
  have isType : (sendUnsubscribe call).header.type = unsubscribeType := rfl
  have unambiguous := ClientLayout.unambiguous_topics ClientLayout.delimited_lenString
    ClientLayout.not_lenString_nil call.mqttVersion
  rw [Outgoing.exact_iff_readsBack isType (by decide) (show 1 < 4 by decide),
    unambiguous.readsBack_iff]
  constructor
  · exact fun exact => exact.2.1
  · intro fits
    refine ⟨length_unsubscribeBuffer fits, fits, ?_⟩
    apply topics_written (fun five => propertiesLen_le_unsubscribeLen fits five) call.msgid_le
    apply Many.of_map
    exact fun topic _ => lenString_writeUTF topic

end Unsubscribe

/-! ## DISCONNECT -/

section Disconnect

variable {call : DisconnectCall}

theorem header_sendDisconnect (call : DisconnectCall) :
    (sendDisconnect call).header = ⟨disconnectType, false, 0, false⟩ := by
  unfold sendDisconnect
  split <;> rfl

theorem disconnect_written (fits : (sendDisconnect call).len < 268435456) :
    (sendDisconnect call).buffer.length = (sendDisconnect call).len ∧
      ClientLayout.Disconnect call.mqttVersion (sendDisconnect call).buffer call.fields := by
  unfold sendDisconnect DisconnectCall.fields at *
  by_cases five : mqttVersion5 ≤ call.mqttVersion
  · rw [if_pos five]
    cases isProps : call.props with
    | some props =>
        have present : mqttVersion5 ≤ call.mqttVersion ∧ ((some props).isSome ∨ call.reason ≠ 0) :=
          ⟨five, .inl rfl⟩
        simp only [isProps, if_pos present, Option.elim_some] at fits ⊢
        have small : propertiesLen (some props) < 268435456 := by
          simp only [propertiesLen]
          omega
        have length : props.val.write.length = props.val.len := length_writeProperties small
        have isList : IsList props.val.write props.val := isList_writeProperties small
        constructor
        · rw [List.length_append, length]
          rfl
        · exact .properties five call.reason isList
    | none =>
        by_cases success : call.reason = 0
        · simp only [success, ne_eq, not_true, Option.isSome_none, Bool.false_eq_true, or_self,
            and_false, if_false]
          exact ⟨rfl, .success five⟩
        · simp only [success, five, ne_eq, not_false_eq_true, or_true, and_self, if_true]
          exact ⟨rfl, .reason five call.reason⟩
  · simp only [five, false_and, if_false]
    exact ⟨rfl, .early (Nat.lt_of_not_le five)⟩

theorem disconnect_exact_iff (call : DisconnectCall) :
    (sendDisconnect call).Exact disconnectType
    (ClientLayout.Disconnect call.mqttVersion) call.fields ↔
      (sendDisconnect call).len < 268435456 := by
  have header := header_sendDisconnect call
  rw [Outgoing.exact_iff_readsBack (congrArg Header.type header) (by decide)
    (by rw [header]; exact Nat.zero_lt_succ 3),
    (ClientLayout.unambiguous_disconnect _).readsBack_iff]
  constructor
  · exact fun exact => exact.2.1
  · intro fits
    rcases disconnect_written fits with ⟨length, isDisconnect⟩
    exact ⟨length, fits, isDisconnect⟩

end Disconnect

/-! ## All of them -/

/--
**Buffers that are filled exactly**

The buffers of CONNECT, SUBSCRIBE, UNSUBSCRIBE and DISCONNECT packets are filled exactly, and what
is sent is read back by the layout of the packet, exactly when the length is below 2^28, the keep
alive interval fits into two bytes, and the retain flag of the will and the options of the
subscriptions fit into their bits.
-/
theorem buffers_exact_iff (connect : ConnectCall) (subscribe : SubscribeCall)
    (unsubscribe : UnsubscribeCall) (disconnect : DisconnectCall) :
    ((sendConnect connect).Exact connectType (ClientLayout.connect connect.mqttVersion)
        connect.fields ↔
      (sendConnect connect).len < 268435456 ∧ connect.InRange) ∧
    ((sendSubscribe subscribe).Exact subscribeType
        (ClientLayout.topics subscribe.mqttVersion
          (ClientLayout.subscription subscribe.mqttVersion))
        subscribe.fields ↔
      (sendSubscribe subscribe).len < 268435456 ∧ subscribe.InRange) ∧
    ((sendUnsubscribe unsubscribe).Exact unsubscribeType
        (ClientLayout.topics unsubscribe.mqttVersion LenString) unsubscribe.fields ↔
      (sendUnsubscribe unsubscribe).len < 268435456) ∧
    ((sendDisconnect disconnect).Exact disconnectType
      (ClientLayout.Disconnect disconnect.mqttVersion)
        disconnect.fields ↔
      (sendDisconnect disconnect).len < 268435456) :=
  ⟨connect_exact_iff connect, subscribe_exact_iff subscribe, unsubscribe_exact_iff unsubscribe,
    disconnect_exact_iff disconnect⟩

theorem noZero_letter : ∀ byte ∈ ([97] : Bytes), byte ≠ 0 := by
  simp

/-- A CONNECT of MQTT 3.1.1 with a keep alive interval that is one too long. -/
def longKeepAlive : ConnectCall where
  clientID := ⟨⟨[97], noZero_letter⟩, by simp⟩
  username := none
  password := none
  cleansession := true
  cleanstart := false
  keepAliveInterval := 65536
  will := none
  mqttVersion := mqttVersion311
  known := .inr (.inl rfl)
  connectProperties := none
  willProperties := none

/-- A SUBSCRIBE of MQTT 5 with 2 for the option of one bit. -/
def twoForNoLocal : SubscribeCall where
  topics := [⟨⟨⟨[97], noZero_letter⟩, by simp⟩, 0, by decide⟩]
  opts := some fun _ => { MQTTSubscribeOptions.initializer with noLocal := 2 }
  props := none
  msgid := 1
  msgid_le := by decide
  dup := false
  mqttVersion := mqttVersion5

/-- The keep alive interval is written as 0, and the option into the bit of the next one. -/
theorem buffers_not_exact :
    ((sendConnect longKeepAlive).buffer = [0, 4, 77, 81, 84, 84, 4, 2, 0, 0, 0, 1, 97] ∧
      ¬(sendConnect longKeepAlive).Exact connectType (ClientLayout.connect mqttVersion311)
        longKeepAlive.fields) ∧
    (sendSubscribe twoForNoLocal).buffer = [0, 1, 0, 0, 1, 97, 8] ∧
      ¬(sendSubscribe twoForNoLocal).Exact subscribeType
        (ClientLayout.topics mqttVersion5 (ClientLayout.subscription mqttVersion5))
        twoForNoLocal.fields := by
  constructor
  · refine ⟨rfl, fun exact => ?_⟩
    have inRange := ((connect_exact_iff longKeepAlive).mp exact).2
    exact absurd inRange.keepAlive.2 (by decide)
  · constructor
    · have empty : writeProperties none = [0] := encode_of_lt (by decide)
      simp only [sendSubscribe, twoForNoLocal, Nat.le_refl, if_true, empty]
      rfl
    · intro exact
      have inRange := ((subscribe_exact_iff twoForNoLocal).mp exact).2
      exact absurd (inRange 0 (by decide) _ rfl).noLocal (by decide)

end Paho
