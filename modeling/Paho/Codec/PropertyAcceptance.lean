import Paho.Codec.PropertyGrammar

/-!
# Which property lists are accepted

The reader takes items until their lengths add up to the announced length, modulo 2^32. It follows
the grammar unless it comes to bytes that are cut off before that, or the items add up with a field
of a length that the grammar does not have.
-/

namespace Paho

open BoundedReader PropertyReader

/-- The items that the reader takes one after the other, with their lengths. -/
inductive Walk : Bytes → List (MQTTProperty × Nat) → Bytes → Prop
  | nil (bytes : Bytes) : Walk bytes [] bytes
  | cons {bytes rest : Bytes} {prop : MQTTProperty} {n : Nat} {items : List (MQTTProperty × Nat)}
      (item : Item bytes prop n) (walk : Walk (bytes.drop n) items rest) :
      Walk bytes ((prop, n) :: items) rest

/-- The number of bytes of some items. -/
def total (items : List (MQTTProperty × Nat)) : Nat :=
  (items.map Prod.snd).sum

/-- The length has not come out, neither before nor after these items. -/
def GoesOn (remlength : Nat) (items : List (MQTTProperty × Nat)) : Prop :=
  ∀ front, front <+: items → total front % 4294967296 ≠ remlength

/-- The length comes out after these items, and not before. -/
def Stops (remlength : Nat) (items : List (MQTTProperty × Nat)) : Prop :=
  total items % 4294967296 = remlength ∧
    ∀ front, front <+: items → front ≠ items → total front % 4294967296 ≠ remlength

/-- The bytes begin with the announcement of a length: a field of at most four bytes that ends, or
four bytes that continue, which are taken for five. -/
inductive Announces (bytes : Bytes) : Nat → Nat → Prop
  | field {field rest : Bytes} {length : Nat} (split : bytes = field ++ rest)
      (isVBI : VBI field length) (short : field.length ≤ 4) : Announces bytes length field.length
  | overlong {field rest : Bytes} (split : bytes = field ++ rest) (overlong : Overlong field) :
      Announces bytes (lowerBits field) 5

/-- The buffer ends within the announcement of the length, or, before the length has come out,
where a property should begin or within a number. -/
def RunsOff (bytes : Bytes) : Prop :=
  (bytes ≠ [] ∧ Continue bytes ∧ bytes.length < 4) ∨
    ∃ length n items rest, Announces bytes length n ∧ Walk (bytes.drop n) items rest ∧
      GoesOn length items ∧ CutShort rest

/-- The length comes out, but was announced by five bytes, or with a variable byte integer of five
bytes among the items, or with 2^32 bytes too many. -/
def AddsUpWrongly (bytes : Bytes) : Prop :=
  ∃ length n items rest, Announces bytes length n ∧ Walk (bytes.drop n) items rest ∧
    Stops length items ∧
      (n = 5 ∨ (∃ item ∈ items, item.1.identifier = 11 ∧ item.2 = 6) ∨ total items ≠ length)

section Totals

variable {remlength n : Nat} {prop : MQTTProperty} {items : List (MQTTProperty × Nat)}

theorem total_cons (prop : MQTTProperty) (n : Nat) (items : List (MQTTProperty × Nat)) :
    total ((prop, n) :: items) = n + total items := by
  simp [total]

theorem goesOn_nil : GoesOn remlength [] ↔ remlength ≠ 0 := by
  constructor
  · intro goesOn isZero
    exact goesOn [] List.prefix_rfl (by simp [total, isZero])
  · intro positive front isPrefix
    rw [List.prefix_nil.mp isPrefix]
    simpa [total] using positive.symm

theorem stops_nil : Stops remlength [] ↔ remlength = 0 := by
  constructor
  · rintro ⟨out, -⟩
    simpa [total] using out.symm
  · rintro rfl
    exact ⟨rfl, fun front isPrefix differ => absurd (List.prefix_nil.mp isPrefix) differ⟩

/-- What is left of the length after an item. -/
theorem left_iff {length : Nat} (inRange : remlength < 4294967296) (short : n < 4294967296) :
    length % 4294967296 = (remlength + 4294967296 - n) % 4294967296 ↔
      (n + length) % 4294967296 = remlength := by
  omega

theorem goesOn_cons (inRange : remlength < 4294967296) (short : n < 4294967296) :
    GoesOn remlength ((prop, n) :: items) ↔
      remlength ≠ 0 ∧ GoesOn ((remlength + 4294967296 - n) % 4294967296) items := by
  constructor
  · intro goesOn
    refine ⟨fun isZero => goesOn [] List.nil_prefix (by simp [total, isZero]), ?_⟩
    intro front isPrefix out
    apply goesOn ((prop, n) :: front) ((List.prefix_cons_inj _).mpr isPrefix)
    rw [total_cons]
    exact (left_iff inRange short).mp out
  · rintro ⟨positive, goesOn⟩ front isPrefix out
    rcases List.prefix_cons_iff.mp isPrefix with rfl | ⟨front, rfl, within⟩
    · exact positive (by simpa [total] using out.symm)
    · rw [total_cons] at out
      exact goesOn front within ((left_iff inRange short).mpr out)

theorem stops_cons (inRange : remlength < 4294967296) (short : n < 4294967296) :
    Stops remlength ((prop, n) :: items) ↔
      remlength ≠ 0 ∧ Stops ((remlength + 4294967296 - n) % 4294967296) items := by
  constructor
  · rintro ⟨out, before⟩
    refine ⟨fun isZero => before [] List.nil_prefix (by simp) (by simp [total, isZero]), ?_, ?_⟩
    · rw [total_cons] at out
      exact (left_iff inRange short).mpr out
    · intro front isPrefix differ early
      apply before ((prop, n) :: front) ((List.prefix_cons_inj _).mpr isPrefix)
        (by simpa using differ)
      rw [total_cons]
      exact (left_iff inRange short).mp early
  · rintro ⟨positive, out, before⟩
    constructor
    · rw [total_cons]
      exact (left_iff inRange short).mp out
    · intro front isPrefix differ early
      rcases List.prefix_cons_iff.mp isPrefix with rfl | ⟨front, rfl, within⟩
      · exact positive (by simpa [total] using early.symm)
      · rw [total_cons] at early
        exact before front within (by simpa using differ) ((left_iff inRange short).mpr early)

end Totals

section Loop

variable {rounds remlength : Nat} {bytes : Bytes}

theorem readLoop_item {prop : MQTTProperty} {n : Nat} (positive : remlength ≠ 0)
    (item : Item bytes prop n) :
    readLoop (rounds + 1) remlength bytes =
      (readLoop rounds ((remlength + 4294967296 - n) % 4294967296) (bytes.drop n)).map
        fun reading => (reading.map (prop :: ·)).advance n := by
  rw [readLoop, if_neg positive, read_item item]

theorem shorter_of_item {prop : MQTTProperty} {n : Nat} (item : Item bytes prop n)
    (enough : bytes.length < rounds + 1) : (bytes.drop n).length < rounds := by
  rcases item_bounds item with ⟨nonempty, positive, -⟩
  have := List.length_pos_of_ne_nil nonempty
  rw [List.length_drop]
  omega

/-- The loop comes to an end. -/
theorem readLoop_isSome (enough : bytes.length < rounds) :
    (readLoop rounds remlength bytes).isSome := by
  induction rounds generalizing remlength bytes with
  | zero => cases enough
  | succ rounds ih =>
      by_cases isZero : remlength = 0
      · simp [readLoop, isZero]
      · rcases read_cases bytes with ⟨prop, n, item⟩ | ⟨n, fails⟩ | cutShort
        · rw [readLoop_item isZero item, Option.isSome_map]
          exact ih (shorter_of_item item enough)
        · simp [readLoop, isZero, fails]
        · simp [readLoop, isZero, read_cutShort cutShort]

/-- The loop reads past the end exactly when the bytes are cut off before the length comes out. -/
theorem readLoop_overrun (inRange : remlength < 4294967296) (enough : bytes.length < rounds) :
    readLoop rounds remlength bytes = some .overrun ↔
      ∃ items rest, Walk bytes items rest ∧ GoesOn remlength items ∧ CutShort rest := by
  induction rounds generalizing remlength bytes with
  | zero => cases enough
  | succ rounds ih =>
      by_cases isZero : remlength = 0
      · subst isZero
        simp only [readLoop, if_true, Option.some.injEq, reduceCtorEq, false_iff]
        rintro ⟨items, rest, -, goesOn, -⟩
        exact goesOn [] List.nil_prefix rfl
      · rcases read_cases bytes with ⟨prop, n, item⟩ | ⟨n, fails⟩ | cutShort
        · have short := (item_bounds item).2.2
          rw [readLoop_item isZero item, Option.map_eq_some_iff]
          simp only [BoundedReading.advance_eq_overrun, BoundedReading.map_eq_overrun,
            exists_eq_right,
            ih (Nat.mod_lt _ (by decide)) (shorter_of_item item enough)]
          constructor
          · rintro ⟨items, rest, walk, goesOn, cutShort⟩
            exact ⟨_, rest, .cons item walk,
              (goesOn_cons inRange short).mpr ⟨isZero, goesOn⟩, cutShort⟩
          · rintro ⟨items, rest, walk, goesOn, cutShort⟩
            cases walk with
            | nil => cases (read_item item).symm.trans (read_cutShort cutShort)
            | cons other walk =>
                rcases item_unique item other with ⟨rfl, rfl⟩
                exact ⟨_, rest, walk, ((goesOn_cons inRange short).mp goesOn).2, cutShort⟩
        · simp only [readLoop, isZero, if_false, fails, Option.some.injEq, reduceCtorEq, false_iff]
          rintro ⟨items, rest, walk, goesOn, cutShort⟩
          cases walk with
          | nil => cases fails.symm.trans (read_cutShort cutShort)
          | cons item walk => cases fails.symm.trans (read_item item)
        · simp only [readLoop, isZero, if_false, read_cutShort cutShort, true_iff]
          exact ⟨[], bytes, .nil bytes, goesOn_nil.mpr isZero, cutShort⟩

/-- The loop succeeds exactly when the length comes out. -/
theorem readLoop_taken (inRange : remlength < 4294967296) (enough : bytes.length < rounds)
    {props : MQTTProperties} {n : Nat} :
    readLoop rounds remlength bytes = some (.taken props n) ↔
      ∃ items rest, Walk bytes items rest ∧ Stops remlength items ∧ props = items.map Prod.fst ∧
        n = total items := by
  induction rounds generalizing remlength bytes props n with
  | zero => cases enough
  | succ rounds ih =>
      by_cases isZero : remlength = 0
      · subst isZero
        simp only [readLoop, if_true, Option.some.injEq, BoundedReading.taken.injEq]
        constructor
        · rintro ⟨rfl, rfl⟩
          exact ⟨[], bytes, .nil bytes, stops_nil.mpr rfl, rfl, rfl⟩
        · rintro ⟨items, rest, -, ⟨-, before⟩, rfl, rfl⟩
          have empty : items = [] := by
            by_contra nonempty
            exact before [] List.nil_prefix (Ne.symm nonempty) rfl
          subst empty
          exact ⟨rfl, rfl⟩
      · rcases read_cases bytes with ⟨prop, len, item⟩ | ⟨len, fails⟩ | cutShort
        · have short := (item_bounds item).2.2
          rw [readLoop_item isZero item, Option.map_eq_some_iff]
          simp only [BoundedReading.advance_eq_taken, BoundedReading.map_eq_taken]
          constructor
          · rintro ⟨_, loop, k, ⟨before, rfl, rfl⟩, rfl⟩
            rcases (ih (Nat.mod_lt _ (by decide)) (shorter_of_item item enough)).mp loop with
              ⟨items, rest, walk, stops, rfl, rfl⟩
            exact ⟨_, rest, .cons item walk, (stops_cons inRange short).mpr ⟨isZero, stops⟩, rfl,
              (total_cons ..).symm⟩
          · rintro ⟨items, rest, walk, stops, rfl, rfl⟩
            cases walk with
            | nil => exact absurd (stops_nil.mp stops) isZero
            | cons other walk =>
                rcases item_unique item other with ⟨rfl, rfl⟩
                have loop := (ih (Nat.mod_lt _ (by decide)) (shorter_of_item item enough)).mpr
                  ⟨_, rest, walk, ((stops_cons inRange short).mp stops).2, rfl, rfl⟩
                exact ⟨_, loop, _, ⟨_, rfl, rfl⟩, total_cons ..⟩
        · simp only [readLoop, isZero, if_false, fails, Option.some.injEq, reduceCtorEq, false_iff]
          rintro ⟨items, rest, walk, stops, -, -⟩
          cases walk with
          | nil => exact isZero (stops_nil.mp stops)
          | cons item walk => cases fails.symm.trans (read_item item)
        · simp only [readLoop, isZero, if_false, read_cutShort cutShort,
            Option.some.injEq, reduceCtorEq,
            false_iff]
          rintro ⟨items, rest, walk, stops, -, -⟩
          cases walk with
          | nil => exact isZero (stops_nil.mp stops)
          | cons item walk => cases (read_item item).symm.trans (read_cutShort cutShort)

/-- The items at the pointer are determined as far as the length goes. -/
theorem walk_unique {items items' : List (MQTTProperty × Nat)} {rest rest' : Bytes}
    (inRange : remlength < 4294967296) (walk : Walk bytes items rest)
    (stops : Stops remlength items) (walk' : Walk bytes items' rest')
    (stops' : Stops remlength items') : items = items' := by
  induction walk generalizing remlength items' with
  | nil bytes =>
      cases walk' with
      | nil => rfl
      | cons item _ =>
          exact absurd (stops_nil.mp stops)
            ((stops_cons inRange (item_bounds item).2.2).mp stops').1
  | cons item walk ih =>
      have short := (item_bounds item).2.2
      cases walk' with
      | nil => exact absurd (stops_nil.mp stops') ((stops_cons inRange short).mp stops).1
      | cons item' walk' =>
          rcases item_unique item item' with ⟨rfl, rfl⟩
          rw [ih (Nat.mod_lt _ (by decide)) ((stops_cons inRange short).mp stops).2 walk'
            ((stops_cons inRange short).mp stops').2]

end Loop

section Announcements

variable {bytes : Bytes} {length n : Nat}

theorem lowerBits_lt (bytes : Bytes) : lowerBits bytes < 128 ^ bytes.length := by
  induction bytes with
  | nil => decide
  | cons c bytes ih =>
      have := Nat.mod_lt c.toNat (show 0 < 128 by decide)
      rw [lowerBits, List.length_cons, Nat.pow_succ]
      omega

theorem vbi_lt {field : Bytes} (isVBI : VBI field length) : length < 128 ^ field.length := by
  induction isVBI with
  | last ends => exact ends
  | @more c field n continues _ ih =>
      have := Nat.mod_lt c.toNat (show 0 < 128 by decide)
      rw [List.length_cons, Nat.pow_succ]
      omega

theorem Announces.lt (announces : Announces bytes length n) : length < 268435456 := by
  cases announces with
  | field split isVBI short =>
      apply Nat.lt_of_lt_of_le (vbi_lt isVBI)
      exact Nat.pow_le_pow_right (show 0 < 128 by decide) short
  | @overlong field rest split overlong =>
      have inRange := lowerBits_lt field
      rw [overlong.1] at inRange
      exact inRange

theorem Announces.decodeBuf (announces : Announces bytes length n) :
    decodeBuf bytes = .taken (length, n) n := by
  cases announces with
  | field split isVBI short =>
      subst split
      exact decodeBuf_vbi isVBI short _
  | overlong split overlong =>
      subst split
      exact decodeBuf_overlong overlong

theorem Announces.ne_nil (announces : Announces bytes length n) : bytes ≠ [] := by
  rintro rfl
  cases announces with
  | field split isVBI short =>
      have := isVBI.ne_nil
      rw [(List.append_eq_nil_iff.mp split.symm).1] at this
      cases this
  | overlong split overlong =>
      have := overlong.1
      rw [(List.append_eq_nil_iff.mp split.symm).1] at this
      cases this

theorem Announces.unique {length' n' : Nat} (announces : Announces bytes length n)
    (other : Announces bytes length' n') : length = length' ∧ n = n' := by
  have same := announces.decodeBuf.symm.trans other.decodeBuf
  injection same with pair same
  injection pair with length _
  exact ⟨length, same⟩

theorem announces_cases (bytes : Bytes) :
    (∃ length n, Announces bytes length n) ∨ (Continue bytes ∧ bytes.length < 4) := by
  rcases decodeBuf_cases bytes with ⟨field, n, rest, split, isVBI, short⟩ |
    ⟨field, rest, split, overlong⟩ | cutShort
  · exact .inl ⟨n, field.length, .field split isVBI short⟩
  · exact .inl ⟨lowerBits field, 5, .overlong split overlong⟩
  · exact .inr cutShort

theorem readList_announced (announces : Announces bytes length n) :
    readList bytes = (readLoop (bytes.length + 1) length (bytes.drop n)).map fun reading =>
      (reading.map (PropertyList.mk length)).advance n := by
  rw [readList, if_neg announces.ne_nil, announces.decodeBuf]

theorem enough_rounds (bytes : Bytes) (n : Nat) : (bytes.drop n).length < bytes.length + 1 := by
  rw [List.length_drop]
  omega

/-- `MQTTProperties_read` returns on every buffer. -/
theorem readList_isSome (bytes : Bytes) : (readList bytes).isSome := by
  by_cases empty : bytes = []
  · simp [readList, empty]
  · rcases announces_cases bytes with ⟨length, n, announces⟩ | ⟨continues, short⟩
    · rw [readList_announced announces, Option.isSome_map]
      exact readLoop_isSome (enough_rounds bytes n)
    · simp [readList, empty, decodeBuf_cutOff continues short]

theorem readList_overrun : readList bytes = some .overrun ↔ RunsOff bytes := by
  by_cases empty : bytes = []
  · subst empty
    simp only [readList, if_true, Option.some.injEq, reduceCtorEq, false_iff]
    rintro (⟨nonempty, -⟩ | ⟨length, n, items, rest, announces, -⟩)
    · exact nonempty rfl
    · exact announces.ne_nil rfl
  · rcases announces_cases bytes with ⟨length, n, announces⟩ | ⟨continues, short⟩
    · rw [readList_announced announces, Option.map_eq_some_iff]
      simp only [BoundedReading.advance_eq_overrun, BoundedReading.map_eq_overrun, exists_eq_right]
      rw [readLoop_overrun (announces.lt.trans (by decide)) (enough_rounds bytes n)]
      constructor
      · rintro ⟨items, rest, runsOff⟩
        exact .inr ⟨length, n, items, rest, announces, runsOff⟩
      · rintro (⟨-, continues, short⟩ | ⟨length', n', items, rest, announces', runsOff⟩)
        · cases announces.decodeBuf.symm.trans (decodeBuf_cutOff continues short)
        · rcases announces.unique announces' with ⟨rfl, rfl⟩
          exact ⟨items, rest, runsOff⟩
    · simp only [readList, empty, if_false, decodeBuf_cutOff continues short, true_iff]
      exact .inl ⟨empty, continues, short⟩

theorem readList_taken {list : PropertyList} :
    readList bytes = some (.taken list n) ↔
      ∃ m items rest, Announces bytes list.length m ∧ Walk (bytes.drop m) items rest ∧
        Stops list.length items ∧ list.array = items.map Prod.fst ∧ n = m + total items := by
  by_cases empty : bytes = []
  · subst empty
    simp only [readList, if_true, Option.some.injEq, reduceCtorEq, false_iff]
    rintro ⟨m, items, rest, announces, -⟩
    exact announces.ne_nil rfl
  · rcases announces_cases bytes with ⟨length, m, announces⟩ | ⟨continues, short⟩
    · rw [readList_announced announces, Option.map_eq_some_iff]
      simp only [BoundedReading.advance_eq_taken, BoundedReading.map_eq_taken]
      constructor
      · rintro ⟨_, loop, k, ⟨props, rfl, rfl⟩, rfl⟩
        rcases (readLoop_taken (announces.lt.trans (by decide)) (enough_rounds bytes m)).mp
          loop with
          ⟨items, rest, walk, stops, rfl, rfl⟩
        exact ⟨m, items, rest, announces, walk, stops, rfl, rfl⟩
      · rintro ⟨m', items, rest, announces', walk, stops, array, rfl⟩
        rcases list with ⟨listLength, array'⟩
        rcases announces.unique announces' with ⟨same, rfl⟩
        simp only at same array
        subst same array
        exact ⟨_, (readLoop_taken (announces.lt.trans (by decide)) (enough_rounds bytes m)).mpr
          ⟨items, rest, walk, stops, rfl, rfl⟩, _, ⟨_, rfl, rfl⟩, rfl⟩
    · simp only [readList, empty, if_false, decodeBuf_cutOff continues short, Option.some.injEq,
        reduceCtorEq, false_iff]
      rintro ⟨m, items, rest, announces, -⟩
      cases announces.decodeBuf.symm.trans (decodeBuf_cutOff continues short)

end Announcements

section Grammar

variable {bytes body rest : Bytes} {props : MQTTProperties} {items : List (MQTTProperty × Nat)}

/-- An item that the grammar does not have: its variable byte integer goes on for too long. -/
def IsOverlong (item : MQTTProperty × Nat) : Prop :=
  item.1.identifier = 11 ∧ item.2 = 6

theorem isNumber_iff {identifier : Nat} :
    MQTTProperty.getType identifier = some .variableByteInteger ↔ identifier = 11 := by
  constructor
  · intro isNumber
    have all : ∀ entry ∈ MQTTProperty.namesToTypes,
        entry.2 = .variableByteInteger → entry.1 = 11 := by decide
    simp only [MQTTProperty.getType, Option.map_eq_some_iff] at isNumber
    rcases isNumber with ⟨entry, found, isType⟩
    have same : entry.1 = identifier := by simpa using List.find?_some found
    rw [← same]
    exact all entry (List.mem_of_find?_eq_some found) isType
  · rintro rfl
    decide

theorem IsProperty.not_overlong {item : Bytes} {prop : MQTTProperty}
    (isProperty : IsProperty item prop) : ¬IsOverlong (prop, item.length) := by
  rintro ⟨isEleven, isSix⟩
  cases isProperty with
  | @intro identifier type item value known isValue =>
      simp only at isEleven isSix
      rw [isEleven, isNumber_iff.mpr rfl] at known
      injection known with known
      subst known
      cases isValue with
      | variableByteInteger isVBI short =>
          rw [List.length_cons] at isSix
          omega

/-- An item is either well formed or too long. -/
theorem item_cases {prop : MQTTProperty} {n : Nat} (item : Item bytes prop n) :
    (IsProperty (bytes.take n) prop ∧ n ≤ bytes.length) ∨ IsOverlong (prop, n) := by
  cases item with
  | property split isProperty =>
      left
      subst split
      exact ⟨by rw [List.take_left]; exact isProperty, by simp⟩
  | overlong split isNumber overlong =>
      right
      exact ⟨isNumber_iff.mp isNumber, rfl⟩

/-- Well-formed properties are walked through. -/
theorem AreProperties.walk (areProperties : AreProperties body props) (rest : Bytes) :
    ∃ items, Walk (body ++ rest) items rest ∧ props = items.map Prod.fst ∧
      total items = body.length ∧ ∀ item ∈ items, ¬IsOverlong item := by
  induction areProperties with
  | nil => exact ⟨[], .nil rest, rfl, rfl, by simp⟩
  | @cons item body prop props first _ ih =>
      rcases ih with ⟨items, walk, rfl, same, whole⟩
      have isItem : Item (item ++ body ++ rest) prop item.length :=
        .property (List.append_assoc ..) first
      refine ⟨(prop, item.length) :: items, .cons isItem ?_, rfl, ?_, ?_⟩
      · rw [List.append_assoc, List.drop_left]
        exact walk
      · rw [total_cons, same, List.length_append]
      · exact List.forall_mem_cons.mpr ⟨first.not_overlong, whole⟩

/-- A walk through whole items is a concatenation of properties. -/
theorem Walk.areProperties (walk : Walk bytes items rest)
    (whole : ∀ item ∈ items, ¬IsOverlong item) :
    ∃ body, bytes = body ++ rest ∧ body.length = total items ∧
      AreProperties body (items.map Prod.fst) := by
  induction walk with
  | nil bytes => exact ⟨[], rfl, rfl, .nil⟩
  | @cons bytes rest prop n items item _ ih =>
      rcases List.forall_mem_cons.mp whole with ⟨first, others⟩
      rcases ih others with ⟨body, split, length, areProperties⟩
      rcases item_cases item with ⟨isProperty, within⟩ | overlong
      · refine ⟨bytes.take n ++ body, ?_, ?_, .cons isProperty areProperties⟩
        · rw [List.append_assoc, ← split, List.take_append_drop]
        · rw [List.length_append, List.length_take, Nat.min_eq_left within, length, total_cons]
      · exact absurd overlong first

/-- A length that has come out exactly has not come out before. -/
theorem stops_of_total (walk : Walk bytes items rest) (inRange : total items < 4294967296) :
    Stops (total items) items := by
  induction walk with
  | nil => exact stops_nil.mpr rfl
  | @cons bytes rest prop n items item _ ih =>
      have bounds := item_bounds item
      rw [total_cons] at inRange ⊢
      apply (stops_cons inRange bounds.2.2).mpr
      have left : (n + total items + 4294967296 - n) % 4294967296 = total items := by omega
      rw [left]
      exact ⟨by omega, ih (by omega)⟩

/-- The grammar, as a walk of the reader. -/
theorem beginsWithList_iff {list : PropertyList} {n : Nat} :
    BeginsWithList bytes list n ↔
      ∃ m items rest, Announces bytes list.length m ∧ Walk (bytes.drop m) items rest ∧
        Stops list.length items ∧ list.array = items.map Prod.fst ∧ n = m + total items ∧
        m ≠ 5 ∧ (∀ item ∈ items, ¬IsOverlong item) ∧ total items = list.length := by
  constructor
  · rintro ⟨field, body, rest, rfl, isVBI, short, length, areProperties, rfl⟩
    rcases areProperties.walk rest with ⟨items, walk, array, same, whole⟩
    have announces : Announces (field ++ (body ++ rest)) list.length field.length :=
      .field rfl isVBI short
    have stops := stops_of_total walk (by
      have := announces.lt
      omega)
    rw [same, length] at stops
    refine ⟨field.length, items, rest, announces, ?_, stops, array, by rw [same], by omega, whole,
      same.trans length⟩
    rw [List.drop_left]
    exact walk
  · rintro ⟨m, items, rest, announces, walk, stops, array, rfl, notFive, whole, same⟩
    rcases list with ⟨length, props⟩
    simp only at announces stops array same
    cases announces with
    | @field field _ _ split isVBI short =>
        subst split
        rw [List.drop_left] at walk
        rcases walk.areProperties whole with ⟨body, rfl, bodyLength, areProperties⟩
        exact ⟨field, body, rest, rfl, isVBI, short, bodyLength.trans same, array ▸ areProperties,
          by rw [bodyLength]⟩
    | overlong split overlong => exact absurd rfl notFive

/-- A list of the grammar is taken. -/
theorem readList_of_beginsWithList {list : PropertyList} {n : Nat}
    (begins : BeginsWithList bytes list n) : readList bytes = some (.taken list n) := by
  rcases beginsWithList_iff.mp begins with
    ⟨m, items, rest, announces, walk, stops, array, length, -⟩
  exact readList_taken.mpr ⟨m, items, rest, announces, walk, stops, array, length⟩

theorem Walk.rest_eq {rest : Bytes} (walk : Walk bytes items rest) :
    rest = bytes.drop (total items) := by
  induction walk with
  | nil bytes => rfl
  | cons item _ ih =>
      rw [total_cons, ← List.drop_drop]
      exact ih

/-- The length comes out where the grammar has no list, and these bytes are left. -/
def Misread (bytes rest : Bytes) : Prop :=
  ∃ length n items, Announces bytes length n ∧ Walk (bytes.drop n) items rest ∧ Stops length items ∧
    (n = 5 ∨ (∃ item ∈ items, item.1.identifier = 11 ∧ item.2 = 6) ∨ total items ≠ length)

theorem addsUpWrongly_iff : AddsUpWrongly bytes ↔ ∃ rest, Misread bytes rest := by
  constructor
  · rintro ⟨length, n, items, rest, misread⟩
    exact ⟨rest, length, n, items, misread⟩
  · rintro ⟨rest, length, n, items, misread⟩
    exact ⟨length, n, items, rest, misread⟩

/-- What is misread is taken. -/
theorem Misread.taken {rest : Bytes} (misread : Misread bytes rest) :
    ∃ list n, readList bytes = some (.taken list n) ∧ rest = bytes.drop n := by
  rcases misread with ⟨length, n, items, announces, walk, stops, -⟩
  refine ⟨⟨length, items.map Prod.fst⟩, n + total items,
    readList_taken.mpr ⟨n, items, rest, announces, walk, stops, rfl, rfl⟩, ?_⟩
  rw [← List.drop_drop]
  exact walk.rest_eq

theorem Misread.not_begins {rest : Bytes} (misread : Misread bytes rest) (list : PropertyList)
    (n : Nat) : ¬BeginsWithList bytes list n := by
  rcases misread with ⟨length, m, items, announces, walk, stops, wrong⟩
  intro begins
  rcases beginsWithList_iff.mp begins with
    ⟨m', items', rest', announces', walk', stops', -, -, notFive, whole, same⟩
  rcases announces.unique announces' with ⟨rfl, rfl⟩
  have sameItems := walk_unique (announces.lt.trans (by decide)) walk stops walk' stops'
  subst sameItems
  rcases wrong with five | ⟨item, mem, overlong⟩ | differ
  · exact notFive five
  · exact whole item mem overlong
  · exact differ same

/-- What is taken is a list of the grammar or misread. -/
theorem taken_cases {list : PropertyList} {n : Nat}
    (taken : readList bytes = some (.taken list n)) :
    BeginsWithList bytes list n ∨ Misread bytes (bytes.drop n) := by
  rcases readList_taken.mp taken with ⟨m, items, rest, announces, walk, stops, array, rfl⟩
  by_cases wrong : m = 5 ∨ (∃ item ∈ items, item.1.identifier = 11 ∧ item.2 = 6) ∨
      total items ≠ list.length
  · right
    rw [← List.drop_drop, ← walk.rest_eq]
    exact ⟨list.length, m, items, announces, walk, stops, wrong⟩
  · left
    rw [not_or, not_or] at wrong
    apply beginsWithList_iff.mpr
    exact ⟨m, items, rest, announces, walk, stops, array, rfl, wrong.1,
      fun item mem overlong => wrong.2.1 ⟨item, mem, overlong⟩, not_not.mp wrong.2.2⟩

end Grammar

/-! ## The reader and the grammar -/

/-- The reader returns, reads nothing at the end or beyond it, and takes exactly the property lists
of the grammar, with the pointer behind them. -/
def FollowsGrammar (bytes : Bytes) : Prop :=
  ∃ reading, readList bytes = some reading ∧ reading ≠ .overrun ∧
    ∀ list n, reading = .taken list n ↔ BeginsWithList bytes list n

/-- On every buffer `MQTTProperties_read` follows the grammar of property lists exactly when the
bytes are not cut off within a number or between two properties before the announced length comes
out, and the length does not come out with a variable byte integer of five bytes or with 2^32 bytes
too many.
-/
theorem followsGrammar_iff (bytes : Bytes) :
    FollowsGrammar bytes ↔ ¬RunsOff bytes ∧ ¬AddsUpWrongly bytes := by
  constructor
  · rintro ⟨reading, result, within, accepts⟩
    constructor
    · intro runsOff
      apply within
      exact Option.some.inj (result.symm.trans (readList_overrun.mpr runsOff))
    · intro wrongly
      rcases addsUpWrongly_iff.mp wrongly with ⟨rest, misread⟩
      rcases misread.taken with ⟨list, n, taken, -⟩
      apply misread.not_begins list n
      exact (accepts list n).mp (Option.some.inj (result.symm.trans taken))
  · rintro ⟨within, exactly⟩
    rcases Option.isSome_iff_exists.mp (readList_isSome bytes) with ⟨reading, result⟩
    refine ⟨reading, result, ?_, fun list n => ?_⟩
    · rintro rfl
      exact within (readList_overrun.mp result)
    · constructor
      · rintro rfl
        rcases taken_cases result with begins | misread
        · exact begins
        · exact absurd (addsUpWrongly_iff.mpr ⟨_, misread⟩) exactly
      · intro begins
        exact Option.some.inj (result.symm.trans (readList_of_beginsWithList begins))

/-- Two bytes of properties are announced: the identifier of the message expiry interval and one
byte of its four. -/
theorem not_followsGrammar : ¬FollowsGrammar [2, 2, 0] := by
  rintro ⟨reading, result, within, -⟩
  apply within
  have overrun : readList [2, 2, 0] = some .overrun := by decide
  exact Option.some.inj (result.symm.trans overrun)

end Paho
