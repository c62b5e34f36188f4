import Paho.Codec.Native
import Mathlib.Data.List.Forall2

/-!
# Validation of UTF-8

`utf-8.c`: a character is matched against the rows of `valid_ranges`, a string character by
character. A `char` may be signed or not; a byte that is read where the memory of the caller has
come to an end is no result.
-/

namespace Paho

/-- The well-formed byte sequences of one character, row by row of Table 3-7 of the Unicode
Standard. -/
inductive Utf8Sequence : Bytes → Prop where
  | ascii {b : UInt8} (upper : b ≤ 0x7F) : Utf8Sequence [b]
  | two {b c : UInt8} (first : 0xC2 ≤ b ∧ b ≤ 0xDF) (second : 0x80 ≤ c ∧ c ≤ 0xBF) :
      Utf8Sequence [b, c]
  | e0 {c d : UInt8} (second : 0xA0 ≤ c ∧ c ≤ 0xBF) (third : 0x80 ≤ d ∧ d ≤ 0xBF) :
      Utf8Sequence [0xE0, c, d]
  | e1ec {b c d : UInt8} (first : 0xE1 ≤ b ∧ b ≤ 0xEC) (second : 0x80 ≤ c ∧ c ≤ 0xBF)
      (third : 0x80 ≤ d ∧ d ≤ 0xBF) : Utf8Sequence [b, c, d]
  | ed {c d : UInt8} (second : 0x80 ≤ c ∧ c ≤ 0x9F) (third : 0x80 ≤ d ∧ d ≤ 0xBF) :
      Utf8Sequence [0xED, c, d]
  | eeef {b c d : UInt8} (first : 0xEE ≤ b ∧ b ≤ 0xEF) (second : 0x80 ≤ c ∧ c ≤ 0xBF)
      (third : 0x80 ≤ d ∧ d ≤ 0xBF) : Utf8Sequence [b, c, d]
  | f0 {c d e : UInt8} (second : 0x90 ≤ c ∧ c ≤ 0xBF) (third : 0x80 ≤ d ∧ d ≤ 0xBF)
      (fourth : 0x80 ≤ e ∧ e ≤ 0xBF) : Utf8Sequence [0xF0, c, d, e]
  | f1f3 {b c d e : UInt8} (first : 0xF1 ≤ b ∧ b ≤ 0xF3) (second : 0x80 ≤ c ∧ c ≤ 0xBF)
      (third : 0x80 ≤ d ∧ d ≤ 0xBF) (fourth : 0x80 ≤ e ∧ e ≤ 0xBF) : Utf8Sequence [b, c, d, e]
  | f4 {c d e : UInt8} (second : 0x80 ≤ c ∧ c ≤ 0x8F) (third : 0x80 ≤ d ∧ d ≤ 0xBF)
      (fourth : 0x80 ≤ e ∧ e ≤ 0xBF) : Utf8Sequence [0xF4, c, d, e]

/-- Concatenations of well-formed sequences. -/
inductive Utf8 : Bytes → Prop where
  | empty : Utf8 []
  | append {char rest : Bytes} (first : Utf8Sequence char) (others : Utf8 rest) :
      Utf8 (char ++ rest)

namespace UTF8

/-- The range of a byte of a row of `valid_ranges`. -/
structure ByteRange where
  lower : UInt8
  upper : UInt8

/-- A row of `valid_ranges`. -/
structure Row where
  len : Nat
  bytes : List ByteRange

/-- `valid_ranges`. -/
def validRanges : List Row :=
  [⟨1, [⟨0x00, 0x7F⟩]⟩,
    ⟨2, [⟨0xC2, 0xDF⟩, ⟨0x80, 0xBF⟩]⟩,
    ⟨3, [⟨0xE0, 0xE0⟩, ⟨0xA0, 0xBF⟩, ⟨0x80, 0xBF⟩]⟩,
    ⟨3, [⟨0xE1, 0xEC⟩, ⟨0x80, 0xBF⟩, ⟨0x80, 0xBF⟩]⟩,
    ⟨3, [⟨0xED, 0xED⟩, ⟨0x80, 0x9F⟩, ⟨0x80, 0xBF⟩]⟩,
    ⟨3, [⟨0xEE, 0xEF⟩, ⟨0x80, 0xBF⟩, ⟨0x80, 0xBF⟩]⟩,
    ⟨4, [⟨0xF0, 0xF0⟩, ⟨0x90, 0xBF⟩, ⟨0x80, 0xBF⟩, ⟨0x80, 0xBF⟩]⟩,
    ⟨4, [⟨0xF1, 0xF3⟩, ⟨0x80, 0xBF⟩, ⟨0x80, 0xBF⟩, ⟨0x80, 0xBF⟩]⟩,
    ⟨4, [⟨0xF4, 0xF4⟩, ⟨0x80, 0x8F⟩, ⟨0x80, 0xBF⟩, ⟨0x80, 0xBF⟩]⟩]

/-- The number of bytes of a character, by its first byte. -/
def charlen (byte : UInt8) : Nat :=
  if byte &&& 128 = 0 then 1
  else if byte &&& 0xF0 = 0xF0 then 4
  else if byte &&& 0xE0 = 0xE0 then 3
  else 2

/-- The inner loop of `UTF8_char_validate`: the bytes from `data[j]` on against the ranges of a
row. -/
def inRanges (char : CharType) (data : Bytes) : Nat → List ByteRange → Option Bool
  | _, [] => some true
  | j, range :: ranges =>
      (data[j]?).bind fun byte =>
        if char.value byte < char.value range.lower ∨ char.value byte > char.value range.upper then
          some false
        else inRanges char data (j + 1) ranges

/-- The outer loop of `UTF8_char_validate`: it just has to match one of these rows. -/
def matchesRow (char : CharType) (data : Bytes) (charlen : Nat) : List Row → Option Bool
  | [] => some false
  | row :: rows =>
      if row.len = charlen then
        (inRanges char data 0 row.bytes).bind fun good =>
          if good then some true else matchesRow char data charlen rows
      else matchesRow char data charlen rows

/-- `UTF8_char_validate`: how far the next character is, or `NULL`. -/
def charValidate (char : CharType) (len : Int) (data : Bytes) : Option (Option Nat) :=
  (data[0]?).bind fun byte =>
    if charlen byte > len then some none
    else
      (matchesRow char data (charlen byte) validRanges).map fun good =>
        if good then some (charlen byte) else none

theorem charlen_pos (byte : UInt8) : 0 < charlen byte := by
  unfold charlen
  split_ifs <;> omega

theorem charValidate_pos {char : CharType} {len : Int} {data : Bytes} {next : Nat}
    (validated : charValidate char len data = some (some next)) : 0 < next := by
  rcases Option.bind_eq_some_iff.mp validated with ⟨byte, -, result⟩
  split at result
  · cases result
  · rcases Option.map_eq_some_iff.mp result with ⟨good, -, isNext⟩
    cases good with
    | true => exact Option.some.inj isNext ▸ charlen_pos byte
    | false => cases isNext

/-- The loop of `UTF8_validate`, from `curdata = data + pos` on. -/
def validateFrom (char : CharType) (len : Int) (data : Bytes) (pos : Nat) : Option Bool :=
  if (pos : Int) < len then
    match _validated : charValidate char (len - pos) (data.drop pos) with
    | none => none
    | some none => some false
    | some (some next) => validateFrom char len data (pos + next)
  else some true
termination_by (len - pos).toNat
decreasing_by
  have := charValidate_pos _validated
  omega

/-- `UTF8_validate`. The first character is looked at whatever the length is, unless it is 0. -/
def validate (char : CharType) (len : Int) (data : Option Bytes) : Option Bool :=
  match data with
  | none => some true
  | some data =>
      if len = 0 then some true
      else
        match charValidate char len data with
        | none => none
        | some none => some false
        | some (some next) => validateFrom char len data next

/-- `(int)` of a size. -/
def toInt (size : Nat) : Int :=
  (Int32.ofNat size).toInt

/-- `UTF8_validateString`. -/
def validateString (char : CharType) (string : Option CString) : Option Bool :=
  match string with
  | none => some false
  | some string => validate char (toInt string.bytes.length) (some (string.bytes ++ [0]))

/-- The byte is in the range. -/
def ByteRange.Contains (byte : UInt8) (range : ByteRange) : Prop :=
  range.lower ≤ byte ∧ byte ≤ range.upper

/-- Both limits are ASCII, or neither is. -/
def ByteRange.Uniform (range : ByteRange) : Prop :=
  range.lower < 128 ↔ range.upper < 128

instance (range : ByteRange) : Decidable range.Uniform :=
  inferInstanceAs (Decidable (_ ↔ _))

/-- The comparisons of `char`s find the bytes outside of a range, signed or not. -/
theorem outside_iff (char : CharType) {range : ByteRange} (uniform : range.Uniform)
    (byte : UInt8) :
    char.value byte < char.value range.lower ∨ char.value byte > char.value range.upper ↔
      ¬ByteRange.Contains byte range := by
  have lower : range.lower < 128 ↔ range.lower.toNat < 128 := UInt8.lt_iff_toNat_lt
  have upper : range.upper < 128 ↔ range.upper.toNat < 128 := UInt8.lt_iff_toNat_lt
  rw [ByteRange.Uniform, lower, upper] at uniform
  simp only [ByteRange.Contains, UInt8.le_iff_toNat_le]
  have := byte.toNat_lt
  have := range.lower.toNat_lt
  have := range.upper.toNat_lt
  cases char with
  | signed =>
      simp only [CharType.value]
      split_ifs <;> omega
  | unsigned =>
      simp only [CharType.value]
      omega

/-- The bytes `data[j]`, ... are compared with the ranges of a row. -/
theorem inRanges_spec (char : CharType) (data : Bytes) {ranges : List ByteRange} {j : Nat}
    (uniform : ∀ range ∈ ranges, range.Uniform) (inside : j + ranges.length ≤ data.length) :
    ∃ good, inRanges char data j ranges = some good ∧
      (good = true ↔
        List.Forall₂ ByteRange.Contains ((data.drop j).take ranges.length) ranges) := by
  induction ranges generalizing j with
  | nil => exact ⟨true, rfl, by simp⟩
  | cons range ranges ih =>
      simp only [List.length_cons] at inside
      have bound : j < data.length := by omega
      have split : (data.drop j).take (range :: ranges).length =
          data[j] :: (data.drop (j + 1)).take ranges.length := by
        rw [List.drop_eq_getElem_cons bound, List.length_cons, List.take_succ_cons]
      rcases ih (fun other mem => uniform other (List.mem_cons_of_mem _ mem))
        (show j + 1 + ranges.length ≤ data.length by omega) with ⟨good, result, correct⟩
      have outside := outside_iff char (uniform range List.mem_cons_self) data[j]
      rw [inRanges, List.getElem?_eq_getElem bound, Option.bind_some, split]
      by_cases contained : ByteRange.Contains data[j] range
      · rw [if_neg fun out => outside.mp out contained]
        exact ⟨good, result, by simp [contained, correct]⟩
      · rw [if_pos (outside.mpr contained)]
        exact ⟨false, rfl, by simp [contained]⟩

/-- A row of the table that has the sequence. -/
def Row.Has (row : Row) (bytes : Bytes) : Prop :=
  List.Forall₂ ByteRange.Contains bytes row.bytes

theorem matchesRow_spec (char : CharType) {data : Bytes} {charlen : Nat}
    (inside : charlen ≤ data.length) {rows : List Row}
    (wellFormed : ∀ row ∈ rows, row.bytes.length = row.len ∧ ∀ range ∈ row.bytes, range.Uniform) :
    ∃ good, matchesRow char data charlen rows = some good ∧
      (good = true ↔ ∃ row ∈ rows, row.len = charlen ∧ row.Has (data.take charlen)) := by
  induction rows with
  | nil => exact ⟨false, rfl, by simp⟩
  | cons row rows ih =>
      rcases ih (fun other mem => wellFormed other (List.mem_cons_of_mem _ mem)) with
        ⟨good, result, correct⟩
      rcases wellFormed row List.mem_cons_self with ⟨length, uniform⟩
      by_cases same : row.len = charlen
      · rw [same] at length
        rcases inRanges_spec char data uniform
          (show 0 + row.bytes.length ≤ data.length by omega) with
          ⟨first, compared, has⟩
        rw [length, List.drop_zero] at has
        simp only [matchesRow, same, if_true, compared, Option.bind_some, List.exists_mem_cons_iff,
          true_and, Row.Has, ← has]
        cases first with
        | true => exact ⟨true, rfl, by simp⟩
        | false => exact ⟨good, by simp [result], by simp [correct, Row.Has]⟩
      · exact ⟨good, by simp [matchesRow, same, result], by simp [correct, same]⟩

theorem validRanges_wellFormed : ∀ row ∈ validRanges,
    row.bytes.length = row.len ∧ ∀ range ∈ row.bytes, range.Uniform := by
  decide

/-- The rows of `valid_ranges` are those of Table 3-7. -/
theorem sequence_iff (bytes : Bytes) :
    Utf8Sequence bytes ↔ ∃ row ∈ validRanges, row.Has bytes := by
  have one (value byte : UInt8) : value ≤ byte ∧ byte ≤ value ↔ byte = value :=
    ⟨fun both => UInt8.le_antisymm both.2 both.1, fun same => by simp [same]⟩
  constructor
  · intro sequence
    cases sequence <;> simp [validRanges, Row.Has, ByteRange.Contains, *]
  · rintro ⟨row, mem, has⟩
    simp only [validRanges, List.mem_cons, List.not_mem_nil, or_false] at mem
    rcases mem with rfl | rfl | rfl | rfl | rfl | rfl | rfl | rfl | rfl <;>
      simp only [Row.Has, List.forall₂_cons_right_iff, List.forall₂_nil_right_iff,
        ByteRange.Contains, one] at has
    · rcases has with ⟨b, _, first, rfl, rfl⟩
      exact .ascii first.2
    · rcases has with ⟨b, _, first, ⟨c, _, second, rfl, rfl⟩, rfl⟩
      exact .two first second
    · rcases has with ⟨_, _, rfl, ⟨c, _, second, ⟨d, _, third, rfl, rfl⟩, rfl⟩, rfl⟩
      exact .e0 second third
    · rcases has with ⟨b, _, first, ⟨c, _, second, ⟨d, _, third, rfl, rfl⟩, rfl⟩, rfl⟩
      exact .e1ec first second third
    · rcases has with ⟨_, _, rfl, ⟨c, _, second, ⟨d, _, third, rfl, rfl⟩, rfl⟩, rfl⟩
      exact .ed second third
    · rcases has with ⟨b, _, first, ⟨c, _, second, ⟨d, _, third, rfl, rfl⟩, rfl⟩, rfl⟩
      exact .eeef first second third
    · rcases has with
        ⟨_, _, rfl, ⟨c, _, second, ⟨d, _, third, ⟨e, _, fourth, rfl, rfl⟩, rfl⟩, rfl⟩, rfl⟩
      exact .f0 second third fourth
    · rcases has with
        ⟨b, _, first, ⟨c, _, second, ⟨d, _, third, ⟨e, _, fourth, rfl, rfl⟩, rfl⟩, rfl⟩, rfl⟩
      exact .f1f3 first second third fourth
    · rcases has with
        ⟨_, _, rfl, ⟨c, _, second, ⟨d, _, third, ⟨e, _, fourth, rfl, rfl⟩, rfl⟩, rfl⟩, rfl⟩
      exact .f4 second third fourth

/-- The classes of first bytes. -/
theorem charlen_eq (byte : UInt8) :
    charlen byte = if byte < 0x80 then 1 else if byte < 0xE0 then 2 else
      if byte < 0xF0 then 3 else 4 := by
  revert byte
  exact forall_byte (by decide +kernel)

/-- The first byte of a character tells how many bytes it has. -/
theorem charlen_sequence {byte : UInt8} {rest : Bytes} (sequence : Utf8Sequence (byte :: rest)) :
    charlen byte = (byte :: rest).length := by
  rw [charlen_eq]
  cases sequence <;> simp_all [UInt8.le_iff_toNat_le, UInt8.lt_iff_toNat_lt] <;> split_ifs <;> omega

theorem Row.Has.length {row : Row} {bytes : Bytes} (mem : row ∈ validRanges) (has : row.Has bytes) :
    bytes.length = row.len :=
  (List.Forall₂.length_eq has).trans (validRanges_wellFormed row mem).1

theorem not_sequence_nil : ¬Utf8Sequence [] :=
  nofun

theorem eq_charlen {byte : UInt8} {rest : Bytes} {n : Nat}
    (sequence : Utf8Sequence ((byte :: rest).take n)) (inside : n ≤ (byte :: rest).length) :
    n = charlen byte := by
  cases n with
  | zero => exact absurd sequence not_sequence_nil
  | succ n =>
      rw [List.take_succ_cons] at sequence
      rw [charlen_sequence sequence, ← List.take_succ_cons, List.length_take,
        Nat.min_eq_left inside]

/-- What `UTF8_char_validate` finds in memory that has the `len` bytes. -/
theorem charValidate_spec (char : CharType) {len : Nat} (data : Bytes) (pos : 0 < len)
    (inside : len ≤ data.length) :
    (∃ next, charValidate char len data = some (some next) ∧ next ≤ len ∧
        Utf8Sequence (data.take next)) ∨
      charValidate char len data = some none ∧ ∀ n ≤ len, ¬Utf8Sequence (data.take n) := by
  cases data with
  | nil => exact absurd (pos.trans_le inside) (Nat.lt_irrefl 0)
  | cons byte rest =>
      unfold charValidate
      rw [List.getElem?_cons_zero, Option.bind_some]
      by_cases long : charlen byte ≤ len
      · rw [if_neg (by omega)]
        rcases matchesRow_spec char (long.trans inside) validRanges_wellFormed with
          ⟨good, matched, correct⟩
        rw [matched, Option.map_some]
        cases good with
        | true =>
            rcases correct.mp rfl with ⟨row, mem, -, has⟩
            exact .inl ⟨_, rfl, long, (sequence_iff _).mpr ⟨row, mem, has⟩⟩
        | false =>
            right
            refine ⟨rfl, fun n short sequence => ?_⟩
            have same := eq_charlen sequence (short.trans inside)
            subst same
            rcases (sequence_iff _).mp sequence with ⟨row, mem, has⟩
            have length := Row.Has.length mem has
            rw [List.length_take, Nat.min_eq_left (long.trans inside)] at length
            exact Bool.false_ne_true (correct.mpr ⟨row, mem, length.symm, has⟩)
      · rw [if_pos (by omega)]
        right
        refine ⟨rfl, fun n short sequence => long ?_⟩
        rw [← eq_charlen sequence (short.trans inside)]
        exact short

/-- The first character of a string, and the others. -/
theorem utf8_iff {bytes : Bytes} (nonempty : bytes ≠ []) :
    Utf8 bytes ↔ ∃ n ≤ bytes.length, Utf8Sequence (bytes.take n) ∧ Utf8 (bytes.drop n) := by
  constructor
  · intro utf8
    cases utf8 with
    | empty => exact absurd rfl nonempty
    | @append char rest first others =>
        exact ⟨char.length, by simp, by simpa using first, by simpa using others⟩
  · rintro ⟨n, -, first, others⟩
    rw [← List.take_append_drop n bytes]
    exact .append first others

/-- A sequence at the front of a string is the only one. -/
theorem sequence_take_inj {bytes : Bytes} {m n : Nat} (first : Utf8Sequence (bytes.take m))
    (second : Utf8Sequence (bytes.take n)) (inside : m ≤ bytes.length)
    (inside' : n ≤ bytes.length) :
    m = n := by
  cases bytes with
  | nil => exact absurd first (by simp [not_sequence_nil])
  | cons byte rest => exact (eq_charlen first inside).trans (eq_charlen second inside').symm

/-- The loop of `UTF8_validate` in memory that has the `len` bytes: what is left of them is checked.
-/
theorem validateFrom_spec (char : CharType) {len pos : Nat} {data : Bytes}
    (inside : len ≤ data.length) (before : pos ≤ len) :
    ∃ verdict, validateFrom char len data pos = some verdict ∧
      (verdict = true ↔ Utf8 ((data.take len).drop pos)) := by
  induction left : len - pos using Nat.strong_induction_on generalizing pos with
  | _ left ih =>
      rw [validateFrom]
      by_cases more : pos < len
      · have length : ((data.take len).drop pos).length = len - pos := by
          rw [List.length_drop, List.length_take]
          omega
        have front {n : Nat} (short : n ≤ len - pos) :
            ((data.take len).drop pos).take n = (data.drop pos).take n := by
          rw [List.drop_take, List.take_take, Nat.min_eq_left short]
        have nonempty : (data.take len).drop pos ≠ [] := by
          rw [← List.length_pos_iff]
          omega
        rw [if_pos (by omega), utf8_iff nonempty, length, ← Int.ofNat_sub before]
        rcases charValidate_spec char (data.drop pos) (Nat.sub_pos_of_lt more)
          (by rw [List.length_drop]; omega) with ⟨next, validated, short, sequence⟩
            | ⟨rejected, none⟩
        · rcases ih (len - (pos + next)) (by have := charValidate_pos validated; omega)
            (by omega) rfl with ⟨verdict, rest, correct⟩
          split
          next failed => cases validated.symm.trans failed
          next failed => cases validated.symm.trans failed
          next other isNext =>
            cases validated.symm.trans isNext
            refine ⟨verdict, rest, correct.trans ⟨fun others => ?_, ?_⟩⟩
            · refine ⟨next, short, (front short).symm ▸ sequence, ?_⟩
              rwa [List.drop_drop]
            · rintro ⟨n, short', first, others⟩
              rw [front short'] at first
              cases sequence_take_inj sequence first (by rw [List.length_drop]; omega)
                (by rw [List.length_drop]; omega)
              rwa [List.drop_drop] at others
        · split
          next failed => cases rejected.symm.trans failed
          next failed =>
            refine ⟨false, rfl, ⟨nofun, ?_⟩⟩
            rintro ⟨n, short, first, -⟩
            exact absurd (front short ▸ first) (none n short)
          next other isNext => cases rejected.symm.trans isNext
      · rw [if_neg (by omega)]
        refine ⟨true, rfl, ⟨fun _ => ?_, fun _ => rfl⟩⟩
        rw [List.drop_eq_nil_of_le (by rw [List.length_take]; omega)]
        exact .empty

/-- `UTF8_validate` in memory that has the `len` bytes. -/
theorem validate_spec (char : CharType) {len : Nat} {data : Bytes} (inside : len ≤ data.length) :
    ∃ verdict, validate char len (some data) = some verdict ∧
      (verdict = true ↔ Utf8 (data.take len)) := by
  have start : 0 ≤ len := Nat.zero_le len
  rcases validateFrom_spec char inside start with ⟨verdict, result, correct⟩
  refine ⟨verdict, ?_, correct⟩
  rw [← result, validate, validateFrom]
  by_cases zero : len = 0
  · subst zero
    rfl
  · rw [if_neg (by omega), if_pos (by omega), Int.ofNat_zero, Int.sub_zero, List.drop_zero]
    rcases charValidate char len data with _ | _ | next
    · rfl
    · rfl
    · simp

/-- A negative length, which only a cast can give. -/
theorem validate_negative (char : CharType) {len : Int} (negative : len < 0) {byte : UInt8}
    {rest : Bytes} : validate char len (some (byte :: rest)) = some false := by
  rw [validate, if_neg (by omega), charValidate, List.getElem?_cons_zero, Option.bind_some,
    if_pos (by omega)]

theorem toInt_of_lt {size : Nat} (small : size < 2147483648) : toInt size = size := by
  unfold toInt
  rw [Int32.toInt_ofNat_of_lt (by omega)]

/-- What is left of a size in an `int` is not longer. -/
theorem toNat_toInt_le (size : Nat) : (toInt size).toNat ≤ size := by
  rw [toInt, Int32.toInt_ofNat', show Int32.size = 4294967296 from rfl, Int.bmod_def]
  split <;> omega

/-- The two validations tell exactly whether these bytes are UTF-8, and read no others. -/
structure ValidatesExactly (char : CharType) (data : Bytes) : Prop where
  /-- `UTF8_validate`, in memory that ends with the bytes. -/
  delimited : data.length < 2147483648 →
    ∃ verdict, validate char data.length (some data) = some verdict ∧ (verdict = true ↔ Utf8 data)
  /-- `UTF8_validateString`, in memory that ends with the terminating zero. -/
  terminated : ∀ string : CString, string.bytes = data →
    ∃ verdict, validateString char (some string) = some verdict ∧ (verdict = true ↔ Utf8 data)

/-- The bytes are no string, their number is an `int`, or the `int` that is left of it leads to the
same: a part of the string that is UTF-8 just when the whole is, or a negative length for what is
not UTF-8. -/
def LengthHarmless (data : Bytes) : Prop :=
  0 ∈ data ∨ data.length < 2147483648 ∨
    if 0 ≤ toInt data.length then Utf8 (data.take (toInt data.length).toNat) ↔ Utf8 data
    else ¬Utf8 data

theorem verdict_unique {result : Option Bool} {is other : Prop} {verdict : Bool}
    (known : result = some verdict) (means : verdict = true ↔ is) :
    (∃ verdict, result = some verdict ∧ (verdict = true ↔ other)) ↔ (is ↔ other) := by
  constructor
  · rintro ⟨answer, same, correct⟩
    cases known.symm.trans same
    exact means.symm.trans correct
  · intro equivalent
    exact ⟨verdict, known, means.trans equivalent⟩

/-- What `UTF8_validateString` makes of a string. -/
theorem validateString_correct_iff (char : CharType) (string : CString) :
    (∃ verdict, validateString char (some string) = some verdict ∧
        (verdict = true ↔ Utf8 string.bytes)) ↔
      if 0 ≤ toInt string.bytes.length then
        Utf8 (string.bytes.take (toInt string.bytes.length).toNat) ↔ Utf8 string.bytes
      else ¬Utf8 string.bytes := by
  have shorter := toNat_toInt_le string.bytes.length
  by_cases nonneg : 0 ≤ toInt string.bytes.length
  · have inside : (toInt string.bytes.length).toNat ≤ (string.bytes ++ [0]).length := by
      rw [List.length_append]
      omega
    rcases validate_spec char inside with ⟨verdict, result, correct⟩
    rw [Int.toNat_of_nonneg nonneg] at result
    rw [List.take_append_of_le_length shorter] at correct
    rw [if_pos nonneg,
      verdict_unique (show validateString char (some string) = _ from result) correct]
  · cases bytes : string.bytes with
    | nil => exact absurd (show 0 ≤ toInt string.bytes.length by rw [bytes]; decide) nonneg
    | cons byte rest =>
        have result : validateString char (some string) = some false := by
          rw [validateString, bytes, List.cons_append]
          exact validate_negative char (by rw [bytes] at nonneg; omega)
        rw [bytes] at nonneg
        have rejected : false = true ↔ False := by simp
        rw [if_neg nonneg, verdict_unique result rejected]
        simp

/-- Validation is exact just when the length is harmless. -/
theorem validatesExactly_iff (char : CharType) (data : Bytes) :
    ValidatesExactly char data ↔ LengthHarmless data := by
  have delimited : ∃ verdict, validate char data.length (some data) = some verdict ∧
      (verdict = true ↔ Utf8 data) := by
    simpa using validate_spec char (Nat.le_refl data.length)
  constructor
  · intro exact
    by_cases zero : 0 ∈ data
    · exact .inl zero
    · let string : CString := ⟨data, fun byte mem same => zero (same ▸ mem)⟩
      exact .inr (.inr ((validateString_correct_iff char string).mp (exact.terminated string rfl)))
  · intro harmless
    refine ⟨fun _ => delimited, ?_⟩
    rintro string rfl
    rw [validateString_correct_iff]
    rcases harmless with zero | small | same
    · exact absurd rfl (string.noZero 0 zero)
    · rw [toInt_of_lt small, if_pos (Int.natCast_nonneg _), Int.toNat_natCast, List.take_length]
    · exact same

theorem not_utf8_of_head {bytes : Bytes} (first : bytes.head? = some 0xFF) : ¬Utf8 bytes := by
  intro utf8
  cases utf8 with
  | empty => cases first
  | append sequence others =>
      cases sequence <;> simp_all

/-- Bytes `0xFF` are taken for UTF-8 when their number becomes 0. -/
theorem not_validatesExactly_replicate {n : Nat} (pos : 0 < n) (zero : toInt n = 0) :
    ¬ValidatesExactly .signed (List.replicate n 0xFF) := by
  have none : ¬Utf8 (List.replicate n 0xFF) := by
    apply not_utf8_of_head
    rw [List.head?_replicate, if_neg (by omega)]
  intro exact
  rcases (validatesExactly_iff .signed _).mp exact with mem | small | same
  · exact absurd (List.eq_of_mem_replicate mem) (by decide)
  · rw [List.length_replicate] at small
    rw [toInt_of_lt small] at zero
    omega
  · rw [List.length_replicate, zero, if_pos (Int.le_refl 0)] at same
    exact none (same.mp .empty)

/-- A string of 2^32 bytes `0xFF`. -/
theorem not_validatesExactly : ¬∀ char data, ValidatesExactly char data :=
  fun always => not_validatesExactly_replicate (n := 4294967296) (by decide)
    (by decide) (always _ _)

end UTF8

end Paho
