import Mathlib.Data.List.Infix
import Mathlib.Logic.Function.Iterate
import Paho.Codec.Base64
import Paho.Connect.ServerAddress

/-!
# The credentials of an HTTP proxy

`MQTTProtocol_setHTTPProxy` takes `user:password` from the string of a proxy, decodes its escapes,
and keeps it in Base64. The allocations succeed. A loop that does not end, and an access outside of
a buffer, have no result.
-/

namespace Paho

namespace Proxy

/-- The character `@`. -/
def atSign : UInt8 := 0x40

/-- The character `%`. -/
def percent : UInt8 := 0x25

/-- The value of a hexadecimal digit. -/
def hexValue (char : UInt8) : Option Nat :=
  if 0x30 ≤ char ∧ char ≤ 0x39 then some (char.toNat - 0x30)
  else if 0x41 ≤ char ∧ char ≤ 0x46 then some (char.toNat - 0x41 + 10)
  else if 0x61 ≤ char ∧ char ≤ 0x66 then some (char.toNat - 0x61 + 10)
  else none

/-- The variables of the loop of `MQTTProtocol_specialChars`: the rest of the string, what is in the
buffer, and the length that is counted down. -/
structure Copying where
  p1 : Bytes
  p0 : Bytes
  basic_auth_in_len : UInt32

/-- The condition of the loop fails. -/
def Copying.Ended (copying : Copying) : Prop :=
  copying.p1.head? = some atSign

instance (copying : Copying) : Decidable copying.Ended :=
  inferInstanceAs (Decidable (_ = _))

/-- One round of the loop of `MQTTProtocol_specialChars`. -/
def Copying.round (copying : Copying) : Copying :=
  match copying.p1 with
  | [] => copying
  | next :: rest =>
      if next = atSign then copying
      else if next ≠ percent then { copying with p1 := rest, p0 := copying.p0 ++ [next] }
      else
        match rest with
        | high :: low :: rest =>
            match hexValue high, hexValue low with
            | some high, some low =>
                { p1 := rest
                  p0 := copying.p0 ++ [UInt8.ofNat (16 * high + low)]
                  basic_auth_in_len := copying.basic_auth_in_len - 2 }
            -- no branch advances `p1`
            | _, _ => copying
        | _ => copying

/-- `MQTTProtocol_specialChars`. As many rounds as there are characters are enough, if any number
is. -/
def Copying.specialChars (copying : Copying) : Option Copying :=
  let last := round^[copying.p1.length] copying
  if last.Ended then some last else none

/-- `source` behind what is taken for the prefix. -/
def skipPrefix (source schemePrefix : Bytes) : Bytes :=
  if schemePrefix <:+: source then source.drop schemePrefix.length else source

/-- What the loop begins with, when there are credentials to decode. -/
def begun (source : Bytes) : Option Copying :=
  (Connect.strchr source atSign).bind fun p1 =>
    if UInt32.ofNat p1 > 0 then some ⟨source, [], UInt32.ofNat p1⟩ else none

/-- The second half of `MQTTProtocol_setHTTPProxy`: `*auth_dest` for the credentials. The blocks of
`malloc` have `basic_auth_in_len + 1` and `basic_auth_out_len` bytes. -/
def authorization (filler : UInt8) (copying : Copying) : Option Bytes :=
  copying.specialChars.bind fun decoded =>
    let basic_auth := decoded.p0
    let basic_auth_in_len := decoded.basic_auth_in_len
    if basic_auth.length < (copying.basic_auth_in_len + 1).toNat ∧
        basic_auth_in_len.toNat ≤ basic_auth.length then
      let basic_auth_out_len := Base64.encodeLength basic_auth_in_len + 1
      (Base64.encode (List.replicate basic_auth_out_len.toNat filler)
        (basic_auth.take basic_auth_in_len.toNat)).map Prod.snd
    else none

/-- `*dest`: what is behind the `@`, or all. -/
def destination (source : Bytes) : Bytes :=
  match Connect.strchr source atSign with
  | some p1 => source.drop (p1 + 1)
  | none => source

/-- `MQTTProtocol_setHTTPProxy`, of a string: `*dest` and `*auth_dest`. Fresh storage holds
`filler`. -/
def setHTTPProxy (filler : UInt8) (source schemePrefix : Bytes) : Option (Bytes × Option Bytes) :=
  let source := skipPrefix source schemePrefix
  match begun source with
  | none => some (destination source, none)
  | some copying =>
      (authorization filler copying).map fun auth_dest => (destination source, some auth_dest)

/-- A string for a proxy with credentials. -/
structure ProxyString where
  bytes : Bytes
  hasAt : atSign ∈ bytes

/-- What stands for these characters when `%XX` stands for the character with the code `XX`. -/
def percentDecode : Bytes → Option Bytes
  | [] => some []
  | next :: rest =>
      if next = percent then
        match rest with
        | high :: low :: rest => do
            let high ← hexValue high
            let low ← hexValue low
            let rest ← percentDecode rest
            return UInt8.ofNat (16 * high + low) :: rest
        | _ => none
      else (percentDecode rest).map (next :: ·)

/-- `user:password`, between the prefix, if there is one, and the first `@`. -/
def ProxyString.credentials (string : ProxyString) (schemePrefix : Bytes) : Bytes :=
  (if schemePrefix <+: string.bytes then string.bytes.drop schemePrefix.length
    else string.bytes).takeWhile (· ≠ atSign)

/-- The characters that `MQTTProtocol_specialChars` is given to decode. -/
def ProxyString.copied (string : ProxyString) (schemePrefix : Bytes) : Bytes :=
  match begun (skipPrefix string.bytes schemePrefix) with
  | some copying => copying.p1.takeWhile (· ≠ atSign)
  | none => []

/-- The credentials of this string are decoded, whatever fresh storage holds. -/
structure Decodes (schemePrefix : Bytes) (string : ProxyString) : Prop where
  /-- The loop ends. -/
  ends : ∀ copying, begun (skipPrefix string.bytes schemePrefix) = some copying →
    ∃ n, (Copying.round^[n] copying).Ended
  /-- When every `%` is followed by two digits, the value is the Base64 encoding of what the
  credentials stand for, with its terminating zero; there is none when there are no credentials. -/
  value : ∀ decoded, percentDecode (string.credentials schemePrefix) = some decoded →
    ∀ filler, ∃ dest, setHTTPProxy filler string.bytes schemePrefix =
      some (dest, if decoded = [] then none else some (Base64.encoding decoded ++ [0]))

/-- What is given to decode has two digits behind every `%`. If the credentials have, both stand for
the same characters, and these are less than 2^30. -/
def Decodable (schemePrefix : Bytes) (string : ProxyString) : Prop :=
  ∃ decoded, percentDecode (string.copied schemePrefix) = some decoded ∧
    ∀ other, percentDecode (string.credentials schemePrefix) = some other →
      other = decoded ∧ decoded.length < 1073741824

namespace Copying

variable {copying : Copying} {part rest w decoded : Bytes} {len : UInt32}

theorem round_of_ended (ended : copying.Ended) : copying.round = copying := by
  rcases copying with ⟨p1, p0, len⟩
  cases p1 with
  | nil => rfl
  | cons next rest =>
      have isAt : next = atSign := Option.some.inj ended
      exact if_pos isAt

theorem iterate_of_ended (ended : copying.Ended) (n : Nat) : round^[n] copying = copying :=
  Function.iterate_fixed (round_of_ended ended) n

theorem round_plain {next : UInt8} (notAt : next ≠ atSign) (plain : next ≠ percent) :
    round ⟨next :: rest, w, len⟩ = ⟨rest, w ++ [next], len⟩ :=
  (if_neg notAt).trans (if_pos plain)

theorem round_escape {high low : UInt8} {h l : Nat} (isHigh : hexValue high = some h)
    (isLow : hexValue low = some l) :
    round ⟨percent :: high :: low :: rest, w, len⟩ =
      ⟨rest, w ++ [UInt8.ofNat (16 * h + l)], len - 2⟩ := by
  simp [round, isHigh, isLow, percent, atSign]

theorem round_stuck (noDigits : ∀ high low rest', rest = high :: low :: rest' →
    hexValue high = none ∨ hexValue low = none) :
    round ⟨percent :: rest, w, len⟩ = ⟨percent :: rest, w, len⟩ := by
  match rest with
  | [] => rfl
  | [high] => rfl
  | high :: low :: rest' =>
      rcases noDigits high low rest' rfl with none | none
      · simp [round, none, percent, atSign]
      · cases isHigh : hexValue high <;> simp [round, none, isHigh, percent, atSign]

end Copying

section Decoding

variable {part rest w decoded : Bytes} {len : UInt32}

theorem percentDecode_escape (high low : UInt8) (rest : Bytes) :
    percentDecode (percent :: high :: low :: rest) =
      (hexValue high).bind fun h => (hexValue low).bind fun l =>
        (percentDecode rest).map (UInt8.ofNat (16 * h + l) :: ·) := by
  rw [percentDecode]
  simp [Option.map_eq_bind, Function.comp_def]

theorem percentDecode_plain {next : UInt8} (plain : next ≠ percent) :
    percentDecode (next :: rest) = (percentDecode rest).map (next :: ·) := by
  rw [percentDecode.eq_def]
  simp [plain]

/-- The ways to begin with a `%`. -/
theorem percentDecode_percent (rest : Bytes) :
    (∃ high low rest' h l, rest = high :: low :: rest' ∧ hexValue high = some h ∧
        hexValue low = some l ∧
        percentDecode (percent :: rest) =
        (percentDecode rest').map (UInt8.ofNat (16 * h + l) :: ·)) ∨
      percentDecode (percent :: rest) = none ∧
        ∀ high low rest', rest = high :: low :: rest' → hexValue high = none ∨
        hexValue low = none := by
  match rest with
  | [] => exact .inr ⟨rfl, nofun⟩
  | [high] => exact .inr ⟨rfl, nofun⟩
  | high :: low :: rest' =>
      have whole := percentDecode_escape high low rest'
      cases isHigh : hexValue high with
      | none =>
          refine .inr ⟨by rw [whole, isHigh, Option.bind_none], ?_⟩
          rintro _ _ _ ⟨⟩
          exact .inl isHigh
      | some h =>
          cases isLow : hexValue low with
          | none =>
              refine .inr ⟨by rw [whole, isHigh, isLow, Option.bind_some, Option.bind_none], ?_⟩
              rintro _ _ _ ⟨⟩
              exact .inr isLow
          | some l =>
              refine .inl ⟨high, low, rest', h, l, rfl, isHigh, isLow, ?_⟩
              rw [whole, isHigh, isLow, Option.bind_some, Option.bind_some]

theorem length_of_percentDecode (decodes : percentDecode part = some decoded) :
    decoded.length ≤ part.length ∧ part.length ≤ 3 * decoded.length := by
  induction length : part.length using Nat.strong_induction_on generalizing part decoded with
  | _ n ih =>
      subst length
      cases part with
      | nil => cases decodes; simp
      | cons next rest =>
          by_cases escape : next = percent
          · subst escape
            rcases percentDecode_percent rest with
              ⟨high, low, rest', h, l, rfl, -, -, whole⟩ | ⟨none, -⟩
            · rcases Option.map_eq_some_iff.mp (whole.symm.trans decodes) with ⟨others, isRest, rfl⟩
              have := ih _ (by simp only [List.length_cons]; omega) isRest rfl
              simp only [List.length_cons]
              omega
            · cases none.symm.trans decodes
          · rw [percentDecode_plain escape] at decodes
            rcases Option.map_eq_some_iff.mp decodes with ⟨others, isRest, rfl⟩
            have := ih _ (by simp only [List.length_cons]; omega) isRest rfl
            simp only [List.length_cons]
            omega

/-- The loop gets to the `@` when every `%` is followed by two digits. -/
theorem exists_rounds (rest w : Bytes) (len : UInt32) (decodes : percentDecode part = some decoded)
    (absent : atSign ∉ part) :
    ∃ n ≤ part.length, Copying.round^[n] ⟨part ++ atSign :: rest, w, len⟩ =
      ⟨atSign :: rest, w ++ decoded, len - UInt32.ofNat (part.length - decoded.length)⟩ := by
  induction length : part.length using Nat.strong_induction_on generalizing part decoded w len with
  | _ n ih =>
      subst length
      cases part with
      | nil =>
          cases decodes
          exact ⟨0, Nat.le_refl 0, by simp⟩
      | cons next others =>
          by_cases escape : next = percent
          · subst escape
            rcases percentDecode_percent others with
              ⟨high, low, others, h, l, rfl, isHigh, isLow, whole⟩ | ⟨none, -⟩
            · rcases Option.map_eq_some_iff.mp (whole.symm.trans decodes) with ⟨later, isRest, rfl⟩
              have shorter : others.length < (percent :: high :: low :: others).length := by
                simp only [List.length_cons]
                omega
              rcases ih _ shorter (w ++ [UInt8.ofNat (16 * h + l)]) (len - 2) isRest
                (by simp_all) rfl with ⟨n, few, result⟩
              refine ⟨n + 1, by simp only [List.length_cons]; omega, ?_⟩
              have count : len - 2 - UInt32.ofNat (others.length - later.length) =
                  len - UInt32.ofNat ((percent :: high :: low :: others).length -
                    (UInt8.ofNat (16 * h + l) :: later).length) := by
                have := (length_of_percentDecode isRest).1
                rw [show (percent :: high :: low :: others).length -
                  (UInt8.ofNat (16 * h + l) :: later).length = 2 + (others.length - later.length) by
                    simp only [List.length_cons]; omega, UInt32.ofNat_add]
                grind
              rw [Function.iterate_succ_apply, List.cons_append, List.cons_append, List.cons_append,
                Copying.round_escape isHigh isLow, result, count]
              simp
            · cases none.symm.trans decodes
          · rw [percentDecode_plain escape] at decodes
            rcases Option.map_eq_some_iff.mp decodes with ⟨later, isRest, rfl⟩
            have notAt : next ≠ atSign := fun same => absent (same ▸ List.mem_cons_self)
            rcases ih _ (by simp) (w ++ [next]) len isRest (by simp_all) rfl with
              ⟨n, few, result⟩
            refine ⟨n + 1, by simp only [List.length_cons]; omega, ?_⟩
            rw [Function.iterate_succ_apply, List.cons_append,
              Copying.round_plain notAt escape, result]
            simp

/-- The loop does not end when a `%` is not followed by two digits. -/
theorem not_ended (part : Bytes) (fails : percentDecode part = none)
    (absent : atSign ∉ part) (n : Nat) :
    ¬(Copying.round^[n] ⟨part ++ atSign :: rest, w, len⟩).Ended := by
  induction n generalizing part w len with
  | zero =>
      cases part with
      | nil => cases fails
      | cons next others =>
          intro ended
          exact absent (Option.some.inj ended ▸ List.mem_cons_self)
  | succ n ih =>
      cases part with
      | nil => cases fails
      | cons next others =>
          rw [Function.iterate_succ_apply, List.cons_append]
          by_cases escape : next = percent
          · subst escape
            rcases percentDecode_percent others with
              ⟨high, low, others, h, l, rfl, isHigh, isLow, whole⟩ | ⟨-, noDigits⟩
            · rw [List.cons_append, List.cons_append, Copying.round_escape isHigh isLow]
              exact ih others (Option.map_eq_none_iff.mp (whole.symm.trans fails)) (by simp_all)
            · rw [Copying.round_stuck]
              · exact ih (percent :: others) fails absent
              · -- The `@` is no digit either.
                intro high low rest' split
                match others with
                | [] =>
                    cases (List.cons.inj split).1
                    exact .inl (by decide)
                | [first] =>
                    cases (List.cons.inj (List.cons.inj split).2).1
                    exact .inr (by decide)
                | first :: second :: others =>
                    cases (List.cons.inj split).1
                    cases (List.cons.inj (List.cons.inj split).2).1
                    exact noDigits high low others rfl
          · have notAt : next ≠ atSign := fun same => absent (same ▸ List.mem_cons_self)
            rw [Copying.round_plain notAt escape]
            rw [percentDecode_plain escape, Option.map_eq_none_iff] at fails
            exact ih others fails (by simp_all)

theorem specialChars_of_decodes (decodes : percentDecode part = some decoded)
    (absent : atSign ∉ part) :
    Copying.specialChars ⟨part ++ atSign :: rest, w, len⟩ =
      some ⟨atSign :: rest, w ++ decoded, len - UInt32.ofNat (part.length - decoded.length)⟩ := by
  rcases exists_rounds rest w len decodes absent with ⟨n, few, result⟩
  have enough : (part ++ atSign :: rest).length = (part ++ atSign :: rest).length - n + n := by
    rw [List.length_append]
    omega
  have last : Copying.round^[(part ++ atSign :: rest).length] ⟨part ++ atSign :: rest, w, len⟩ =
      ⟨atSign :: rest, w ++ decoded, len - UInt32.ofNat (part.length - decoded.length)⟩ := by
    rw [enough, Function.iterate_add_apply, result]
    have ended : Copying.Ended ⟨atSign :: rest, w ++ decoded,
      len - UInt32.ofNat (part.length - decoded.length)⟩ := rfl
    exact Copying.iterate_of_ended ended _
  rw [Copying.specialChars, last]
  exact if_pos rfl

/-- The loop ends when every `%` is followed by two digits, and otherwise never. -/
theorem ends_iff (absent : atSign ∉ part) :
    (∃ n, (Copying.round^[n] ⟨part ++ atSign :: rest, w, len⟩).Ended) ↔
      ∃ decoded, percentDecode part = some decoded := by
  cases decodes : percentDecode part with
  | none => exact iff_of_false (fun ⟨n, ended⟩ => not_ended part decodes absent n ended) nofun
  | some decoded =>
      rcases exists_rounds rest w len decodes absent with ⟨n, -, result⟩
      exact iff_of_true ⟨n, result ▸ rfl⟩ ⟨decoded, rfl⟩

/-- A result of `MQTTProtocol_specialChars` in the model is an end of the loop. -/
theorem specialChars_isSome_iff (absent : atSign ∉ part) :
    (Copying.specialChars ⟨part ++ atSign :: rest, w, len⟩).isSome ↔
      ∃ n, (Copying.round^[n] ⟨part ++ atSign :: rest, w, len⟩).Ended := by
  rw [ends_iff absent]
  cases decodes : percentDecode part with
  | none =>
      have last (n : Nat) : ¬(Copying.round^[n] ⟨part ++ atSign :: rest, w, len⟩).Ended :=
        not_ended part decodes absent n
      refine iff_of_false ?_ nofun
      rw [Copying.specialChars]
      simp [last]
  | some decoded =>
      refine iff_of_true ?_ ⟨decoded, rfl⟩
      rw [specialChars_of_decodes decodes absent]
      rfl

end Decoding

section Authorization

variable {part rest decoded : Bytes}

/-- The length that is counted down is that of what was decoded. -/
theorem counted (shorter : decoded.length ≤ part.length) :
    UInt32.ofNat part.length - UInt32.ofNat (part.length - decoded.length) =
      UInt32.ofNat decoded.length := by
  rw [← UInt32.ofNat_sub (Nat.sub_le part.length decoded.length)]
  congr 1
  omega

/-- The value for credentials that are not too long. -/
theorem authorization_eq (filler : UInt8) (decodes : percentDecode part = some decoded)
    (absent : atSign ∉ part) (short : decoded.length < 1073741824) :
    authorization filler ⟨part ++ atSign :: rest, [], UInt32.ofNat part.length⟩ =
      some (Base64.encoding decoded ++ [0]) := by
  rcases length_of_percentDecode decodes with ⟨shorter, -⟩
  have longest := (length_of_percentDecode decodes).2
  have length (n : Nat) (fits : n < 4294967296) : (UInt32.ofNat n).toNat = n :=
    UInt32.toNat_ofNat_of_lt' fits
  have size : (UInt32.ofNat part.length + 1).toNat = part.length + 1 := by
    rw [UInt32.toNat_add, length _ (by omega)]
    exact Nat.mod_eq_of_lt (by show part.length + 1 < 4294967296; omega)
  have needed := Base64.encodeLength_eq short
  have outLength := Base64.length_encoding decoded
  have outSize : (Base64.encodeLength (UInt32.ofNat decoded.length) + 1).toNat =
      (Base64.encoding decoded).length + 1 := by
    rw [UInt32.toNat_add, needed]
    exact Nat.mod_eq_of_lt (by show _ + 1 < 4294967296; omega)
  have encoded := Base64.encodeFrom_fits
    (List.replicate ((Base64.encoding decoded).length + 1) filler) decoded 0
    (by rw [List.length_replicate]; omega) (by rw [List.length_replicate]; omega)
  have terminated : Base64.terminator (List.replicate ((Base64.encoding decoded).length + 1) filler)
      (0 + (Base64.encoding decoded).length) = [0] := by
    rw [Base64.terminator, List.length_replicate, if_pos (by omega)]
  rw [terminated, Memory.overwrite, List.drop_eq_nil_of_le (by simp), List.append_nil,
    List.take_zero,
    List.nil_append] at encoded
  simp only [authorization, specialChars_of_decodes decodes absent, List.nil_append,
    counted shorter,
    Option.bind_some, size, length decoded.length (by omega), outSize]
  rw [if_pos ⟨Nat.lt_succ_of_le shorter, Nat.le_refl _⟩, List.take_length, Base64.encode, encoded,
    Option.map_some]

/-- From 2^30 decoded bytes on, the buffer for the value is too small, and what follows the value is
whatever was in it. -/
theorem authorization_ne (decodes : percentDecode part = some decoded) (absent : atSign ∉ part)
    (long : 1073741824 ≤ decoded.length) (value : Bytes) :
    authorization 1 ⟨part ++ atSign :: rest, [], UInt32.ofNat part.length⟩ ≠
      some (value ++ [0]) := by
  rcases length_of_percentDecode decodes with ⟨shorter, -⟩
  intro result
  simp only [authorization, specialChars_of_decodes decodes absent, List.nil_append,
    counted shorter,
    Option.bind_some] at result
  split at result
  next fits =>
    have small : decoded.length < 4294967296 := by
      have := (UInt32.ofNat part.length + 1).toNat_lt
      omega
    have length : (UInt32.ofNat decoded.length).toNat = decoded.length :=
      UInt32.toNat_ofNat_of_lt' small
    have needed := Base64.toNat_encodeLength (UInt32.ofNat decoded.length)
    rw [length] at needed
    have outSize : (Base64.encodeLength (UInt32.ofNat decoded.length) + 1).toNat =
        (Base64.encodeLength (UInt32.ofNat decoded.length)).toNat + 1 := by
      rw [UInt32.toNat_add]
      exact Nat.mod_eq_of_lt (by show _ + 1 < 4294967296; omega)
    have outLength := Base64.length_encoding decoded
    rw [length, List.take_length, outSize] at result
    rcases Option.map_eq_some_iff.mp result with ⟨⟨ret, out⟩, encoded, same⟩
    rcases Base64.encodeFrom_full
      (List.replicate ((Base64.encodeLength (UInt32.ofNat decoded.length)).toNat + 1) 1) decoded
      (Nat.zero_le _) rfl (by rw [List.length_replicate]; omega)
      (.inr (by rw [List.length_replicate]; omega)) with ⟨out', filled, sameLength, untouched⟩
    cases encoded.symm.trans filled
    -- The last byte is not stored.
    have isValue : out = value ++ [0] := same
    rw [isValue, List.length_append, List.length_replicate, List.length_singleton] at sameLength
    have last : (value.length + 1) / 4 * 4 = value.length := by omega
    rw [isValue, ← sameLength, List.length_replicate, last, List.drop_left',
      List.drop_replicate] at untouched
    · simp at untouched
    · rfl
  next => cases result

end Authorization

/-- Whether there is anything to decode. -/
theorem begun_cases (source : Bytes) :
    begun source = none ∨
      ∃ part rest, atSign ∉ part ∧ part ≠ [] ∧
        begun source = some ⟨part ++ atSign :: rest, [], UInt32.ofNat part.length⟩ := by
  by_cases hasAt : atSign ∈ source
  · rcases List.eq_append_cons_of_mem hasAt with ⟨part, rest, rfl, absent⟩
    by_cases some' : UInt32.ofNat part.length > 0
    · refine .inr ⟨part, rest, absent, ?_, ?_⟩
      · rintro rfl
        exact absurd some' (by decide)
      · rw [begun, Connect.strchr_append absent, Option.bind_some, if_pos some']
    · rw [begun, Connect.strchr_append absent, Option.bind_some, if_neg some']
      exact .inl rfl
  · rw [begun, Connect.strchr_eq_none hasAt]
    exact .inl rfl

theorem takeWhile_at {part : Bytes} (rest : Bytes) (absent : atSign ∉ part) :
    (part ++ atSign :: rest).takeWhile (· ≠ atSign) = part := by
  rw [List.takeWhile_append_of_pos]
  · simp
  · intro char mem
    simpa using fun same : char = atSign => absent (same ▸ mem)

/-- The credentials are decoded just when what is decoded stands for the same characters. -/
theorem decodes_iff (schemePrefix : Bytes) (string : ProxyString) :
    Decodes schemePrefix string ↔ Decodable schemePrefix string := by
  unfold Decodable ProxyString.copied
  rcases begun_cases (skipPrefix string.bytes schemePrefix) with none
    | ⟨part, rest, absent, nonempty, isBegun⟩
  · rw [none]
    have result (filler : UInt8) : ∃ dest,
        setHTTPProxy filler string.bytes schemePrefix = some (dest, Option.none) := by
      rw [setHTTPProxy, none]
      exact ⟨_, rfl⟩
    constructor
    · intro decodes
      refine ⟨[], rfl, fun other isOther => ⟨?_, by decide⟩⟩
      rcases decodes.value other isOther 0 with ⟨dest, value⟩
      rcases result 0 with ⟨dest', noValue⟩
      by_contra some'
      rw [noValue, if_neg some'] at value
      cases value
    · rintro ⟨decoded, isEmpty, same⟩
      cases isEmpty
      refine ⟨fun copying begins => absurd (none.symm.trans begins) nofun, ?_⟩
      intro other isOther filler
      rw [(same other isOther).1]
      exact result filler
  · rw [isBegun]
    simp only [takeWhile_at rest absent]
    have result (filler : UInt8) : setHTTPProxy filler string.bytes schemePrefix =
        (authorization filler ⟨part ++ atSign :: rest, [], UInt32.ofNat part.length⟩).map
          fun value =>
          (destination (skipPrefix string.bytes schemePrefix), some value) := by
      rw [setHTTPProxy, isBegun]
    constructor
    · intro decodes
      rcases (ends_iff absent).mp (decodes.ends _ isBegun) with ⟨decoded, isDecoded⟩
      refine ⟨decoded, isDecoded, fun other isOther => ?_⟩
      rcases decodes.value other isOther 1 with ⟨dest, value⟩
      rw [result 1] at value
      rcases Option.map_eq_some_iff.mp value with ⟨buffer, isBuffer, same⟩
      have some' : other ≠ [] := by
        rintro rfl
        cases same
      rw [if_neg some'] at same
      cases same
      have short : decoded.length < 1073741824 := by
        by_contra long
        exact authorization_ne isDecoded absent (by omega) _ isBuffer
      rw [authorization_eq 1 isDecoded absent short] at isBuffer
      have encodings := List.append_cancel_right (Option.some.inj isBuffer)
      exact ⟨(Base64.encoding_injective encodings).symm, short⟩
    · rintro ⟨decoded, isDecoded, same⟩
      refine ⟨?_, ?_⟩
      · intro copying begins
        cases isBegun.symm.trans begins
        exact (ends_iff absent).mpr ⟨decoded, isDecoded⟩
      · intro other isOther filler
        rcases same other isOther with ⟨rfl, short⟩
        have some' : other ≠ [] := by
          rintro rfl
          have := (length_of_percentDecode isDecoded).2
          have := List.length_pos_iff.mpr nonempty
          simp only [List.length_nil] at *
          omega
        rw [result, authorization_eq filler isDecoded absent short, if_neg some']
        exact ⟨_, rfl⟩

/-- Where the prefix is in front, or not there at all, the credentials are what is decoded. -/
theorem decodable_iff_of_isPrefix {schemePrefix : Bytes} {string : ProxyString}
    (inFront : schemePrefix <:+: string.bytes → schemePrefix <+: string.bytes)
    (short : (string.credentials schemePrefix).length < 4294967296)
    (hasAt : atSign ∈ skipPrefix string.bytes schemePrefix) :
    Decodable schemePrefix string ↔
      ∃ decoded, percentDecode (string.credentials schemePrefix) = some decoded ∧
        decoded.length < 1073741824 := by
  have same : string.credentials schemePrefix =
      (skipPrefix string.bytes schemePrefix).takeWhile (· ≠ atSign) := by
    by_cases front : schemePrefix <+: string.bytes
    · rw [ProxyString.credentials, skipPrefix, if_pos front, if_pos front.isInfix]
    · rw [ProxyString.credentials, skipPrefix, if_neg front,
        if_neg fun inside => front (inFront inside)]
  rcases List.eq_append_cons_of_mem hasAt with ⟨part, rest, split, absent⟩
  rw [split, takeWhile_at rest absent] at same
  rw [same] at short
  have copied : string.copied schemePrefix = part := by
    have length : (UInt32.ofNat part.length).toNat = part.length := UInt32.toNat_ofNat_of_lt' short
    rw [ProxyString.copied, begun, split, Connect.strchr_append absent, Option.bind_some]
    by_cases nonempty : part = []
    · subst nonempty
      rfl
    · have pos := List.length_pos_iff.mpr nonempty
      rw [if_pos (UInt32.lt_iff_toNat_lt.mpr (by rw [length]; exact pos))]
      exact takeWhile_at rest absent
  rw [Decodable, copied, same]
  constructor
  · rintro ⟨decoded, isDecoded, all⟩
    exact ⟨decoded, isDecoded, (all decoded isDecoded).2⟩
  · rintro ⟨decoded, isDecoded, few⟩
    refine ⟨decoded, isDecoded, fun other isOther => ?_⟩
    cases isDecoded.symm.trans isOther
    exact ⟨rfl, few⟩

/-- The string `%zz@h`: no branch of the loop advances. -/
theorem not_decodes : ¬∀ (schemePrefix : Bytes) (string : ProxyString),
    Decodes schemePrefix string := by
  intro always
  have decodes := always [0x68, 0x74, 0x74, 0x70, 0x3A, 0x2F, 0x2F]
    ⟨[0x25, 0x7A, 0x7A, 0x40, 0x68], by decide⟩
  have ends := decodes.ends ⟨[0x25, 0x7A, 0x7A] ++ atSign :: [0x68], [], 3⟩ rfl
  rcases (ends_iff (by decide)).mp ends with ⟨decoded, isDecoded⟩
  cases isDecoded

end Proxy

end Paho
