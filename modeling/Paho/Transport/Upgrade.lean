import Paho.Codec.Base64
import Paho.Codec.Sha1
import Paho.Library.TextSearch
import Paho.Transport.WireFrames

/-!
# The answer to the upgrade request

`WebSocket_upgrade` in as many calls as it takes until it does not return `TCPSOCKET_INTERRUPTED`,
while the response arrives in pieces. An access outside of a buffer has no result.
-/

namespace Paho

open Sockets

namespace WebSocket

/-- The bytes of a string literal. -/
def ascii (string : String) : Bytes :=
  string.toList.map fun c => UInt8.ofNat c.toNat

/-- `TCPSOCKET_INTERRUPTED`. -/
def tcpSocketInterrupted : Rc := -22

/-- `ws_guid`. -/
def ws_guid : Bytes :=
  ascii "258EAFA5-E914-47DA-95CA-C5AB0DC85B11"

def newline : UInt8 := 0x0A

def colon : UInt8 := 0x3A

def space : UInt8 := 0x20

/-- The end of the header of a response. -/
def headerEnd : Bytes := [0x0D, 0x0A, 0x0D, 0x0A]

/-- `tolower`. -/
def tolower (c : UInt8) : UInt8 :=
  if 0x41 ≤ c ∧ c ≤ 0x5A then c + 0x20 else c

/-- Whether `strncmp` returns 0 for the first characters of a buffer and those of a string. -/
def begins (buffer : Bytes) (string : String) : Bool :=
  TextSearch.agree 0 buffer (ascii string ++ [0]) (ascii string).length = some true

/-- `WebSocket_strcasefind`: where the string is found. -/
def strcasefind (str : Bytes) : Bytes → Option Nat
  | [] => none
  | c :: buf =>
      if (c :: buf).length < str.length then none
      else if TextSearch.agree 0 ((c :: buf).map tolower) (str.map tolower ++ [0]) str.length =
          some true then
        some 0
      else (strcasefind str buf).map (· + 1)

/-- What is in front of the `'\n'` that `memchr` finds. -/
def lineOf (text : Bytes) : Option Bytes :=
  if newline ∈ text then some (text.takeWhile (· ≠ newline)) else none

/-- The loop that skips colons and spaces: `p` and `hash_len`. -/
def skipColons : Bytes → UInt64 → Bytes × UInt64
  | [], hash_len => ([], hash_len)
  | c :: p, hash_len =>
      if c = colon ∨ c = space then skipColons p (hash_len - 1) else (c :: p, hash_len)

/-- `ws_key`, after the key that the server has to answer with was put into it. `buffer` is the
block of the `SHA_CTX` before it is set. -/
def expectedKey (order : SHA1.ByteOrder) (buffer : SHA1.Block) (websocket_key : Bytes) :
    Option Bytes :=
  let text := (websocket_key ++ ws_guid).take 61
  let ws_key := Memory.overwrite (List.replicate 62 0) 0 (text ++ [0])
  let sha_hash := (SHA1.final order (SHA1.update order (SHA1.init buffer) text)).2
  (Base64.encode ws_key sha_hash).map Prod.snd

/-- The check for `Connection` and `Upgrade`. -/
def checkConnection (read_buf : Bytes) : Option Bool :=
  match strcasefind (ascii "Connection") read_buf with
  | none => some false
  | some p =>
      (lineOf (read_buf.drop p)).map fun line => (strcasefind (ascii "Upgrade") line).isSome

/-- The check of the hash. -/
def checkHash (ws_key read_buf : Bytes) : Option Bool :=
  match strcasefind (ascii "sec-websocket-accept") read_buf with
  | none => some false
  | some p =>
      (lineOf (read_buf.drop p)).bind fun line =>
        match line.idxOf? colon with
        | none => some false
        | some q =>
            match skipColons ((read_buf.drop p).drop q) (UInt64.ofNat (line.length - q) - 1) with
            | (p, hash_len) => TextSearch.agree 0 p ws_key hash_len.toNat

/-- The second read of `WebSocket_upgrade`, and what depends on it. A `read_buf` of `NULL` is
searched for nothing. -/
def readResponse (ws_key : Bytes) (t : Transport) (net : Net) (rc : Rc) :
    Option (Rc × Net × Transport) :=
  match getRawSocketData t net 1024 rc with
  | (read_buf, rc, t) =>
      let read_buf := read_buf.getD []
      if rc = socketError then some (socketError, net, t)
      else if 4 < read_buf.length ∧ read_buf.drop (read_buf.length - 4) ≠ headerEnd then
        some (socketError, net, t)
      else
        (checkConnection read_buf).bind fun p =>
          (if p then checkHash ws_key read_buf else some false).map fun p =>
            let rc := if p then 1 else socketError
            let net := { net with websocket := net.websocket || p, websocket_key := none }
            match getRawSocketData t net 0 rc with
            | (_, rc, t) => (rc, net, t)

/-- `WebSocket_upgrade`. Between its two reads more may arrive. -/
def upgrade (order : SHA1.ByteOrder) (buffer : SHA1.Block) (t : Transport) (net : Net)
    (meanwhile : Transport → Transport) : Option (Rc × Net × Transport) :=
  match net.websocket_key with
  | none => some (socketError, net, t)
  | some websocket_key =>
      (expectedKey order buffer websocket_key).bind fun ws_key =>
        match getRawSocketData t net 12 socketError with
        | (read_buf, rc, t) =>
            let read_buf := read_buf.getD []
            if rc = socketError then some (socketError, net, t)
            else if read_buf.length < 12 then some (tcpSocketInterrupted, net, t)
            else if begins read_buf "HTTP/1.1" && !begins (read_buf.drop 9) "101" then
              some (socketError, net, t)
            else if begins read_buf "HTTP/1.1 101" then
              readResponse ws_key (meanwhile t) net rc
            else some (rc, net, t)

/-- What there is of the response at a call: the bytes that have arrived since the call before,
those that arrive while the call is between its two reads, and how the connection is. -/
structure UpgradeCall where
  arrives : Bytes
  meanwhile : Bytes := []
  peer : Peer := .connected
  deriving DecidableEq, Repr

/-- Bytes arrive at a socket. -/
def arrive (socket : SOCKET) (bytes : Bytes) (peer : Peer) (t : Transport) : Transport :=
  { t with
    sockets :=
      { t.sockets with
        kernel :=
          Function.update t.sockets.kernel socket
            ⟨(t.sockets.kernel socket).arrived ++ bytes, peer⟩ } }

/-- The calls of `WebSocket_upgrade`, up to the first one with another result than
`TCPSOCKET_INTERRUPTED`. -/
def upgrades (order : SHA1.ByteOrder) (buffer : SHA1.Block) (t : Transport) (net : Net) :
    List UpgradeCall → Option (Rc × Net × Transport)
  | [] => some (tcpSocketInterrupted, net, t)
  | call :: calls =>
      (upgrade order buffer (arrive net.socket call.arrives call.peer t) net
        (arrive net.socket call.meanwhile call.peer)).bind fun (rc, net, t) =>
          if rc = tcpSocketInterrupted then upgrades order buffer t net calls
          else some (rc, net, t)

/-! ## The checks of the text -/

section Texts

variable {text line value expected : Bytes} {name : Bytes}

theorem tolower_eq_zero (c : UInt8) : tolower c = 0 ↔ c = 0 := by
  unfold tolower
  split
  next capital =>
    have low := UInt8.le_iff_toNat_le.mp capital.1
    have high := UInt8.le_iff_toNat_le.mp capital.2
    rw [← UInt8.toNat_inj, ← UInt8.toNat_inj, UInt8.toNat_add]
    change 65 ≤ c.toNat at low
    change c.toNat ≤ 90 at high
    change (c.toNat + 32) % 256 = 0 ↔ c.toNat = 0
    omega
  next => rfl

theorem zero_notMem_map_tolower (clean : 0 ∉ name) : 0 ∉ name.map tolower := by
  intro mem
  rcases List.mem_map.mp mem with ⟨c, isMem, isZero⟩
  exact clean ((tolower_eq_zero c).mp isZero ▸ isMem)

theorem begins_iff {buffer : Bytes} {string : String} (clean : 0 ∉ ascii string)
    (enough : (ascii string).length ≤ buffer.length) :
    begins buffer string = true ↔ ascii string <+: buffer := by
  rw [begins, decide_eq_true_iff]
  exact TextSearch.agree_pattern clean enough

/-- `WebSocket_strcasefind` finds the first place, in lower case. -/
theorem strcasefind_eq (nonempty : name ≠ []) (clean : 0 ∉ name) :
    strcasefind name text = TextSearch.place (name.map tolower) (text.map tolower) := by
  induction text with
  | nil => rw [strcasefind, List.map_nil, TextSearch.place, if_neg (by simpa using nonempty)]
  | cons c text ih =>
      rw [strcasefind]
      by_cases short : (c :: text).length < name.length
      · rw [if_pos short]
        symm
        apply TextSearch.place_eq_none_iff.mpr
        intro inside
        have := inside.length_le
        rw [List.length_map, List.length_map] at this
        omega
      · have agrees : TextSearch.agree 0 ((c :: text).map tolower) (name.map tolower ++ [0])
            name.length = some true ↔ name.map tolower <+: (c :: text).map tolower := by
          have := @TextSearch.agree_pattern _ _ (name.map tolower) ((c :: text).map tolower) [0] 0
            (zero_notMem_map_tolower clean)
            (by rw [List.length_map, List.length_map]; exact Nat.le_of_not_lt short)
          rwa [List.length_map] at this
        rw [if_neg short, ih, List.map_cons, TextSearch.place, ← List.map_cons]
        by_cases here : name.map tolower <+: (c :: text).map tolower
        · rw [if_pos here, if_pos (agrees.mpr here)]
        · rw [if_neg here, if_neg (fun found => here (agrees.mp found))]

/-- The rest of the line from the first place on where a name stands, whatever the case of its
letters. -/
def lineFrom (name text : Bytes) : Option Bytes :=
  (TextSearch.place (name.map tolower) (text.map tolower)).map fun p =>
    (text.drop p).takeWhile (· ≠ newline)

/-- What is compared as the hash in a line: it follows the first colon, and any colons and spaces
behind that, up to the last character of the line, which is not looked at. -/
def HashPart (line value : Bytes) : Prop :=
  ∃ front separators last, line = front ++ colon :: (separators ++ (value ++ [last])) ∧
    colon ∉ front ∧ (∀ c ∈ separators, c = colon ∨ c = space) ∧
    ∀ c ∈ (value ++ [last]).head?, c ≠ colon ∧ c ≠ space

/-- A text in which `WebSocket_upgrade` finds what it looks for. -/
structure Answers (expected text : Bytes) : Prop where
  ends : headerEnd <:+ text
  long : 4 < text.length
  upgrade : ∃ line ∈ lineFrom (ascii "Connection") text,
    (ascii "Upgrade").map tolower <:+: line.map tolower
  hash : ∃ line ∈ lineFrom (ascii "sec-websocket-accept") text, ∃ value, HashPart line value ∧
    (value <+: expected ∨ expected ++ [0] <+: value)

/-- A text that ends with a newline has one behind every place. -/
theorem lineOf_drop (ends : headerEnd <:+ text) {p : Nat} (inside : p < text.length) :
    ∃ after, text.drop p = (text.drop p).takeWhile (· ≠ newline) ++ newline :: after ∧
      lineOf (text.drop p) = some ((text.drop p).takeWhile (· ≠ newline)) := by
  rcases ends with ⟨front, rfl⟩
  have mem : newline ∈ (front ++ headerEnd).drop p := by
    have last : front ++ headerEnd = (front ++ [0x0D, 0x0A, 0x0D]) ++ [newline] := by
      simp [headerEnd, newline]
    rw [last] at inside ⊢
    rw [List.length_append, List.length_singleton] at inside
    rw [List.drop_append_of_le_length (Nat.le_of_lt_succ inside)]
    exact List.mem_append_right _ (List.mem_singleton_self newline)
  have whole := List.takeWhile_append_dropWhile (p := (· ≠ newline))
    (l := (front ++ headerEnd).drop p)
  cases rest : ((front ++ headerEnd).drop p).dropWhile (· ≠ newline) with
  | nil =>
      have all := List.dropWhile_eq_nil_iff.mp rest newline mem
      simp at all
  | cons c after =>
      have isNewline : c = newline := by
        have := List.head?_dropWhile_not (· ≠ newline) ((front ++ headerEnd).drop p)
        rw [rest] at this
        simpa using this
      refine ⟨after, ?_, if_pos mem⟩
      rw [rest, isNewline] at whole
      exact whole.symm

theorem place_lt {p : Nat} (nonempty : name ≠ [])
    (found : TextSearch.place (name.map tolower) (text.map tolower) = some p) :
    p < text.length := by
  rcases TextSearch.place_eq_some_iff.mp found with ⟨-, there, -⟩
  have length := there.length_le
  have some_name := List.length_pos_of_ne_nil nonempty
  rw [List.length_map, List.length_drop, List.length_map] at length
  omega

theorem skipColons_append {separators : Bytes}
    (isSeparator : ∀ c ∈ separators, c = colon ∨ c = space) (hash_len : UInt64)
    (ends : ∀ c ∈ value.head?, c ≠ colon ∧ c ≠ space) :
    skipColons (separators ++ value) hash_len =
      (value, hash_len - UInt64.ofNat separators.length) := by
  induction separators generalizing hash_len with
  | nil =>
      cases value with
      | nil => simp [skipColons]
      | cons c value =>
          have stop := ends c rfl
          rw [List.nil_append, skipColons, if_neg (not_or.mpr stop)]
          simp
  | cons c separators ih =>
      rw [List.cons_append, skipColons, if_pos (isSeparator c List.mem_cons_self),
        ih fun c mem => isSeparator c (List.mem_cons_of_mem _ mem)]
      rw [List.length_cons, UInt64.ofNat_add, Prod.mk.injEq]
      refine ⟨rfl, ?_⟩
      change hash_len - 1 - _ = hash_len - (_ + 1)
      grind

end Texts

section Checks

variable {text line value expected ws_key after more : Bytes} {p : Nat}

/-- The check for `Connection` and `Upgrade` looks at the first line on from the name. -/
theorem checkConnection_spec (ends : headerEnd <:+ text) :
    ∃ b, checkConnection text = some b ∧
      (b = true ↔ ∃ line ∈ lineFrom (ascii "Connection") text,
        (ascii "Upgrade").map tolower <:+: line.map tolower) := by
  rw [checkConnection, strcasefind_eq (by decide) (by decide), lineFrom]
  cases found : TextSearch.place ((ascii "Connection").map tolower) (text.map tolower) with
  | none =>
      refine ⟨false, rfl, ?_⟩
      simp
  | some p =>
      rcases lineOf_drop ends (place_lt (by decide) found) with ⟨after, -, isLine⟩
      refine ⟨_, by simp only [isLine, Option.map_some]; rfl, ?_⟩
      rw [strcasefind_eq (by decide) (by decide)]
      simp only [Option.map_some, Option.mem_some_iff, exists_eq_left']
      rw [← Option.ne_none_iff_isSome, ne_eq, TextSearch.place_eq_none_iff, not_not]

/-- Behind the first colon of a line are separators, and then what is compared, or nothing. -/
theorem exists_part {front tail : Bytes} (isFront : colon ∉ front) :
    (∃ value, HashPart (front ++ colon :: tail) value) ∨ ∀ c ∈ tail, c = colon ∨ c = space := by
  by_cases all : ∀ c ∈ tail, c = colon ∨ c = space
  · exact .inr all
  · left
    let isSeparator : UInt8 → Bool := fun c => decide (c = colon ∨ c = space)
    have split := List.takeWhile_append_dropWhile (p := isSeparator) (l := tail)
    have some_left : tail.dropWhile isSeparator ≠ [] := by
      intro nothing
      apply all
      intro c mem
      exact of_decide_eq_true (List.dropWhile_eq_nil_iff.mp nothing c mem)
    refine ⟨(tail.dropWhile isSeparator).dropLast, front, tail.takeWhile isSeparator,
      (tail.dropWhile isSeparator).getLast some_left, ?_, isFront, ?_, ?_⟩
    · rw [List.dropLast_append_getLast, split]
    · intro c mem
      have isTrue : isSeparator c = true := List.mem_takeWhile_imp mem
      exact of_decide_eq_true isTrue
    · intro c isHead
      rw [List.dropLast_append_getLast] at isHead
      have stops := List.head?_dropWhile_not isSeparator tail
      rw [Option.mem_def.mp isHead] at stops
      have isFalse : isSeparator c = false := by simpa using stops
      exact not_or.mp (of_decide_eq_false isFalse)

theorem idxOf?_colon {front tail : Bytes} (isFront : colon ∉ front) :
    (front ++ colon :: tail).idxOf? colon = some front.length := by
  induction front with
  | nil => simp [List.idxOf?_cons]
  | cons c front ih =>
      rcases not_or.mp (fun mem => isFront (List.mem_cons.mpr mem)) with ⟨other, isFront'⟩
      rw [List.cons_append, List.idxOf?_cons, ih isFront']
      simp [Ne.symm other]

/-- Where the hash is looked for. -/
structure HashLine (text line after : Bytes) (p : Nat) : Prop where
  found : strcasefind (ascii "sec-websocket-accept") text = some p
  isLine : lineOf (text.drop p) = some line
  isText : text.drop p = line ++ newline :: after
  short : text.length ≤ 1024

theorem HashLine.length_lt (hash : HashLine text line after p) : line.length < 1024 := by
  have := congrArg List.length hash.isText
  rw [List.length_drop, List.length_append, List.length_cons] at this
  have := hash.short
  omega

/-- What is compared, and how much of it. -/
theorem HashLine.checkHash_skip (hash : HashLine text line after p) {front tail : Bytes}
    (isFront : colon ∉ front) (parts : line = front ++ colon :: tail) {separators rest : Bytes}
    (isTail : tail = separators ++ rest)
    (isSeparator : ∀ c ∈ separators, c = colon ∨ c = space)
    (ends : ∀ c ∈ rest.head?, c ≠ colon ∧ c ≠ space) :
    checkHash ws_key text = TextSearch.agree 0 (rest ++ newline :: after) ws_key
      (UInt64.ofNat rest.length - 1).toNat := by
  have behind : (text.drop p).drop front.length =
      (colon :: separators) ++ (rest ++ newline :: after) := by
    rw [hash.isText, parts, isTail, List.append_assoc, List.drop_left]
    simp
  have ends' : ∀ c ∈ (rest ++ newline :: after).head?, c ≠ colon ∧ c ≠ space := by
    cases rest with
    | nil =>
        intro c isHead
        cases isHead
        decide
    | cons c rest => exact ends
  have isSeparator' : ∀ c ∈ colon :: separators, c = colon ∨ c = space := by
    intro c mem
    rcases List.mem_cons.mp mem with rfl | mem
    · exact .inl rfl
    · exact isSeparator c mem
  have length : line.length - front.length = 1 + separators.length + rest.length := by
    rw [parts, isTail, List.length_append, List.length_cons, List.length_append]
    omega
  simp only [checkHash, hash.found, hash.isLine, Option.bind_some]
  rw [parts, idxOf?_colon isFront, ← parts]
  simp only [behind, skipColons_append isSeparator' _ ends', length, List.length_cons]
  congr 2
  rw [UInt64.ofNat_add, UInt64.ofNat_add, UInt64.ofNat_add]
  grind

theorem HashLine.checkHash_part (hash : HashLine text line after p) (part : HashPart line value) :
    ∃ more, checkHash ws_key text = TextSearch.agree 0 (value ++ more) ws_key value.length := by
  have short := hash.length_lt
  rcases part with ⟨front, separators, last, rfl, isFront, isSeparator, ends⟩
  refine ⟨last :: newline :: after, ?_⟩
  rw [hash.checkHash_skip isFront rfl rfl isSeparator ends, List.append_assoc,
    List.singleton_append]
  congr 1
  rw [List.length_append, List.length_cons, List.length_append, List.length_append] at short
  rw [List.length_append, List.length_singleton, UInt64.ofNat_add]
  have same : UInt64.ofNat value.length + UInt64.ofNat 1 - 1 = UInt64.ofNat value.length := by
    grind
  rw [same, UInt64.toNat_ofNat_of_lt']
  change value.length < 18446744073709551616
  omega

/-- The check of the hash, when the line that it looks at is there. -/
theorem HashLine.checkHash_spec (hash : HashLine text line after p) {rest : Bytes}
    (isKey : ws_key = expected ++ 0 :: rest) (clean : 0 ∉ expected) (noNewline : newline ∉ expected)
    (nonempty : expected ≠ []) :
    ∃ b, checkHash ws_key text = some b ∧
      (b = true ↔ ∃ value, HashPart line value ∧
        (value <+: expected ∨ expected ++ [0] <+: value)) := by
  have compared : ∀ value, HashPart line value →
      ∃ b, checkHash ws_key text = some b ∧
        (b = true ↔ value <+: expected ∨ expected ++ [0] <+: value) := by
    intro value part
    rcases hash.checkHash_part part with ⟨more, result⟩
    rw [result, isKey]
    have compares : TextSearch.agree 0 (value ++ more) (expected ++ 0 :: rest)
      value.length ≠ none :=
      TextSearch.agree_ne_none clean
    have agrees : TextSearch.agree 0 (value ++ more) (expected ++ 0 :: rest) value.length =
        some true ↔ value <+: expected ∨ expected ++ [0] <+: value := TextSearch.agree_iff clean
    rcases Option.ne_none_iff_exists'.mp compares with ⟨b, isB⟩
    refine ⟨b, isB, ?_⟩
    rw [← agrees, isB, Option.some_inj]
  by_cases hasPart : ∃ value, HashPart line value
  · rcases hasPart with ⟨value, part⟩
    rcases compared value part with ⟨b, isB, iff⟩
    refine ⟨b, isB, fun isTrue => ⟨value, part, iff.mp isTrue⟩, ?_⟩
    rintro ⟨other, part', agrees⟩
    rcases compared other part' with ⟨b', isB', iff'⟩
    rw [isB] at isB'
    cases isB'
    exact iff'.mpr agrees
  · refine ⟨false, ?_, iff_of_false Bool.false_ne_true fun ⟨value, part, _⟩ =>
      hasPart ⟨value, part⟩⟩
    by_cases hasColon : colon ∈ line
    · rcases List.eq_append_cons_of_mem hasColon with ⟨front, tail, parts, isFront⟩
      rcases @exists_part front tail isFront with ⟨value, part⟩ | separators
      · exact absurd ⟨value, parts ▸ part⟩ hasPart
      · rcases List.exists_cons_of_ne_nil nonempty with ⟨c, expected', rfl⟩
        have different : newline ≠ c := by
          rintro rfl
          exact noNewline List.mem_cons_self
        rw [hash.checkHash_skip isFront parts (List.append_nil tail).symm separators
          (by simp), isKey]
        change TextSearch.agree 0 (newline :: after) (c :: (expected' ++ 0 :: rest))
          18446744073709551615 = some false
        rw [TextSearch.agree, if_pos different]
    · simp only [checkHash, hash.found, hash.isLine, Option.bind_some,
        List.idxOf?_eq_none_iff.mpr hasColon]

/-- The checks find what `WebSocket_upgrade` looks for. -/
theorem checks_spec (ends : headerEnd <:+ text) (short : text.length ≤ 1024) {rest : Bytes}
    (isKey : ws_key = expected ++ 0 :: rest) (clean : 0 ∉ expected) (noNewline : newline ∉ expected)
    (nonempty : expected ≠ []) :
    ∃ b, checkHash ws_key text = some b ∧
      (b = true ↔ ∃ line ∈ lineFrom (ascii "sec-websocket-accept") text, ∃ value,
        HashPart line value ∧ (value <+: expected ∨ expected ++ [0] <+: value)) := by
  have sameFind := @strcasefind_eq text (ascii "sec-websocket-accept") (by decide) (by decide)
  cases found : TextSearch.place ((ascii "sec-websocket-accept").map tolower)
      (text.map tolower) with
  | none =>
      rw [found] at sameFind
      refine ⟨false, ?_, ?_⟩
      · simp only [checkHash, sameFind]
      · simp [lineFrom, found]
  | some p =>
      rcases lineOf_drop ends (place_lt (by decide) found) with ⟨after, isText, isLine⟩
      rcases HashLine.checkHash_spec ⟨sameFind.trans found, isLine, isText, short⟩ isKey clean
        noNewline nonempty with ⟨b, isB, iff⟩
      refine ⟨b, isB, iff.trans ?_⟩
      rw [lineFrom, found]
      simp

end Checks

/-- What the server has to send back for a key. -/
def acceptOf (websocket_key : Bytes) : Bytes :=
  Base64.encoding (SecureHash.digest (websocket_key ++ ws_guid))

theorem length_acceptOf (websocket_key : Bytes) : (acceptOf websocket_key).length = 28 := by
  rw [acceptOf, Base64.length_encoding, SecureHash.length_digest]

theorem clean_acceptOf (websocket_key : Bytes) :
    0 ∉ acceptOf websocket_key ∧ newline ∉ acceptOf websocket_key := by
  have others : ∀ c ∈ Base64.alphabet ++ [Base64.padding], c ≠ 0 ∧ c ≠ newline := by
    decide +kernel
  constructor
  · intro mem
    refine (others 0 ?_).1 rfl
    simpa using Base64.mem_encoding mem
  · intro mem
    refine (others newline ?_).2 rfl
    simpa using Base64.mem_encoding mem

/-- `ws_key` holds it as a string. -/
theorem expectedKey_eq (order : SHA1.ByteOrder) (buffer : SHA1.Block) {websocket_key : Bytes}
    (isKey : websocket_key.length = 24) :
    ∃ rest, expectedKey order buffer websocket_key =
      some (acceptOf websocket_key ++ 0 :: rest) := by
  have length : (websocket_key ++ ws_guid).length = 60 := by
    rw [List.length_append, isKey]
    rfl
  have whole : (websocket_key ++ ws_guid).take 61 = websocket_key ++ ws_guid :=
    List.take_of_length_le (by omega)
  have hash := SHA1.final_updates order buffer [websocket_key ++ ws_guid]
    (by rw [List.flatten_singleton, length]; decide)
  rw [List.foldl_cons, List.foldl_nil, List.flatten_singleton] at hash
  have capacity : (Memory.overwrite (List.replicate 62 (0 : UInt8)) 0
      (websocket_key ++ ws_guid ++ [0])).length = 62 := by
    rw [Memory.length_overwrite]
    · exact List.length_replicate
    · rw [List.length_append, length]
      decide
  generalize isOut : Memory.overwrite (List.replicate 62 (0 : UInt8)) 0
    (websocket_key ++ ws_guid ++ [0]) = out at capacity
  have encoded := Base64.encodeFrom_fits out (SecureHash.digest (websocket_key ++ ws_guid)) 0
    (by rw [← acceptOf, length_acceptOf, capacity]; decide) (by rw [capacity]; decide)
  rw [← acceptOf, length_acceptOf, Base64.terminator, capacity, if_pos (by decide)] at encoded
  refine ⟨out.drop 29, ?_⟩
  rw [expectedKey, whole, hash, isOut, Base64.encode, encoded]
  simp [Memory.overwrite, length_acceptOf]

/-! ## The reads -/

/-- All that has been taken off a socket has been read, and `arrived` follows. -/
structure Spent (t : Transport) (socket : SOCKET) (arrived : Bytes) (peer : Peer) : Prop where
  idle : t.sockets.Idle
  noData : (t.sockets.queue socket).buf = []
  position : t.frame_buffer_index = t.frame_buffer.length
  arrived : (t.sockets.kernel socket).arrived = arrived
  peer : (t.sockets.kernel socket).peer = peer

section Reads

variable {t : Transport} {net : Net} {socket : SOCKET} {arrived : Bytes} {peer : Peer} {n : Nat}

theorem kernel_arrive (bytes : Bytes) :
    (arrive socket bytes peer t).sockets.kernel socket =
      ⟨(t.sockets.kernel socket).arrived ++ bytes, peer⟩ :=
  Function.update_self ..

/-- Bytes that arrive are behind those that were there. -/
theorem Spent.arrive (spent : Spent t socket arrived peer) (bytes : Bytes) (peer' : Peer) :
    Spent (arrive socket bytes peer' t) socket (arrived ++ bytes) peer' := by
  refine ⟨⟨spent.idle.distinct, spent.idle.default⟩, spent.noData, spent.position, ?_, ?_⟩
  · rw [kernel_arrive, spent.arrived]
  · rw [kernel_arrive]

/-- `WebSocket_getRawSocketData` reads what has arrived, up to the number of bytes. -/
theorem Spent.getRawSocketData (spent : Spent t socket arrived peer) (positive : 0 < socket)
    (isNet : net.socket = socket) (some : 0 < n) (rc : Rc) :
    ∃ rv rc' t', WebSocket.getRawSocketData t net n rc = (rv, rc', t') ∧
      rv.getD [] = arrived.take n ∧ (rc' = socketError ↔ arrived = [] ∧ peer = .closed) ∧
      (arrived ≠ [] → rc' = (arrived.take n).length) ∧ SameFrames t t' ∧
      Spent t' socket (arrived.drop n) peer := by
  have isSpent := spent.position
  have missing : n - (t.frame_buffer.length - t.frame_buffer_index) = n := by omega
  have direct : ¬(0 < n ∧ n ≤ t.frame_buffer.length - t.frame_buffer_index) := by omega
  rcases getdata_raw positive spent.idle spent.noData some with
    ⟨rv, received, s', got, idle, isPeer, isArrived, more | nothing⟩
  · rw [spent.peer] at isPeer
    rw [spent.arrived] at isArrived more
    rcases more with ⟨arrives, rfl, rfl⟩
    have start : (if t.frame_buffer = [] then 0 else t.frame_buffer_index) =
        t.frame_buffer.length := by
      split
      next empty => rw [empty]; rfl
      next => exact isSpent
    have taken : arrived.take n ≠ [] := by
      rw [ne_eq, List.take_eq_nil_iff, not_or]
      exact ⟨Nat.ne_of_gt some, arrives⟩
    rcases List.exists_cons_of_ne_nil taken with ⟨first, rest, isTaken⟩
    have isRc := rc_data (List.length_pos_of_ne_nil taken)
    have all : (arrived.take n).take n = arrived.take n := by rw [List.take_take, Nat.min_self]
    rcases complete_spec (idle.serves socket) positive with ⟨idle', queue', kernel', _⟩
    let t' : Transport :=
      { t with
        sockets := SocketBuffer.complete s' socket
        frame_buffer := t.frame_buffer ++ arrived.take n
        frame_buffer_index := t.frame_buffer.length + (arrived.take n).length }
    refine ⟨.some (arrived.take n), (arrived.take n).length, t', ?_, rfl, ?_,
      fun _ => rfl, ⟨rfl, rfl⟩,
      idle', ?_, ?_, ?_, ?_⟩
    · simp only [WebSocket.getRawSocketData, isNet, missing]
      rw [if_neg direct, if_pos some, got]
      dsimp only [Option.map_some, Option.getD_some]
      rw [if_neg isRc.1, if_neg (Nat.ne_of_gt some), start, isTaken]
      dsimp only
      rw [List.drop_left, ← isTaken, all]
      rfl
    · exact iff_of_false isRc.2 fun nothing => arrives nothing.1
    · rw [queue']
      rfl
    · exact List.length_append.symm
    · simp only [t', kernel', isArrived]
    · simp only [t', kernel', isPeer]
  · rw [spent.peer] at isPeer nothing
    rw [spent.arrived] at isArrived nothing
    rcases nothing with ⟨rfl, noData, result⟩
    let t' : Transport := { t with sockets := s' }
    have kept : Spent t' socket (([] : Bytes).drop n) peer :=
      ⟨idle, noData, isSpent, isArrived, isPeer⟩
    have taken : ([] : Bytes) = ([] : Bytes).take n := List.take_nil.symm
    cases peer with
    | connected =>
        rcases result with ⟨rfl, rfl⟩
        refine ⟨.some [], 11, t', ?_, taken, by decide, absurd rfl, ⟨rfl, rfl⟩, kept⟩
        simp only [WebSocket.getRawSocketData, isNet, missing]
        rw [if_neg direct, if_pos some, got]
        simp [Received.rc, Nat.ne_of_gt some, t']
    | closed =>
        rcases result with ⟨rfl, rfl⟩
        refine ⟨.none, socketError, t', ?_, taken, by decide, absurd rfl, ⟨rfl, rfl⟩, kept⟩
        simp only [WebSocket.getRawSocketData, isNet, missing]
        rw [if_neg direct, if_pos some, got]
        simp [Received.rc, t']
    | failed =>
        rcases result with ⟨rfl, rfl⟩
        refine ⟨.none, 104, t', ?_, taken, by decide, absurd rfl, ⟨rfl, rfl⟩, kept⟩
        simp only [WebSocket.getRawSocketData, isNet, missing]
        rw [if_neg direct, if_pos some, got]
        simp [Received.rc, Nat.ne_of_gt some, t']

/-- To be done with the data empties `frame_buffer`. -/
theorem Spent.discard (spent : Spent t socket arrived peer) (positive : 0 < socket)
    (isNet : net.socket = socket) {rc : Rc} (nonzero : rc ≠ 0) :
    ∃ rv t', WebSocket.getRawSocketData t net 0 rc = (rv, rc, t') ∧ t'.frame_buffer = [] ∧
      SameFrames t t' ∧ Spent t' socket arrived peer := by
  rcases complete_spec (spent.idle.serves socket) positive with ⟨idle', queue', kernel', _⟩
  let t' : Transport :=
    { t with
      sockets := SocketBuffer.complete t.sockets socket
      frame_buffer := []
      frame_buffer_index := 0 }
  refine ⟨some [], t', ?_, rfl, ⟨rfl, rfl⟩, idle', ?_, rfl, ?_, ?_⟩
  · simp [WebSocket.getRawSocketData, Socket.getdata, isNet, nonzero, t']
  · rw [queue']
    rfl
  · rw [kernel', spent.arrived]
  · rw [kernel', spent.peer]

end Reads

/-! ## The calls -/

namespace UpgradeCall

/-- What is there at the second read. -/
def behind (call : UpgradeCall) : Bytes :=
  call.arrives.drop 12 ++ call.meanwhile

/-- What the second read takes as the rest of the response. -/
def response (call : UpgradeCall) : Bytes :=
  call.behind.take 1024

end UpgradeCall

open Classical in
/-- What a call returns, when `expected` is what the server has to send back. A response with
another version, or without a space behind the version, is not looked at. -/
noncomputable def returns (expected : Bytes) (call : UpgradeCall) : Rc :=
  if call.arrives.length < 12 then
    if call.arrives = [] ∧ call.peer = .closed then socketError else tcpSocketInterrupted
  else if ascii "HTTP/1.1" <+: call.arrives ∧ ¬ascii "101" <+: call.arrives.drop 9 then socketError
  else if ascii "HTTP/1.1 101" <+: call.arrives then
    if Answers expected call.response then 1 else socketError
  else 12

/-- What the last of some calls returns. -/
noncomputable def outcome (expected : Bytes) : List UpgradeCall → Rc
  | [] => tcpSocketInterrupted
  | call :: calls =>
      if returns expected call = tcpSocketInterrupted then outcome expected calls
      else returns expected call

section Calls

variable {t : Transport} {net : Net} {socket : SOCKET} {peer : Peer}
  {text expected ws_key rest key : Bytes} {call : UpgradeCall} {rc : Rc}

theorem Answers.not_nil (answers : Answers expected text) : text ≠ [] := by
  rintro rfl
  exact absurd answers.long (by decide)

theorem checkConnection_short (short : text.length ≤ 4) : checkConnection text = some false := by
  have nowhere : TextSearch.place ((ascii "Connection").map tolower) (text.map tolower) = none := by
    apply TextSearch.place_eq_none_iff.mpr
    intro inside
    have := inside.length_le
    rw [List.length_map, List.length_map] at this
    change 10 ≤ text.length at this
    omega
  rw [checkConnection, strcasefind_eq (by decide) (by decide), nowhere]

/-- The state after a call that found an answer, or did not. -/
structure Leaves (t t' : Transport) (socket : SOCKET) (arrived : Bytes) (peer : Peer) : Prop where
  empty : t'.frame_buffer = []
  same : SameFrames t t'
  spent : Spent t' socket arrived peer

open Classical in
/-- The second read, and what `WebSocket_upgrade` makes of it. -/
theorem readResponse_spec {arrived : Bytes} (positive : 0 < socket) (isNet : net.socket = socket)
    (spent : Spent t socket arrived peer) (isKey : ws_key = expected ++ 0 :: rest)
    (clean : 0 ∉ expected ∧ newline ∉ expected) (nonempty : expected ≠ []) :
    ∃ net' t', readResponse ws_key t net rc =
        some (if Answers expected (arrived.take 1024) then 1 else socketError, net', t') ∧
      (net'.websocket = true ↔ net.websocket = true ∨ Answers expected (arrived.take 1024)) ∧
      (Answers expected (arrived.take 1024) → Leaves t t' socket (arrived.drop 1024) peer) := by
  rcases spent.getRawSocketData positive isNet (n := 1024) (by decide) rc with
    ⟨rv, rc', t', read, isText, failed, -, same, spent'⟩
  have short : (arrived.take 1024).length ≤ 1024 := List.length_take_le 1024 arrived
  have isEmpty : arrived = [] → arrived.take 1024 = [] := fun nothing => by
    rw [nothing, List.take_nil]
  generalize arrived.take 1024 = text at isText short isEmpty
  -- Nothing is looked for in what is not the end of a response.
  have fails : ¬Answers expected text →
      readResponse ws_key t net rc = some (socketError, net, t') →
      ∃ net' t', readResponse ws_key t net rc =
          some (if Answers expected text then 1 else socketError, net', t') ∧
        (net'.websocket = true ↔ net.websocket = true ∨ Answers expected text) ∧
        (Answers expected text → Leaves t t' socket (arrived.drop 1024) peer) := by
    intro noAnswer result
    exact ⟨net, t', by rw [if_neg noAnswer, result], (or_iff_left noAnswer).symm,
      fun answers => absurd answers noAnswer⟩
  by_cases isError : rc' = socketError
  · apply fails fun answers => answers.not_nil (isEmpty (failed.mp isError).1)
    simp only [readResponse, read]
    rw [if_pos isError]
  by_cases incomplete : 4 < text.length ∧ text.drop (text.length - 4) ≠ headerEnd
  · apply fails
    · intro answers
      exact incomplete.2 (List.suffix_iff_eq_drop.mp answers.ends).symm
    · simp only [readResponse, read, isText]
      rw [if_neg isError, if_pos incomplete]
  have checks : ∃ b c, checkConnection text = some b ∧
      (if b then checkHash ws_key text else some false) = some c ∧
        (c = true ↔ Answers expected text) := by
    by_cases long : 4 < text.length
    · have ends : headerEnd <:+ text := by
        rw [List.suffix_iff_eq_drop]
        exact (not_not.mp fun other => incomplete ⟨long, other⟩).symm
      rcases checkConnection_spec ends with ⟨b, isB, connection⟩
      rcases checks_spec ends short isKey clean.1 clean.2 nonempty with ⟨c, isC, hash⟩
      cases b with
      | false =>
          refine ⟨false, false, isB, rfl, iff_of_false Bool.false_ne_true ?_⟩
          exact fun answers => Bool.false_ne_true (connection.mpr answers.upgrade)
      | true =>
          refine ⟨true, c, isB, isC, hash.trans ⟨?_, Answers.hash⟩⟩
          exact fun isHash => ⟨ends, long, connection.mp rfl, isHash⟩
    · refine ⟨false, false, checkConnection_short (Nat.le_of_not_lt long), rfl, ?_⟩
      exact iff_of_false Bool.false_ne_true fun answers => long answers.long
  rcases checks with ⟨b, c, isB, isC, iff⟩
  let net' : Net := { net with websocket := net.websocket || c, websocket_key := none }
  have isNet' : net'.socket = socket := isNet
  have nonzero : (if c then (1 : Rc) else socketError) ≠ 0 := by split <;> decide
  rcases spent'.discard positive isNet' nonzero with ⟨rv', t'', discard, empty, same', spent''⟩
  refine ⟨net', t'', ?_, ?_, fun _ => ⟨empty, same.trans same', spent''⟩⟩
  · simp only [readResponse, read, isText]
    have isResult : (if Answers expected text then (1 : Rc) else socketError) =
        if c then 1 else socketError := by simp only [iff]
    rw [if_neg isError, if_neg incomplete, isB, Option.bind_some, isC, Option.map_some, isResult]
    simp only [net'] at discard ⊢
    rw [discard]
  · simp only [net', ← iff, Bool.or_eq_true]

theorem begins_take {string : String} {bytes : Bytes} {n : Nat} (clean : 0 ∉ ascii string)
    (fits : (ascii string).length ≤ n) (enough : n ≤ bytes.length) :
    begins (bytes.take n) string = true ↔ ascii string <+: bytes := by
  have length : (bytes.take n).length = n := List.length_take_of_le enough
  rw [begins_iff clean (fits.trans_eq length.symm)]
  constructor
  · exact fun inside => inside.trans (List.take_prefix n bytes)
  · intro inside
    exact List.prefix_of_prefix_length_le inside (List.take_prefix n bytes)
      (fits.trans_eq length.symm)

/-- What a call leaves behind. -/
structure Called (expected : Bytes) (call : UpgradeCall) (t : Transport) (net : Net)
    (socket : SOCKET) (t' : Transport) (net' : Net) : Prop where
  websocket : net'.websocket = true ↔ net.websocket = true ∨ returns expected call = 1
  again : returns expected call = tcpSocketInterrupted →
    net' = net ∧ SameFrames t t' ∧ Spent t' socket [] call.peer
  leaves : returns expected call = 1 → Answers expected call.response ∧
    Leaves t t' socket (call.behind.drop 1024) call.peer

/-- A call that ends the handshake without an answer. -/
theorem Called.ends {t' : Transport} (result : returns expected call = rc) (other : rc ≠ 1)
    (other' : rc ≠ tcpSocketInterrupted) : Called expected call t net socket t' net where
  websocket := by
    rw [result]
    exact (or_iff_left other).symm
  again same := absurd (result.symm.trans same) other'
  leaves same := absurd (result.symm.trans same) other

/-- The tests of the first characters. -/
structure Tests (arrives : Bytes) : Prop where
  refused : (begins (arrives.take 12) "HTTP/1.1" && !begins ((arrives.take 12).drop 9) "101") =
    true ↔ ascii "HTTP/1.1" <+: arrives ∧ ¬ascii "101" <+: arrives.drop 9
  status : begins (arrives.take 12) "HTTP/1.1 101" = true ↔ ascii "HTTP/1.1 101" <+: arrives

theorem tests {arrives : Bytes} (enough : 12 ≤ arrives.length) : Tests arrives := by
  refine ⟨?_, begins_take (by decide) (by decide) enough⟩
  have code : begins ((arrives.take 12).drop 9) "101" = true ↔
      ascii "101" <+: arrives.drop 9 := by
    rw [List.drop_take]
    apply begins_take (by decide) (by decide)
    rw [List.length_drop]
    omega
  rw [Bool.and_eq_true, begins_take (by decide) (by decide) enough, Bool.not_eq_true',
    ← Bool.not_eq_true, code]

/-- One call. -/
theorem upgrade_spec (order : SHA1.ByteOrder) (buffer : SHA1.Block) (positive : 0 < socket)
    (isNet : net.socket = socket) (spent : Spent t socket call.arrives call.peer)
    (isKey : net.websocket_key = some key) (length : key.length = 24) :
    ∃ net' t', upgrade order buffer t net (arrive socket call.meanwhile call.peer) =
        some (returns (acceptOf key) call, net', t') ∧
      Called (acceptOf key) call t net socket t' net' := by
  rcases expectedKey_eq order buffer length with ⟨rest, ws_key⟩
  rcases spent.getRawSocketData positive isNet (n := 12) (by decide) socketError with
    ⟨rv, rc, t', read, isBuffer, failed, isRc, same, spent'⟩
  simp only [upgrade, isKey, ws_key, Option.bind_some, read, isBuffer]
  by_cases short : call.arrives.length < 12
  · have few : (call.arrives.take 12).length < 12 := by
      rw [List.length_take]
      omega
    by_cases closed : call.arrives = [] ∧ call.peer = .closed
    · have result : returns (acceptOf key) call = socketError := by
        rw [returns, if_pos short, if_pos closed]
      refine ⟨net, t', ?_, .ends result (by decide) (by decide)⟩
      rw [result, if_pos (failed.mpr closed)]
    · have result : returns (acceptOf key) call = tcpSocketInterrupted := by
        rw [returns, if_pos short, if_neg closed]
      rw [List.drop_eq_nil_of_le (Nat.le_of_lt short)] at spent'
      refine ⟨net, t', ?_, ?_, fun _ => ⟨rfl, same, spent'⟩, ?_⟩
      · rw [result, if_neg (mt failed.mp closed), if_pos few]
      · rw [result]
        exact (or_iff_left (by decide)).symm
      · rw [result]
        exact fun same => absurd same (by decide)
  have enough : 12 ≤ call.arrives.length := Nat.le_of_not_lt short
  have isRead : (call.arrives.take 12).length = 12 := List.length_take_of_le enough
  have arrives : call.arrives ≠ [] := List.ne_nil_of_length_pos (by omega)
  rw [if_neg fun isError => arrives (failed.mp isError).1, if_neg (by omega)]
  have tests := tests enough
  by_cases refused : ascii "HTTP/1.1" <+: call.arrives ∧ ¬ascii "101" <+: call.arrives.drop 9
  · have result : returns (acceptOf key) call = socketError := by
      rw [returns, if_neg short, if_pos refused]
    refine ⟨net, t', ?_, .ends result (by decide) (by decide)⟩
    rw [result, if_pos (tests.refused.mpr refused)]
  rw [if_neg (mt tests.refused.mp refused)]
  by_cases status : ascii "HTTP/1.1 101" <+: call.arrives
  · have nonempty : acceptOf key ≠ [] := by
      intro isEmpty
      have := length_acceptOf key
      rw [isEmpty] at this
      cases this
    have spent'' := spent'.arrive call.meanwhile call.peer
    rcases readResponse_spec positive isNet spent'' rfl (clean_acceptOf key) nonempty with
      ⟨net', t'', response, websocket, leaves⟩
    refine ⟨net', t'', ?_, ?_⟩
    · rw [if_pos (tests.status.mpr status), response, returns, if_neg short, if_neg refused,
        if_pos status]
      rfl
    by_cases answers : Answers (acceptOf key) call.response
    · have result : returns (acceptOf key) call = 1 := by
        rw [returns, if_neg short, if_neg refused, if_pos status, if_pos answers]
      refine ⟨iff_of_true ?_ (.inr result), ?_, fun _ => ⟨answers, ?_⟩⟩
      · exact websocket.mpr (.inr answers)
      · rw [result]
        exact fun same => absurd same (by decide)
      · have left := leaves answers
        exact ⟨left.empty, same.trans ⟨left.same.in_frames, left.same.pongs⟩, left.spent⟩
    · have result : returns (acceptOf key) call = socketError := by
        rw [returns, if_neg short, if_neg refused, if_pos status, if_neg answers]
      have ends : Called (acceptOf key) call t net socket t' net :=
        .ends result (by decide) (by decide)
      refine ⟨?_, ?_, fun isOne => absurd (result.symm.trans isOne) (by decide)⟩
      · exact (websocket.trans (or_iff_left answers)).trans ends.websocket
      · exact fun same => absurd (result.symm.trans same) (by decide)
  · have result : returns (acceptOf key) call = 12 := by
      rw [returns, if_neg short, if_neg refused, if_neg status]
    refine ⟨net, t', ?_, .ends result (by decide) (by decide)⟩
    rw [result, if_neg (mt tests.status.mp status), isRc arrives, isRead]
    rfl

/-- The calls until one is not interrupted: the result, whether the connection is taken for a
WebSocket, and what is left to be read when it is. -/
theorem upgrades_spec (order : SHA1.ByteOrder) (buffer : SHA1.Block) (positive : 0 < socket)
    (isNet : net.socket = socket) (spent : Spent t socket [] peer)
    (isKey : net.websocket_key = some key) (length : key.length = 24) (calls : List UpgradeCall) :
    ∃ net' t', upgrades order buffer t net calls =
        some (outcome (acceptOf key) calls, net', t') ∧
      (net'.websocket = true ↔
        net.websocket = true ∨ outcome (acceptOf key) calls = 1) ∧
      (outcome (acceptOf key) calls = 1 → ∃ call ∈ calls,
        Answers (acceptOf key) call.response ∧
          Leaves t t' socket (call.behind.drop 1024) call.peer) := by
  induction calls generalizing t peer with
  | nil =>
      have waits : outcome (acceptOf key) [] ≠ 1 := by
        rw [outcome]
        decide
      exact ⟨net, t, rfl, (or_iff_left waits).symm, fun isOne => absurd isOne waits⟩
  | cons call calls ih =>
      have arrived : Spent (arrive socket call.arrives call.peer t) socket call.arrives call.peer :=
        spent.arrive call.arrives call.peer
      rcases upgrade_spec order buffer positive isNet arrived isKey length with
        ⟨net', t', result, called⟩
      rw [upgrades, isNet, result, Option.bind_some, outcome]
      by_cases again : returns (acceptOf key) call = tcpSocketInterrupted
      · rcases called.again again with ⟨rfl, same, spent'⟩
        rcases ih spent' with ⟨net'', t'', rest, websocket, leaves⟩
        dsimp only
        rw [if_pos again, if_pos again]
        refine ⟨net'', t'', rest, websocket, fun isOne => ?_⟩
        rcases leaves isOne with ⟨call', mem, answers, left⟩
        have before : SameFrames t (arrive socket call.arrives call.peer t) := ⟨rfl, rfl⟩
        exact ⟨call', List.mem_cons_of_mem call mem, answers, left.empty,
          (before.trans same).trans left.same, left.spent⟩
      · dsimp only
        rw [if_neg again, if_neg again]
        refine ⟨net', t', rfl, called.websocket, fun isOne => ?_⟩
        rcases called.leaves isOne with ⟨answers, left⟩
        exact ⟨call, List.mem_cons_self, answers, left.empty,
          ⟨left.same.in_frames, left.same.pongs⟩, left.spent⟩

/-- The state after `Socket_new`, when nothing has been read. -/
def opened : Transport :=
  { sockets :=
      { kernel := fun _ => ⟨[], .connected⟩
        def_queue := .empty
        queues := [] }
    in_frames := []
    frame_buffer := []
    frame_buffer_index := 0
    pongs := [] }

theorem spent_opened (positive : 0 < socket) : Spent opened socket [] .connected := by
  refine ⟨⟨List.nodup_nil, rfl⟩, ?_, rfl, rfl, rfl⟩
  rw [Sockets.queue_of_empty (by simp [opened, SocketBuffer.find]) rfl positive]
  rfl

/-- The calls for a response whose first line comes alone. -/
theorem upgrades_spec_pieces :
    let net : Net := ⟨3, false, some (ascii "dGhlIHNhbXBsZSBub25jZQ==")⟩
    let calls : List UpgradeCall :=
      [{ arrives := [] }, { arrives := ascii "HTTP/1.1 101 Switching Protocols",
                            meanwhile := headerEnd }]
    (0 : SOCKET) < 3 ∧ Spent opened 3 [] .connected ∧
      ∃ net' t', upgrades .little ⟨List.replicate 64 0, rfl⟩ opened net calls =
        some (outcome (acceptOf (ascii "dGhlIHNhbXBsZSBub25jZQ==")) calls, net', t') := by
  intro net calls
  have positive : (0 : SOCKET) < 3 := by decide
  have isNet : net.socket = 3 := rfl
  rcases upgrades_spec .little ⟨List.replicate 64 0, rfl⟩ positive isNet
    (spent_opened positive) rfl (by decide) calls with ⟨net', t', result, -⟩
  exact ⟨positive, spent_opened positive, net', t', result⟩

end Calls

end WebSocket

end Paho
