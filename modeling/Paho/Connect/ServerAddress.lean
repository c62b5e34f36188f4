import Paho.Connect.Client
import Mathlib.Data.List.TakeWhile

/-!
# Host, port and path of a server URI

`MQTTProtocol_addressPort` looks for the separators from both ends of what follows the scheme. The
first half of the module has the function, the second half the URIs it is meant for.
-/

namespace Paho

namespace Connect

/-- `strchr`. -/
def strchr {Symbol : Type} [DecidableEq Symbol] (string : List Symbol) (c : Symbol) : Option Nat :=
  string.findIdx? (· = c)

/-- `strrchr`. -/
def strrchr : List Char → Char → Option Nat
  | [], _ => none
  | char :: string, c =>
      match strrchr string c with
      | some place => some (place + 1)
      | none => if char = c then some 0 else none

/-- The value of decimal digits. -/
def decimal (digits : List Char) : Nat :=
  digits.foldl (fun value digit => 10 * value + (digit.toNat - '0'.toNat)) 0

/-- `isspace`. -/
def isspace (char : Char) : Bool :=
  char = ' ' || (9 ≤ char.toNat && char.toNat ≤ 13)

/-- `atoi`, of a number that fits into an `int`. -/
def atoi (string : List Char) : Int :=
  match string.dropWhile isspace with
  | '-' :: digits => -decimal (digits.takeWhile Char.isDigit)
  | '+' :: digits => decimal (digits.takeWhile Char.isDigit)
  | digits => decimal (digits.takeWhile Char.isDigit)

/-- What `MQTTProtocol_addressPort` returns: the length of the host, the port, and where the topic
begins if `topic` is set. -/
structure Address where
  len : Nat
  port : Int
  topic : Option Nat
  deriving DecidableEq, Repr

/-- `a < b` for pointers into a string or `NULL`. -/
def before : Option Nat → Option Nat → Bool
  | _, none => false
  | none, some _ => true
  | some a, some b => a < b

/-- The `:` that is taken for the one before the port. -/
def colonPos (uri : URI) : Option Nat :=
  let colon_pos := strrchr uri ':'
  if uri.head? = some '[' then
    if before colon_pos (strrchr uri ']') then none else colon_pos
  else colon_pos

/-- `MQTTProtocol_addressPort`. The caller may ask for the topic or not. Without a result
`buf[len - 1]` is in front of the string. -/
def addressPort (uri : URI) (topic : Bool) (default_port : Int) : Option Address :=
  let colon_pos := colonPos uri
  let len := colon_pos.getD uri.length
  let port :=
    match colon_pos with
    | some colon => atoi (uri.drop (colon + 1))
    | none => default_port
  let topic_pos :=
    (strchr (uri.drop (colon_pos.getD 0)) '/').map fun place => colon_pos.getD 0 + place
  let len := if colon_pos.isNone then topic_pos.getD len else len
  match len with
  | 0 => none
  | last + 1 =>
      some
        { len := if uri[last]? = some ']' then last else last + 1
          port := port
          topic := if topic then topic_pos else none }

/-- The host of a server URI: a name or address, or an IPv6 address in brackets. -/
inductive Host where
  | name (text : List Char) (colon : ':' ∉ text) (slash : '/' ∉ text)
      (bracket : text.head? ≠ some '[')
  | literal (text : List Char) (bracket : ']' ∉ text) (slash : '/' ∉ text)

/-- A port, as its digits. It is an `int`. -/
structure Port where
  digits : List Char
  nonempty : digits ≠ []
  decimals : ∀ digit ∈ digits, digit.isDigit = true
  inRange : decimal digits < 2147483648

/-- A server URI behind its scheme. -/
structure ServerURI where
  host : Host
  port : Option Port
  /-- What follows the slash. -/
  path : Option (List Char)

namespace Host

def text : Host → List Char
  | .name text _ _ _ => text
  | .literal text _ _ => '[' :: text ++ [']']

/-- The length that `Socket_new` is given; it skips the opening bracket. -/
def length : Host → Nat
  | .name text _ _ _ => text.length
  | .literal text _ _ => 1 + text.length

end Host

namespace ServerURI

variable (uri : ServerURI)

def portText : List Char :=
  match uri.port with
  | some port => ':' :: port.digits
  | none => []

def pathText : List Char :=
  match uri.path with
  | some path => '/' :: path
  | none => []

def text : URI :=
  uri.host.text ++ uri.portText ++ uri.pathText

/-- The parts of the URI. -/
def address (topic : Bool) (default_port : Int) : Address where
  len := uri.host.length
  port :=
    match uri.port with
    | some port => decimal port.digits
    | none => default_port
  topic :=
    match uri.path with
    | some _ => if topic then some (uri.host.text ++ uri.portText).length else none
    | none => none

/-- The separators can be told apart from the ends of the URI: a name is not empty and does not end
in a bracket, and there is no colon in the path; behind a port no closing bracket either, and
without one it does not matter what is in front of a closing bracket. -/
def Separable : Prop :=
  match uri.host with
  | .name text _ _ _ => text ≠ [] ∧ text.getLast? ≠ some ']' ∧ ':' ∉ uri.pathText
  | .literal _ _ _ =>
      match uri.port with
      | some _ => ':' ∉ uri.pathText ∧ ']' ∉ uri.pathText
      | none => ∀ front back, uri.pathText = front ++ ':' :: back → ']' ∈ back

end ServerURI

/-- Nothing is in front of the separator that ends the host, or of the end of the string. -/
def NoHost (string : URI) : Prop :=
  match string with
  | [] => True
  | first :: rest => (first = ':' ∨ first = '/') ∧ ':' ∉ rest

section Searching

section

variable {Symbol : Type} [DecidableEq Symbol] {string front back : List Symbol} {c : Symbol}

theorem strchr_append (absent : c ∉ front) : strchr (front ++ c :: back) c = some front.length := by
  induction front with
  | nil => simp [strchr, List.findIdx?_cons]
  | cons char front ih =>
      rw [List.mem_cons, not_or] at absent
      have rest := ih absent.2
      unfold strchr at rest ⊢
      rw [List.cons_append, List.findIdx?_cons, if_neg (by simpa using Ne.symm absent.1), rest]
      rfl

theorem strchr_eq_none (absent : c ∉ string) : strchr string c = none := by
  rw [strchr, List.findIdx?_eq_none_iff]
  intro char mem
  exact decide_eq_false fun same => absent (same ▸ mem)

end

variable {string front back : List Char} {c d : Char}

theorem strrchr_eq_none_iff : strrchr string c = none ↔ c ∉ string := by
  induction string with
  | nil => simp [strrchr]
  | cons char string ih =>
      rw [strrchr, List.mem_cons, not_or]
      cases found : strrchr string c with
      | some place => simp [← ih, found]
      | none => simp [← ih, found, eq_comm]

theorem strrchr_append (absent : c ∉ back) : strrchr (front ++ c :: back) c =
    some front.length := by
  induction front with
  | nil => simp [strrchr, strrchr_eq_none_iff.mpr absent]
  | cons char front ih => simp [strrchr, ih]

/-- A character that is there is there for a last time. -/
theorem exists_last (mem : c ∈ string) : ∃ front back, string = front ++ c :: back ∧ c ∉ back := by
  induction string with
  | nil => cases mem
  | cons char string ih =>
      by_cases later : c ∈ string
      · rcases ih later with ⟨front, back, rfl, absent⟩
        exact ⟨char :: front, back, rfl, absent⟩
      · rcases List.mem_cons.mp mem with rfl | mem
        · exact ⟨[], string, rfl, later⟩
        · exact absurd mem later

/-- A `d` without `c` behind it comes behind every `c`. -/
theorem mem_of_split {first rest : List Char} (ne : c ≠ d)
    (same : first ++ c :: rest = front ++ d :: back) (absent : c ∉ back) : d ∈ rest := by
  rcases List.append_eq_append_iff.mp same with ⟨middle, -, isRest⟩ | ⟨middle, -, isBack⟩
  · cases middle with
    | nil => exact absurd (List.cons.inj isRest).1 ne
    | cons char middle =>
        rw [(List.cons.inj isRest).2]
        simp
  · cases middle with
    | nil => exact absurd (List.cons.inj isBack).1.symm ne
    | cons char middle =>
        rw [(List.cons.inj isBack).2] at absent
        simp at absent

/-- `strrchr` finds `d` later than `c` when there is a `d` without `c` behind it. -/
theorem before_strrchr_iff (ne : c ≠ d) :
    before (strrchr string c) (strrchr string d) = true ↔
      ∃ front back, string = front ++ d :: back ∧ c ∉ back := by
  by_cases mem : d ∈ string
  · rcases exists_last mem with ⟨front, back, rfl, absent⟩
    rw [strrchr_append absent]
    by_cases behind : c ∈ back
    · rcases exists_last behind with ⟨between, rest, rfl, none⟩
      rw [← List.cons_append, ← List.append_assoc, strrchr_append none]
      constructor
      · intro lt
        simp only [before, decide_eq_true_eq, List.length_append, List.length_cons] at lt
        omega
      · rintro ⟨front', back', same, none'⟩
        have last := mem_of_split ne same none'
        exact absurd (by simp [last]) absent
    · constructor
      · exact fun _ => ⟨front, back, rfl, behind⟩
      · intro _
        by_cases earlier : c ∈ front
        · rcases exists_last earlier with ⟨first, rest, rfl, none⟩
          have none' : c ∉ rest ++ d :: back := by simp [none, behind, ne]
          rw [List.append_assoc, List.cons_append, strrchr_append none']
          simp [before]
        · have none : c ∉ front ++ d :: back := by simp [earlier, behind, ne]
          rw [strrchr_eq_none_iff.mpr none]
          rfl
  · rw [strrchr_eq_none_iff.mpr mem]
    constructor
    · intro never
      cases strrchr string c <;> simp [before] at never
    · rintro ⟨front, back, rfl, -⟩
      exact absurd (by simp) mem

end Searching

/-- The address whose host ends with `front`. -/
def cutOff (front : List Char) (port : Int) (topic : Option Nat) : Option Address :=
  if front = [] then none
  else
    some
      { len := if front.getLast? = some ']' then front.length - 1 else front.length
        port := port
        topic := topic }

section Cutting

variable {front back : List Char} {topic : Bool} {default_port port : Int} {place : Option Nat}

@[simp]
theorem cutOff_eq_none_iff : cutOff front port place = none ↔ front = [] := by
  unfold cutOff
  split_ifs <;> simp [*]

/-- How far the length can be from that of what was cut off. -/
theorem le_len_of_cutOff {address : Address} (cut : cutOff front port place = some address) :
    front.length ≤ address.len ∨ front.getLast? = some ']' ∧ front.length = address.len + 1 := by
  unfold cutOff at cut
  split at cut
  · cases cut
  next nonempty =>
    cases cut
    by_cases closed : front.getLast? = some ']'
    · have := List.length_pos_iff.mpr nonempty
      exact .inr ⟨closed, by simp only [if_pos closed]; omega⟩
    · exact .inl (by simp only [if_neg closed]; omega)

theorem last_of_length {last : Nat} (back : List Char) (length : front.length = last + 1) :
    (front ++ back)[last]? = front.getLast? := by
  rw [List.getLast?_eq_getElem?, List.getElem?_append_left (by omega), length, Nat.add_sub_cancel]

/-- Behind `front` is the colon that counts. -/
theorem addressPort_of_colon (colon : colonPos (front ++ ':' :: back) = some front.length) :
    addressPort (front ++ ':' :: back) topic default_port =
      cutOff front (atoi back)
        (if topic then (strchr (':' :: back) '/').map (front.length + ·) else none) := by
  simp only [addressPort, colon, Option.getD_some, Option.isNone_some, List.drop_left',
    Bool.false_eq_true, if_false]
  have behind : (front ++ ':' :: back).drop (front.length + 1) = back := by simp
  rw [behind, cutOff]
  cases length : front.length with
  | zero => simp [List.length_eq_zero_iff.mp length]
  | succ last =>
      have nonempty : front ≠ [] := by
        rintro rfl
        cases length
      simp [nonempty, last_of_length _ length]

/-- No colon counts, and the path begins behind `front`. -/
theorem addressPort_of_slash (colon : colonPos (front ++ '/' :: back) = none)
    (slash : '/' ∉ front) :
    addressPort (front ++ '/' :: back) topic default_port =
      cutOff front default_port (if topic then some front.length else none) := by
  simp only [addressPort, colon, Option.getD_none, List.drop_zero, strchr_append slash,
    Option.isNone_none, if_true, Option.map_some, Option.getD_some, Nat.zero_add]
  rw [cutOff]
  cases length : front.length with
  | zero => simp [List.length_eq_zero_iff.mp length]
  | succ last =>
      have nonempty : front ≠ [] := by
        rintro rfl
        cases length
      simp [nonempty, last_of_length _ length]

/-- No colon counts, and there is no path. -/
theorem addressPort_of_end (colon : colonPos front = none) (slash : '/' ∉ front) :
    addressPort front topic default_port = cutOff front default_port none := by
  simp only [addressPort, colon, Option.getD_none, List.drop_zero, strchr_eq_none slash,
    Option.isNone_none, if_true, Option.map_none]
  rw [cutOff]
  cases length : front.length with
  | zero => simp [List.length_eq_zero_iff.mp length]
  | succ last =>
      have nonempty : front ≠ [] := by
        rintro rfl
        cases length
      have whole := last_of_length [] length
      rw [List.append_nil] at whole
      simp [nonempty, whole]

end Cutting

theorem colonPos_of_head {uri : URI} (plain : uri.head? ≠ some '[') :
    colonPos uri = strrchr uri ':' :=
  if_neg plain

/-- In brackets a colon counts when no closing bracket is behind it. -/
theorem colonPos_of_bracket {uri : URI} (bracket : uri.head? = some '[') :
    (∃ front back, uri = front ++ ']' :: back ∧ ':' ∉ back) ∧ colonPos uri = none ∨
      (¬∃ front back, uri = front ++ ']' :: back ∧ ':' ∉ back) ∧
        colonPos uri = strrchr uri ':' := by
  rw [← before_strrchr_iff (c := ':') (d := ']') (by decide)]
  simp only [colonPos, if_pos bracket]
  split
  next lt => exact .inl ⟨lt, rfl⟩
  next not => exact .inr ⟨not, rfl⟩

theorem exists_of_colonPos {uri : URI} {colon : Nat} (found : colonPos uri = some colon) :
    ∃ front back, uri = front ++ ':' :: back ∧ ':' ∉ back ∧ colon = front.length := by
  have last : strrchr uri ':' = some colon := by
    by_cases bracket : uri.head? = some '['
    · rcases colonPos_of_bracket bracket with ⟨-, none⟩ | ⟨-, same⟩
      · cases found.symm.trans none
      · exact same.symm.trans found
    · exact (colonPos_of_head bracket).symm.trans found
  have mem : ':' ∈ uri := by
    by_contra absent
    cases last.symm.trans (strrchr_eq_none_iff.mpr absent)
  rcases exists_last mem with ⟨front, back, rfl, absent⟩
  exact ⟨front, back, rfl, absent, Option.some.inj (last.symm.trans (strrchr_append absent))⟩

theorem not_mem_of_colonPos {first : Char} {rest : List Char}
    (none : colonPos (first :: rest) = none) (plain : first ≠ '[') : ':' ∉ first :: rest :=
  strrchr_eq_none_iff.mp ((colonPos_of_head (by simpa using plain)).symm.trans none)

/-- `buf[len - 1]` is in front of the string just when there is no host. -/
theorem addressPort_eq_none_iff (string : URI) (topic : Bool) (default_port : Int) :
    addressPort string topic default_port = none ↔ NoHost string := by
  cases found : colonPos string with
  | some colon =>
      rcases exists_of_colonPos found with ⟨front, back, rfl, absent, rfl⟩
      rw [addressPort_of_colon found, cutOff_eq_none_iff]
      cases front with
      | nil => simp [NoHost, absent]
      | cons first front => simp [NoHost]
  | none =>
      have noHost (first : Char) (rest : List Char) (none : colonPos (first :: rest) = none) :
          NoHost (first :: rest) ↔ first = '/' := by
        constructor
        · rintro ⟨rfl | rfl, -⟩
          · exact absurd List.mem_cons_self (not_mem_of_colonPos none (by decide))
          · rfl
        · rintro rfl
          exact ⟨.inr rfl, fun mem =>
            not_mem_of_colonPos none (by decide) (List.mem_cons_of_mem _ mem)⟩
      by_cases slash : '/' ∈ string
      · rcases List.eq_append_cons_of_mem slash with ⟨front, back, rfl, absent⟩
        rw [addressPort_of_slash found absent, cutOff_eq_none_iff]
        cases front with
        | nil => simp [noHost _ _ found]
        | cons first front =>
            have other : first ≠ '/' := fun same => absent (same ▸ List.mem_cons_self)
            exact iff_of_false (List.cons_ne_nil _ _) fun host => other ((noHost _ _ found).mp host)
      · rw [addressPort_of_end found slash, cutOff_eq_none_iff]
        cases string with
        | nil => simp [NoHost]
        | cons first rest =>
            have other : first ≠ '/' := fun same => slash (same ▸ List.mem_cons_self)
            exact iff_of_false (List.cons_ne_nil _ _) fun host => other ((noHost _ _ found).mp host)

theorem takeWhile_append_stop {p : Char → Bool} {front back : List Char} {stop : Char}
    (all : ∀ char ∈ front, p char = true) (stops : p stop = false) :
    (front ++ stop :: back).takeWhile p = front := by
  rw [List.takeWhile_append_of_pos all]
  simp [stops]

theorem not_isspace_of_isDigit {digit : Char} (decimal : digit.isDigit = true) :
    isspace digit = false := by
  simp only [Char.isDigit, Bool.and_eq_true, decide_eq_true_eq, UInt32.le_iff_toNat_le] at decimal
  have lower : 48 ≤ digit.toNat := decimal.1
  have notSpace : digit ≠ ' ' := by
    rintro rfl
    exact absurd lower (by decide)
  simp [isspace, notSpace]
  omega

namespace Port

variable (port : Port)

/-- `atoi` stops at the slash behind the port. -/
theorem atoi_append (uri : ServerURI) : atoi (port.digits ++ uri.pathText) =
    decimal port.digits := by
  rcases port with ⟨digits, nonempty, decimals, inRange⟩
  cases digits with
  | nil => exact absurd rfl nonempty
  | cons first rest =>
      have isDigit := decimals first List.mem_cons_self
      have front : ((first :: rest) ++ uri.pathText).takeWhile Char.isDigit = first :: rest := by
        unfold ServerURI.pathText
        cases uri.path with
        | none => exact (List.append_nil _).symm ▸ List.takeWhile_eq_self_iff.mpr decimals
        | some path => exact takeWhile_append_stop decimals (by decide)
      have noSpace : ((first :: rest) ++ uri.pathText).dropWhile isspace =
          (first :: rest) ++ uri.pathText := by
        simp [not_isspace_of_isDigit isDigit]
      rw [atoi, noSpace]
      split
      next digits same =>
        cases (List.cons.inj same).1
        exact absurd isDigit (by decide)
      next digits same =>
        cases (List.cons.inj same).1
        exact absurd isDigit (by decide)
      next => rw [front]

theorem not_mem_digits {char : Char} (other : char.isDigit = false) : char ∉ port.digits := by
  intro mem
  rw [port.decimals char mem] at other
  cases other

end Port

theorem cutOff_eq_some_iff {front : List Char} {port : Int} {place : Option Nat} :
    cutOff front port place = some ⟨front.length, port, place⟩ ↔
      front ≠ [] ∧ front.getLast? ≠ some ']' := by
  unfold cutOff
  by_cases empty : front = []
  · simp [empty]
  · have := List.length_pos_iff.mpr empty
    rw [if_neg empty, Option.some.injEq, Address.mk.injEq]
    by_cases closed : front.getLast? = some ']'
    · rw [if_pos closed]
      exact iff_of_false (fun same => by omega) fun open' => open'.2 closed
    · simp [closed, empty]

theorem cutOff_bracket (text : List Char) (port : Int) (place : Option Nat) :
    cutOff ('[' :: text ++ [']']) port place = some ⟨1 + text.length, port, place⟩ := by
  have last : ('[' :: text ++ [']']).getLast? = some ']' := by
    rw [List.getLast?_append, List.getLast?_singleton, Option.some_or]
  rw [cutOff, if_neg (by simp), if_pos last]
  simp [Nat.add_comm]

namespace ServerURI

variable {uri : ServerURI} {topic : Bool} {default_port : Int}

/-- The front of the URI, behind which the path begins. -/
theorem slash_not_mem : '/' ∉ uri.host.text ++ uri.portText := by
  have digits (port : Port) : '/' ∉ port.digits := port.not_mem_digits (by decide)
  rcases uri with ⟨host, port, path⟩
  cases host <;> cases port <;> simp_all [Host.text, portText]

theorem colon_not_mem_port (port : Port) : ':' ∉ port.digits :=
  port.not_mem_digits (by decide)

/-- No colon counts. -/
theorem addressPort_open (colon : colonPos uri.text = none) :
    addressPort uri.text topic default_port =
      cutOff (uri.host.text ++ uri.portText) default_port
        (if uri.path.isSome ∧ topic then
          some (uri.host.text ++ uri.portText).length else none) := by
  unfold text pathText at colon ⊢
  cases path : uri.path with
  | none =>
      simp only [path, List.append_nil] at colon ⊢
      simpa using addressPort_of_end colon slash_not_mem
  | some rest =>
      simp only [path] at colon ⊢
      simpa using addressPort_of_slash colon slash_not_mem

/-- The colon before the port counts. -/
theorem addressPort_port {port : Port} (isPort : uri.port = some port)
    (colon : colonPos uri.text = some uri.host.text.length) :
    addressPort uri.text topic default_port =
      cutOff uri.host.text (decimal port.digits)
        (if uri.path.isSome ∧ topic then
          some (uri.host.text ++ uri.portText).length else none) := by
  have split : uri.text = uri.host.text ++ ':' :: (port.digits ++ uri.pathText) := by
    simp [text, portText, isPort]
  rw [split] at colon ⊢
  rw [addressPort_of_colon colon, port.atoi_append]
  congr 1
  have noSlash : '/' ∉ ':' :: port.digits := by
    simpa using port.not_mem_digits (by decide : '/'.isDigit = false)
  cases path : uri.path with
  | none =>
      have none : strchr (':' :: (port.digits ++ uri.pathText)) '/' = none := by
        rw [pathText, path, List.append_nil]
        exact strchr_eq_none noSlash
      simp [none]
  | some rest =>
      have place : strchr (':' :: (port.digits ++ uri.pathText)) '/' =
          some (port.digits.length + 1) := by
        rw [pathText, path, ← List.cons_append]
        exact strchr_append noSlash
      simp [place, portText, isPort]

/-- A colon of the path that counts cuts off too much. -/
theorem addressPort_ne_of_colon {front back : List Char}
    (split : uri.pathText = front ++ ':' :: back) (last : ':' ∉ back)
    (colon : colonPos uri.text = strrchr uri.text ':') :
    addressPort uri.text topic default_port ≠ some (uri.address topic default_port) := by
  intro same
  have whole : uri.text = uri.host.text ++ uri.portText ++ front ++ ':' :: back := by
    rw [text, split, List.append_assoc, List.append_assoc, List.append_assoc]
  rw [whole, strrchr_append last] at colon
  rw [whole, addressPort_of_colon colon] at same
  have slash : ∃ rest, front = '/' :: rest := by
    unfold pathText at split
    cases path : uri.path with
    | none => simp [path] at split
    | some path' =>
        simp only [path] at split
        cases front with
        | nil => cases (List.cons.inj split).1
        | cons first rest => exact ⟨rest, congrArg (· :: rest) (List.cons.inj split).1.symm⟩
  rcases slash with ⟨rest, rfl⟩
  have far := le_len_of_cutOff same
  simp only [List.length_append, List.length_cons, address] at far
  cases host : uri.host with
  | name name =>
      simp only [host, Host.text, Host.length] at far
      rcases far with far | ⟨closed, far⟩
      · omega
      · cases rest with
        | nil => simp at closed
        | cons char rest =>
            simp only [List.length_cons] at far
            omega
  | literal literal =>
      simp only [host, Host.text, Host.length, List.length_append, List.length_cons,
        List.length_nil] at far
      omega

theorem head_text_name {name : List Char} {colon slash bracket}
    (isName : uri.host = .name name colon slash bracket) : uri.text.head? ≠ some '[' := by
  cases name with
  | nil =>
      simp only [text, isName, Host.text, portText, pathText]
      cases uri.port <;> cases uri.path <;> simp
  | cons first rest => simpa [text, isName, Host.text] using bracket

/-- In front of a colon that does not count, or of none, is the whole of host and port. -/
theorem colonPos_text_of_absent (absent : ':' ∉ uri.pathText)
    (colon : colonPos uri.text = strrchr uri.text ':') {port : Port}
    (isPort : uri.port = some port) :
    colonPos uri.text = some uri.host.text.length := by
  have behind : ':' ∉ port.digits ++ uri.pathText := by
    rw [List.mem_append, not_or]
    exact ⟨colon_not_mem_port port, absent⟩
  have split : uri.text = uri.host.text ++ ':' :: (port.digits ++ uri.pathText) := by
    simp [text, portText, isPort]
  rw [colon, split, strrchr_append behind]

theorem address_topic (default_port : Int) : (uri.address topic default_port).topic =
    if uri.path.isSome ∧ topic then some (uri.host.text ++ uri.portText).length else none := by
  cases path : uri.path <;> simp [address, path]

theorem address_eq {len : Nat} (port : Int) (sameLen : uri.host.length = len)
    (samePort : (uri.address topic default_port).port = port) :
    uri.address topic default_port =
      ⟨len, port, if uri.path.isSome ∧ topic then some (uri.host.text ++ uri.portText).length
        else none⟩ := by
  rw [← address_topic default_port, ← samePort, ← sameLen]
  rfl

/-- A URI with a name is taken apart rightly. -/
theorem addressPort_name_iff {name : List Char} {noColon slash bracket}
    (isName : uri.host = .name name noColon slash bracket) :
    addressPort uri.text topic default_port = some (uri.address topic default_port) ↔
      name ≠ [] ∧ name.getLast? ≠ some ']' ∧ ':' ∉ uri.pathText := by
  have colon := colonPos_of_head (head_text_name isName)
  have host : uri.host.text = name := by rw [isName, Host.text]
  have length : uri.host.length = name.length := by rw [isName, Host.length]
  by_cases behind : ':' ∈ uri.pathText
  · rcases exists_last behind with ⟨front, back, split, last⟩
    exact iff_of_false (addressPort_ne_of_colon split last colon) fun separable =>
      separable.2.2 behind
  · cases isPort : uri.port with
    | some port =>
        rw [addressPort_port isPort (colonPos_text_of_absent behind colon isPort),
          address_eq (decimal port.digits) length (by simp [address, isPort]), host,
          cutOff_eq_some_iff]
        simp [behind]
    | none =>
        have absent : ':' ∉ uri.text := by
          simp [text, portText, isPort, host, noColon, behind]
        rw [strrchr_eq_none_iff.mpr absent] at colon
        have noPort : uri.portText = [] := by rw [portText, isPort]
        rw [addressPort_open colon, address_eq default_port length (by simp [address, isPort]),
          noPort, List.append_nil, host, cutOff_eq_some_iff]
        simp [behind]

/-- Where a closing bracket without a colon behind it is. -/
theorem bracket_iff {literal : List Char} {noBracket slash}
    (isLiteral : uri.host = .literal literal noBracket slash) :
    (∃ front back, uri.text = front ++ ']' :: back ∧ ':' ∉ back) ↔
      (uri.port = none ∨ ']' ∈ uri.pathText) ∧
        ∀ front back, uri.pathText = front ++ ':' :: back → ']' ∈ back := by
  have host : uri.host.text = '[' :: literal ++ [']'] := by rw [isLiteral, Host.text]
  constructor
  · rintro ⟨front, back, whole, absent⟩
    constructor
    · cases isPort : uri.port with
      | none => exact .inl rfl
      | some port =>
          have split : uri.host.text ++ ':' :: (port.digits ++ uri.pathText) =
            front ++ ']' :: back := by
            simpa [text, portText, isPort] using whole
          rcases List.mem_append.mp (mem_of_split (by decide) split absent) with digit | behind
          · exact absurd digit (port.not_mem_digits (by decide))
          · exact .inr behind
    · intro first rest split
      rw [text, split, ← List.append_assoc] at whole
      exact mem_of_split (by decide) whole absent
  · rintro ⟨somewhere, always⟩
    by_cases behind : ':' ∈ uri.pathText
    · rcases exists_last behind with ⟨first, rest, split, last⟩
      rcases List.append_of_mem (always first rest split) with ⟨front, back, rfl⟩
      refine ⟨uri.host.text ++ uri.portText ++ (first ++ ':' :: front), back, ?_, ?_⟩
      · simp [text, split]
      · exact fun mem => last (by simp [mem])
    · rcases somewhere with isPort | closing
      · exact ⟨'[' :: literal, uri.pathText, by simp [text, host, portText, isPort], behind⟩
      · rcases List.append_of_mem closing with ⟨front, back, split⟩
        refine ⟨uri.host.text ++ uri.portText ++ front, back, by simp [text, split], ?_⟩
        exact fun mem => behind (by simp [split, mem])

/-- A URI with an address in brackets is taken apart rightly. -/
theorem addressPort_literal_iff {literal : List Char} {noBracket slash}
    (isLiteral : uri.host = .literal literal noBracket slash) :
    addressPort uri.text topic default_port = some (uri.address topic default_port) ↔
      match uri.port with
      | some _ => ':' ∉ uri.pathText ∧ ']' ∉ uri.pathText
      | none => ∀ front back, uri.pathText = front ++ ':' :: back → ']' ∈ back := by
  have host : uri.host.text = '[' :: literal ++ [']'] := by rw [isLiteral, Host.text]
  have length : uri.host.length = 1 + literal.length := by rw [isLiteral, Host.length]
  have head : uri.text.head? = some '[' := by simp [text, host]
  rcases colonPos_of_bracket head with ⟨closing, colon⟩ | ⟨none, colon⟩
  · -- No colon counts: what is in front of the path is taken for the host.
    rcases (bracket_iff isLiteral).mp closing with ⟨somewhere, always⟩
    rw [addressPort_open colon]
    cases isPort : uri.port with
    | none =>
        have noPort : uri.portText = [] := by rw [portText, isPort]
        rw [address_eq default_port length (by simp [address, isPort]), noPort,
          List.append_nil, host, cutOff_bracket]
        exact iff_of_true rfl always
    | some port =>
        have closing := somewhere.resolve_left (by simp [isPort])
        refine iff_of_false (fun same => ?_) fun separable => separable.2 closing
        have far := le_len_of_cutOff same
        have digits := List.length_pos_iff.mpr port.nonempty
        simp only [address, portText, isPort, host, length, List.length_append, List.length_cons,
          List.length_nil] at far
        omega
  · -- The last colon counts.
    rw [bracket_iff isLiteral] at none
    by_cases behind : ':' ∈ uri.pathText
    · rcases exists_last behind with ⟨front, back, split, last⟩
      refine iff_of_false (addressPort_ne_of_colon split last colon) ?_
      cases isPort : uri.port with
      | none => exact fun always => none ⟨.inl isPort, always⟩
      | some port => exact fun separable => separable.1 behind
    · have always (front back : List Char) (split : uri.pathText = front ++ ':' :: back) :
          ']' ∈ back := absurd (by simp [split]) behind
      cases isPort : uri.port with
      | none => exact absurd ⟨.inl isPort, always⟩ none
      | some port =>
          have noBracket : ']' ∉ uri.pathText := fun mem => none ⟨.inr mem, always⟩
          rw [addressPort_port isPort (colonPos_text_of_absent behind colon isPort),
            address_eq (decimal port.digits) length (by simp [address, isPort]), host,
            cutOff_bracket]
          exact iff_of_true rfl ⟨behind, noBracket⟩

theorem addressPort_text_iff (uri : ServerURI) (topic : Bool) (default_port : Int) :
    addressPort uri.text topic default_port = some (uri.address topic default_port) ↔
      uri.Separable := by
  cases host : uri.host with
  | name name noColon slash bracket =>
      rw [addressPort_name_iff host, Separable, host]
  | literal literal noBracket slash =>
      rw [addressPort_literal_iff host, Separable, host]

end ServerURI

/-- Server URIs are taken apart rightly just when their separators can be told apart from the ends,
and a string is only left when there is no host in front of the first separator. -/
theorem addressPort_exact_iff (topic : Bool) (default_port : Int) :
    (∀ uri : ServerURI,
        addressPort uri.text topic default_port = some (uri.address topic default_port) ↔
          uri.Separable) ∧
      ∀ string : URI, (addressPort string topic default_port).isSome ↔ ¬NoHost string := by
  refine ⟨fun uri => uri.addressPort_text_iff topic default_port, fun string => ?_⟩
  rw [Option.isSome_iff_ne_none, ne_eq, addressPort_eq_none_iff]

/-- The path `/a:b` behind the name `h`, and the empty string. -/
theorem not_addressPort_exact :
    ¬∀ (topic : Bool) (default_port : Int),
      (∀ uri : ServerURI,
          addressPort uri.text topic default_port = some (uri.address topic default_port)) ∧
        ∀ string : URI, (addressPort string topic default_port).isSome := by
  intro exact
  have onPath := (exact true 80).1 ⟨.name ['h'] (by decide) (by decide) (by decide), none,
    some ['a', ':', 'b']⟩
  exact absurd onPath (by decide)

end Connect

end Paho
