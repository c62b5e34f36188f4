import Mathlib.Data.Finset.Card
import Mathlib.Data.Finset.Interval
import Mathlib.Order.Interval.Finset.Nat
import Paho.Library.Doubles
import Paho.Protocol.Keepalive

/-!
# Automatic reconnects

The asynchronous client tries again after a failed connection, later each time. The intervals are
doubled up to a maximum, and each is changed by a random amount, which is computed in double
precision.
-/

namespace Paho

namespace Reconnect

/-- The constant `1.2`. -/
def factor : ℚ :=
  Doubles.nearest (6 / 5)

/-- `(int)(interval * 1.2)`. -/
def lengthened (interval : ℕ) : ℕ :=
  ⌊Doubles.nearest (interval * factor)⌋.toNat

/-- `(int)(interval / 1.2)`. -/
def shortened (interval : ℕ) : ℕ :=
  ⌊Doubles.nearest (interval / factor)⌋.toNat

/-- The loop of `MQTTAsync_randomJitter`, with the values of `rand`. There is no result when it
needs more of them. -/
def randomBelow (buckets limit : ℕ) : List ℕ → Option ℕ
  | [] => none
  | r :: draws => if limit ≤ r then randomBelow buckets limit draws else some (r / buckets)

/-- `MQTTAsync_randomJitter`, where `rand` has values up to `randMax`. -/
def randomJitter (randMax currentIntervalBase minInterval maxInterval : ℕ) (draws : List ℕ) :
    Option ℕ :=
  let max_sleep := lengthened (min maxInterval currentIntervalBase)
  let min_sleep := shortened (max minInterval currentIntervalBase)
  if max_sleep ≤ min_sleep then some min_sleep
  else
    let range := max_sleep - min_sleep + 1
    let buckets := randMax / range
    (randomBelow buckets (buckets * range) draws).map (min_sleep + ·)

/-- What happened, for stating properties of runs; the times are in microseconds. -/
inductive Event where
  /-- A connection failed or was lost, and the client is to try again. -/
  | failed (time : Int)
  | connected
  /-- `MQTTAsync_reconnect` was called. -/
  | reconnect
  /-- A CONNECT is put at the head of the queue; `asked` when that is for `MQTTAsync_reconnect`. -/
  | attempt (time : Int) (asked : Bool)
  deriving DecidableEq, Repr

/-- The fields of `MQTTAsyncs` for automatic reconnects; `last` is the variable of
`MQTTAsync_checkTimeouts`, and `history` has the newest event first. -/
structure Client where
  automaticReconnect : Bool
  shouldBeConnected : Bool
  minRetryInterval : ℕ
  maxRetryInterval : ℕ
  currentInterval : ℕ
  currentIntervalBase : ℕ
  lastConnectionFailedTime : Int
  retrying : Bool
  reconnectNow : Bool
  last : Int
  now : Int
  history : List Event
  deriving DecidableEq

/-- What happens to the client. -/
inductive Input where
  /-- `MQTTAsync_connect` with these options. -/
  | connect (automaticReconnect : Bool)
  /-- A connection attempt fails or a connection is lost: `MQTTAsync_startConnectRetry`, with the
  values that `rand` gives. -/
  | startConnectRetry (draws : List ℕ)
  /-- `MQTTAsync_completeConnection` for a CONNACK that accepts the connection. -/
  | completeConnection
  | reconnect
  /-- `MQTTAsync_disconnect`. -/
  | disconnect
  | checkTimeouts
  /-- Time passes. -/
  | elapse (microseconds : ℕ)
  deriving DecidableEq, Repr

/-- The retry intervals of the options, in seconds. An interval in milliseconds is an `int`. -/
structure Settings where
  minRetryInterval : ℕ
  maxRetryInterval : ℕ
  ordered : minRetryInterval ≤ maxRetryInterval
  short : 6 * maxRetryInterval / 5 * 1000 < 2 ^ 31

namespace Client

/-- A client as it is created. -/
def create : Client :=
  { automaticReconnect := false
    shouldBeConnected := false
    minRetryInterval := 0
    maxRetryInterval := 0
    currentInterval := 0
    currentIntervalBase := 0
    lastConnectionFailedTime := 0
    retrying := false
    reconnectNow := false
    last := 0
    now := 0
    history := [] }

variable (m : Client)

/-- `MQTTTime_elapsed`. -/
def elapsed (since : Int) : Int :=
  MQTTTime.difftime m.now since

def log (event : Event) : Client :=
  { m with history := event :: m.history }

/-- `MQTTAsync_startConnectRetry`. -/
def startConnectRetry (randMax : ℕ) (draws : List ℕ) : Option Client :=
  if m.automaticReconnect && m.shouldBeConnected then
    let m := { m with lastConnectionFailedTime := m.now }
    let m :=
      if m.retrying then
        { m with currentIntervalBase := min (m.currentIntervalBase * 2) m.maxRetryInterval }
      else { m with currentIntervalBase := m.minRetryInterval, retrying := true }
    (randomJitter randMax m.currentIntervalBase m.minRetryInterval m.maxRetryInterval draws).map
      fun interval => { m with currentInterval := interval }.log (.failed m.now)
  else some m

/-- `MQTTAsync_reconnect` with `automaticReconnect`. -/
def reconnect : Client :=
  if m.automaticReconnect && m.shouldBeConnected then
    { m with
      reconnectNow := true
      currentIntervalBase := m.minRetryInterval
      currentInterval := m.minRetryInterval
      retrying := true }.log .reconnect
  else m

/-- What `MQTTAsync_checkTimeouts` does for the client when no connect is under way. -/
def checkTimeouts : Client :=
  if MQTTTime.difftime m.now m.last < 3000 then m
  else
    let m := { m with last := m.now }
    if m.automaticReconnect && m.retrying &&
        (m.reconnectNow ||
          decide ((m.currentInterval : Int) * 1000 < m.elapsed m.lastConnectionFailedTime)) then
      { m with reconnectNow := false }.log (.attempt m.now m.reconnectNow)
    else m

/-- What an input does to the client. -/
def step (settings : Settings) (randMax : ℕ) : Input → Option Client
  | .connect automaticReconnect =>
      some
        { m with
          automaticReconnect := automaticReconnect
          minRetryInterval := settings.minRetryInterval
          maxRetryInterval := settings.maxRetryInterval
          shouldBeConnected := true }
  | .startConnectRetry draws => m.startConnectRetry randMax draws
  | .completeConnection => some ({ m with retrying := false }.log .connected)
  | .reconnect => some m.reconnect
  | .disconnect => some { m with shouldBeConnected := false }
  | .checkTimeouts => some m.checkTimeouts
  | .elapse microseconds => some { m with now := m.now + microseconds }

/-- The client after some inputs, when all of them have returned. -/
def run (settings : Settings) (randMax : ℕ) (inputs : List Input) : Option Client :=
  Machine.run (fun m input => m.bind fun m => m.step settings randMax input) (some create) inputs

end Client

/-! ## The random interval -/

theorem factor_eq : factor = 5404319552844595 / 4503599627370496 := by
  decide +kernel

/-- The product is exact up to the fraction. -/
theorem lengthened_eq {interval : ℕ} (short : interval < 2 ^ 31) :
    lengthened interval = 6 * interval / 5 := by
  rcases Nat.eq_zero_or_pos interval with rfl | positive
  · decide +kernel
  generalize isWhole : 6 * interval / 5 = n
  have low : 5 * n ≤ 6 * interval := by omega
  have high : 6 * interval < 5 * n + 5 := by omega
  have low' : 5 * (n : ℚ) ≤ 6 * interval := by exact_mod_cast low
  have high' : 6 * (interval : ℚ) + 1 ≤ 5 * n + 5 := by exact_mod_cast high
  have positive' : (0 : ℚ) < interval := by exact_mod_cast positive
  have short' : (interval : ℚ) < 2147483648 := by exact_mod_cast short
  have floor : ⌊Doubles.nearest (interval * factor)⌋ = (n : ℤ) := by
    rw [factor_eq]
    apply Doubles.floor_nearest
    · positivity
    · norm_num at short ⊢
      omega
    · by_cases exact : 5 * n = 6 * interval
      · have exact' : 5 * (n : ℚ) = 6 * interval := by exact_mod_cast exact
        linarith
      · have apart : 5 * (n : ℚ) + 1 ≤ 6 * interval := by
          exact_mod_cast Nat.lt_of_le_of_ne low exact
        norm_num
        linarith
    · linarith
  rw [lengthened, floor, Int.toNat_natCast]

/-- The quotient is exact up to the fraction. -/
theorem shortened_eq {interval : ℕ} (short : interval < 2 ^ 31) :
    shortened interval = 5 * interval / 6 := by
  rcases Nat.eq_zero_or_pos interval with rfl | positive
  · decide +kernel
  generalize isWhole : 5 * interval / 6 = n
  have low : 6 * n ≤ 5 * interval := by omega
  have high : 5 * interval < 6 * n + 6 := by omega
  have low' : 6 * (n : ℚ) ≤ 5 * interval := by exact_mod_cast low
  have high' : 5 * (interval : ℚ) + 1 ≤ 6 * n + 6 := by exact_mod_cast high
  have positive' : (0 : ℚ) < interval := by exact_mod_cast positive
  have short' : (interval : ℚ) < 2147483648 := by exact_mod_cast short
  have floor : ⌊Doubles.nearest (interval / factor)⌋ = (n : ℤ) := by
    rw [factor_eq, div_div_eq_mul_div]
    apply Doubles.floor_nearest
    · positivity
    · norm_num at short ⊢
      omega
    · norm_num
      linarith
    · linarith
  rw [shortened, floor, Int.toNat_natCast]

section Jitter

variable {randMax base minInterval maxInterval r n : ℕ} {draws : List ℕ}

/-- What `randomJitter` returns for an interval between the bounds. -/
theorem randomJitter_eq (low : minInterval ≤ base) (high : base ≤ maxInterval)
    (short : 6 * maxInterval / 5 < 2 ^ 31) (positive : 0 < base) :
    randomJitter randMax base minInterval maxInterval draws =
      (randomBelow (randMax / (6 * base / 5 - 5 * base / 6 + 1))
        (randMax / (6 * base / 5 - 5 * base / 6 + 1) * (6 * base / 5 - 5 * base / 6 + 1))
        draws).map (5 * base / 6 + ·) := by
  have fits : base < 2 ^ 31 := by omega
  have apart : 5 * base / 6 < 6 * base / 5 := by
    obtain rfl | rfl | large : base = 1 ∨ base = 2 ∨ 3 ≤ base := by omega
    · decide
    · decide
    · omega
  rw [randomJitter, min_eq_right high, max_eq_right low, lengthened_eq fits, shortened_eq fits,
    if_neg (Nat.not_le_of_lt apart)]

/-- A value of `rand` that is not used does not matter. -/
theorem randomBelow_cons (buckets limit r : ℕ) (draws : List ℕ) :
    randomBelow buckets limit (r :: draws) =
      (randomBelow buckets limit [r]).or (randomBelow buckets limit draws) := by
  rw [randomBelow, randomBelow, randomBelow]
  split <;> rfl

theorem randomBelow_singleton_eq_some_iff {buckets limit : ℕ} :
    randomBelow buckets limit [r] = some n ↔ r < limit ∧ r / buckets = n := by
  rw [randomBelow, randomBelow]
  split
  next above => simp [above]
  next below => simp [Nat.lt_of_not_le below]

theorem randomBelow_lt {range buckets : ℕ}
    (returns : randomBelow buckets (buckets * range) draws = some n) : n < range := by
  induction draws with
  | nil => cases returns
  | cons r draws ih =>
      rw [randomBelow_cons, Option.or_eq_some_iff] at returns
      rcases returns with used | ⟨-, rest⟩
      · rcases randomBelow_singleton_eq_some_iff.mp used with ⟨below, rfl⟩
        exact Nat.div_lt_of_lt_mul below
      · exact ih rest

/-- The values of `rand` for which a number is returned. -/
def valuesFor (randMax base minInterval maxInterval n : ℕ) : Finset ℕ :=
  (Finset.range (randMax + 1)).filter fun r =>
    randomJitter randMax base minInterval maxInterval [r] = some n

/-- The values of `rand` after which another one is needed. -/
def unused (randMax base minInterval maxInterval : ℕ) : Finset ℕ :=
  (Finset.range (randMax + 1)).filter fun r =>
    randomJitter randMax base minInterval maxInterval [r] = none

/--
**The random interval**

A number that `MQTTAsync_randomJitter` returns is between 5/6 and 6/5 of the interval; each such
number is returned for as many values of `rand` as any other, and not more than every second value
is not used.
-/
theorem randomJitter_uniform (low : minInterval ≤ base) (high : base ≤ maxInterval)
    (short : 6 * maxInterval / 5 < 2 ^ 31) (positive : 0 < base)
    (enough : 6 * base / 5 - 5 * base / 6 < randMax) :
    (∀ draws n, randomJitter randMax base minInterval maxInterval draws = some n →
      5 * base / 6 ≤ n ∧ n ≤ 6 * base / 5) ∧
    (∃ count, 0 < count ∧ ∀ n, 5 * base / 6 ≤ n → n ≤ 6 * base / 5 →
      (valuesFor randMax base minInterval maxInterval n).card = count) ∧
    2 * (unused randMax base minInterval maxInterval).card ≤ randMax + 1 ∧
    ∀ r draws, randomJitter randMax base minInterval maxInterval (r :: draws) =
      (randomJitter randMax base minInterval maxInterval [r]).or
        (randomJitter randMax base minInterval maxInterval draws) := by
  have returns : ∀ draws, randomJitter randMax base minInterval maxInterval draws =
      (randomBelow (randMax / (6 * base / 5 - 5 * base / 6 + 1))
        (randMax / (6 * base / 5 - 5 * base / 6 + 1) * (6 * base / 5 - 5 * base / 6 + 1))
        draws).map (5 * base / 6 + ·) := fun draws => randomJitter_eq low high short positive
  have ordered : 5 * base / 6 ≤ 6 * base / 5 := by omega
  generalize isRange : 6 * base / 5 - 5 * base / 6 + 1 = range at returns
  have some_values : 0 < range := by omega
  have fits : range ≤ randMax := by omega
  have some_count : 0 < randMax / range := Nat.div_pos fits some_values
  have limit : randMax / range * range ≤ randMax := Nat.div_mul_le_self randMax range
  refine ⟨fun draws n isN => ?_, ⟨randMax / range, some_count, fun n low' high' => ?_⟩, ?_, ?_⟩
  · rw [returns, Option.map_eq_some_iff] at isN
    rcases isN with ⟨k, isK, rfl⟩
    have := randomBelow_lt isK
    omega
  · have isInterval : valuesFor randMax base minInterval maxInterval n =
        Finset.Ico ((n - 5 * base / 6) * (randMax / range))
          ((n - 5 * base / 6) * (randMax / range) + randMax / range) := by
      ext r
      rw [valuesFor, Finset.mem_filter, Finset.mem_range, returns, Option.map_eq_some_iff,
        Finset.mem_Ico]
      constructor
      · rintro ⟨-, k, isK, rfl⟩
        rcases randomBelow_singleton_eq_some_iff.mp isK with ⟨-, rfl⟩
        rw [Nat.add_sub_cancel_left]
        exact ⟨Nat.div_mul_le_self r _, Nat.lt_div_mul_add some_count⟩
      · rintro ⟨above, below⟩
        have isK : r / (randMax / range) = n - 5 * base / 6 := by
          refine Nat.div_eq_of_lt_le above ?_
          rwa [Nat.succ_mul]
        have inside : r < randMax / range * range := by
          calc r < (n - 5 * base / 6) * (randMax / range) + randMax / range := below
            _ = (n - 5 * base / 6 + 1) * (randMax / range) := (Nat.succ_mul _ _).symm
            _ ≤ range * (randMax / range) := Nat.mul_le_mul_right _ (by omega)
            _ = randMax / range * range := Nat.mul_comm _ _
        refine ⟨by omega, n - 5 * base / 6, ?_, by omega⟩
        exact randomBelow_singleton_eq_some_iff.mpr ⟨inside, isK⟩
    rw [isInterval, Nat.card_Ico, Nat.add_sub_cancel_left]
  · have isInterval : unused randMax base minInterval maxInterval =
        Finset.Ico (randMax / range * range) (randMax + 1) := by
      ext r
      rw [unused, Finset.mem_filter, Finset.mem_range, returns, Option.map_eq_none_iff,
        Finset.mem_Ico, randomBelow, randomBelow]
      split
      next above => simp [above]
      next below => simp [below]
    have next := Nat.lt_div_mul_add (a := randMax) some_values
    have least : range ≤ randMax / range * range := Nat.le_mul_of_pos_left range some_count
    rw [isInterval, Nat.card_Ico]
    omega
  · intro r draws
    rw [returns, returns, returns, randomBelow_cons]
    cases randomBelow (randMax / range) (randMax / range * range) [r] <;> rfl

/-- The interval of a minute, with the smallest `RAND_MAX` that the C standard allows. -/
theorem randomJitter_uniform_minute :
    (1 ≤ 60 ∧ 60 ≤ 60 ∧ 6 * 60 / 5 < 2 ^ 31 ∧ 6 * 60 / 5 - 5 * 60 / 6 < 32767) ∧
      ∀ draws n, randomJitter 32767 60 1 60 draws = some n → 50 ≤ n ∧ n ≤ 72 :=
  ⟨by decide, (randomJitter_uniform (by decide) (by decide) (by decide) (by decide)
    (by decide)).1⟩

end Jitter

/-! ## The intervals over a run -/

/-- How often the interval has been doubled, while the client is to try again. -/
def doublings : List Event → Option ℕ
  | [] => none
  | .failed _ :: earlier => some (((doublings earlier).map (· + 1)).getD 0)
  | .connected :: _ => none
  | .reconnect :: _ => some 0
  | .attempt _ _ :: earlier => doublings earlier

/-- The time of the last failure. -/
def lastFailure : List Event → Int
  | [] => 0
  | .failed time :: _ => time
  | _ :: earlier => lastFailure earlier

/-- The interval after some doublings. -/
def Settings.delay (settings : Settings) (k : ℕ) : ℕ :=
  min (settings.minRetryInterval * 2 ^ k) settings.maxRetryInterval

/-- An interval that is between 5/6 and 6/5 of another. -/
def Near (base interval : ℕ) : Prop :=
  5 * base / 6 ≤ interval ∧ interval ≤ 6 * base / 5

/-- The attempts that nobody asked for came after the interval that was due. -/
def Spaced (settings : Settings) : List Event → Prop
  | [] => True
  | .attempt time false :: earlier =>
      (∃ k ∈ doublings earlier,
        5 * settings.delay k / 6 * 1000 < MQTTTime.difftime time (lastFailure earlier)) ∧
      Spaced settings earlier
  | _ :: earlier => Spaced settings earlier

/-- The fields of the client agree with what has happened. -/
structure BacksOff (settings : Settings) (m : Client) : Prop where
  intervals : m.automaticReconnect = true →
    m.minRetryInterval = settings.minRetryInterval ∧
      m.maxRetryInterval = settings.maxRetryInterval
  retrying : m.retrying = (doublings m.history).isSome
  base : ∀ k ∈ doublings m.history, m.currentIntervalBase = settings.delay k
  interval : ∀ k ∈ doublings m.history, Near (settings.delay k) m.currentInterval
  failed : m.lastConnectionFailedTime = lastFailure m.history
  spaced : Spaced settings m.history

section Runs

variable {settings : Settings} {randMax : ℕ} {m m' : Client}

theorem Settings.delay_zero (settings : Settings) :
    settings.delay 0 = settings.minRetryInterval := by
  rw [delay, pow_zero, Nat.mul_one, min_eq_left settings.ordered]

theorem Settings.delay_succ (settings : Settings) (k : ℕ) :
    min (settings.delay k * 2) settings.maxRetryInterval = settings.delay (k + 1) := by
  rw [delay, delay, pow_succ, ← Nat.mul_assoc]
  omega

theorem near_refl (interval : ℕ) : Near interval interval := by
  constructor
  · omega
  · omega

/-- `randomJitter` returns an interval near the one it is given. -/
theorem near_randomJitter {base interval : ℕ} {draws : List ℕ}
    (low : settings.minRetryInterval ≤ base) (high : base ≤ settings.maxRetryInterval)
    (returns : randomJitter randMax base settings.minRetryInterval settings.maxRetryInterval draws =
      some interval) : Near base interval := by
  have short := settings.short
  rcases Nat.eq_zero_or_pos base with rfl | positive
  · have bound : settings.minRetryInterval = 0 := Nat.le_zero.mp low
    rw [randomJitter, bound, Nat.min_zero, Nat.max_self, lengthened_eq (by decide),
      if_pos (Nat.zero_le _), shortened_eq (by decide), Option.some_inj] at returns
    exact returns ▸ near_refl 0
  · rw [randomJitter_eq low high (by omega) positive, Option.map_eq_some_iff] at returns
    rcases returns with ⟨k, isK, rfl⟩
    have := randomBelow_lt isK
    constructor
    · omega
    · omega

theorem Settings.delay_bounds (settings : Settings) (k : ℕ) :
    settings.minRetryInterval ≤ settings.delay k ∧
      settings.delay k ≤ settings.maxRetryInterval := by
  have grown : settings.minRetryInterval ≤ settings.minRetryInterval * 2 ^ k :=
    Nat.le_mul_of_pos_right _ (Nat.two_pow_pos k)
  exact ⟨le_min grown settings.ordered, min_le_right _ _⟩

/-- An operation that logs nothing and keeps these fields. -/
theorem BacksOff.of_frame (backs : BacksOff settings m) (history : m'.history = m.history)
    (retrying : m'.retrying = m.retrying) (interval : m'.currentInterval = m.currentInterval)
    (base : m'.currentIntervalBase = m.currentIntervalBase)
    (failed : m'.lastConnectionFailedTime = m.lastConnectionFailedTime)
    (intervals : m'.automaticReconnect = true →
      m'.minRetryInterval = settings.minRetryInterval ∧
        m'.maxRetryInterval = settings.maxRetryInterval) : BacksOff settings m' where
  intervals := intervals
  retrying := by rw [retrying, history, backs.retrying]
  base := by
    rw [history, base]
    exact backs.base
  interval := by
    rw [history, interval]
    exact backs.interval
  failed := by rw [failed, history, backs.failed]
  spaced := by
    rw [history]
    exact backs.spaced

/-- The interval that `MQTTAsync_startConnectRetry` starts from. -/
def Client.nextBase (m : Client) : ℕ :=
  if m.retrying then min (m.currentIntervalBase * 2) m.maxRetryInterval else m.minRetryInterval

/-- What `MQTTAsync_startConnectRetry` does when the client is to try again. -/
theorem startConnectRetry_cases {draws : List ℕ}
    (returns : m.startConnectRetry randMax draws = some m') :
    m' = m ∨
      m.automaticReconnect = true ∧ ∃ interval,
        randomJitter randMax m.nextBase m.minRetryInterval m.maxRetryInterval draws =
          some interval ∧
        m' = { m with
          lastConnectionFailedTime := m.now
          currentIntervalBase := m.nextBase
          retrying := true
          currentInterval := interval
          history := .failed m.now :: m.history } := by
  unfold Client.startConnectRetry at returns
  by_cases wanted : (m.automaticReconnect && m.shouldBeConnected) = true
  · refine .inr ⟨(Bool.and_eq_true_iff.mp wanted).1, ?_⟩
    rw [if_pos wanted] at returns
    rw [Client.nextBase]
    cases retrying : m.retrying with
    | true =>
        simp only [retrying, if_true, Option.map_eq_some_iff] at returns
        rcases returns with ⟨interval, jitter, rfl⟩
        exact ⟨interval, jitter, rfl⟩
    | false =>
        simp only [retrying, Bool.false_eq_true, if_false, Option.map_eq_some_iff] at returns
        rcases returns with ⟨interval, jitter, rfl⟩
        exact ⟨interval, jitter, rfl⟩
  · rw [if_neg wanted] at returns
    exact .inl (Option.some_inj.mp returns).symm

theorem BacksOff.startConnectRetry (backs : BacksOff settings m) {draws : List ℕ}
    (returns : m.startConnectRetry randMax draws = some m') : BacksOff settings m' := by
  rcases startConnectRetry_cases returns with rfl | ⟨automatic, interval, jitter, rfl⟩
  · exact backs
  rcases backs.intervals automatic with ⟨isMin, isMax⟩
  rw [isMin, isMax] at jitter
  have isDelay : m.nextBase = settings.delay (((doublings m.history).map (· + 1)).getD 0) := by
    rw [Client.nextBase, backs.retrying, isMin, isMax]
    cases again : doublings m.history with
    | none => exact settings.delay_zero.symm
    | some k =>
        rw [backs.base k again]
        exact settings.delay_succ k
  have isNear : Near m.nextBase interval := by
    apply near_randomJitter _ _ jitter
    · rw [isDelay]
      exact (settings.delay_bounds _).1
    · rw [isDelay]
      exact (settings.delay_bounds _).2
  refine ⟨backs.intervals, rfl, ?_, ?_, rfl, backs.spaced⟩
  · intro k isK
    cases isK
    exact isDelay
  · intro k isK
    cases isK
    rw [← isDelay]
    exact isNear

theorem BacksOff.reconnect (backs : BacksOff settings m) : BacksOff settings m.reconnect := by
  rw [Client.reconnect]
  split
  swap
  next => exact backs
  next wanted =>
    rcases backs.intervals (Bool.and_eq_true_iff.mp wanted).1 with ⟨isMin, isMax⟩
    refine ⟨backs.intervals, rfl, ?_, ?_, backs.failed, backs.spaced⟩
    · intro k isK
      cases isK
      exact isMin.trans settings.delay_zero.symm
    · intro k isK
      cases isK
      rw [settings.delay_zero, ← isMin]
      exact near_refl _

theorem BacksOff.checkTimeouts (backs : BacksOff settings m) :
    BacksOff settings m.checkTimeouts := by
  have passed : BacksOff settings { m with last := m.now } :=
    backs.of_frame rfl rfl rfl rfl rfl backs.intervals
  rw [Client.checkTimeouts]
  split
  · exact backs
  dsimp only
  split
  swap
  next => exact passed
  next due =>
    rw [Bool.and_eq_true, Bool.and_eq_true, Bool.or_eq_true, decide_eq_true_iff] at due
    rcases due with ⟨⟨-, retrying⟩, asked⟩
    refine ⟨backs.intervals, backs.retrying, backs.base, backs.interval, backs.failed, ?_⟩
    cases isAsked : m.reconnectNow with
    | true => exact backs.spaced
    | false =>
        rw [isAsked] at asked
        have late := asked.resolve_left Bool.false_ne_true
        rw [backs.retrying] at retrying
        rcases Option.isSome_iff_exists.mp retrying with ⟨k, isK⟩
        have low := (backs.interval k isK).1
        refine ⟨⟨k, isK, ?_⟩, backs.spaced⟩
        rw [Client.elapsed, backs.failed] at late
        exact lt_of_le_of_lt (by omega) late

theorem step_backsOff {input : Input} (backs : BacksOff settings m)
    (returns : m.step settings randMax input = some m') : BacksOff settings m' := by
  cases input with
  | connect automaticReconnect =>
      cases returns
      exact backs.of_frame rfl rfl rfl rfl rfl fun _ => ⟨rfl, rfl⟩
  | startConnectRetry draws => exact backs.startConnectRetry returns
  | completeConnection =>
      cases returns
      exact ⟨backs.intervals, rfl, nofun, nofun, backs.failed, backs.spaced⟩
  | reconnect =>
      cases returns
      exact backs.reconnect
  | disconnect =>
      cases returns
      exact backs.of_frame rfl rfl rfl rfl rfl backs.intervals
  | checkTimeouts =>
      cases returns
      exact backs.checkTimeouts
  | elapse microseconds =>
      cases returns
      exact backs.of_frame rfl rfl rfl rfl rfl backs.intervals

theorem create_backsOff : BacksOff settings Client.create where
  intervals := nofun
  retrying := rfl
  base := nofun
  interval := nofun
  failed := rfl
  spaced := trivial

theorem run_backsOff {inputs : List Input}
    (reached : Client.run settings randMax inputs = some m) : BacksOff settings m := by
  have preserves : ∀ (c : Option Client) (input : Input), (∀ m ∈ c, BacksOff settings m) →
      ∀ m ∈ c.bind fun m => m.step settings randMax input, BacksOff settings m := by
    intro c input backs m' isM'
    rcases Option.bind_eq_some_iff.mp isM' with ⟨m, isM, returns⟩
    exact step_backsOff (backs m isM) returns
  have initially : ∀ m ∈ some Client.create, BacksOff settings m := by
    intro m isM
    cases isM
    exact create_backsOff
  have holds := @Machine.invariant_of_run _ _
    (fun m input => m.bind fun m => m.step settings randMax input)
    (fun c : Option Client => ∀ m ∈ c, BacksOff settings m) preserves _ initially inputs
  exact holds m reached

/-- The client tries again when the longest interval that may be due is over. -/
theorem BacksOff.prompt (backs : BacksOff settings m) {k : ℕ} (isK : doublings m.history = some k)
    (automatic : m.automaticReconnect = true)
    (checked : 3000 ≤ MQTTTime.difftime m.now m.last)
    (late : 6 * settings.delay k / 5 * 1000 <
      MQTTTime.difftime m.now (lastFailure m.history)) :
    m.checkTimeouts.history = .attempt m.now m.reconnectNow :: m.history := by
  have retrying : m.retrying = true := by rw [backs.retrying, isK]; rfl
  have high := (backs.interval k isK).2
  have due : (m.currentInterval : Int) * 1000 < m.elapsed m.lastConnectionFailedTime := by
    rw [Client.elapsed, backs.failed]
    exact lt_of_le_of_lt (by omega) late
  have due' : decide ((m.currentInterval : Int) * 1000 <
      Client.elapsed { m with last := m.now } m.lastConnectionFailedTime) = true :=
    decide_eq_true due
  rw [Client.checkTimeouts, if_neg (not_lt.mpr checked)]
  dsimp only
  rw [due', automatic, retrying, Bool.or_true]
  rfl

/-- A minute as the longest interval. -/
def minute : Settings where
  minRetryInterval := 1
  maxRetryInterval := 60
  ordered := by decide
  short := by decide

end Runs

end Reconnect

end Paho
