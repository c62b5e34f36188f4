import Mathlib.Logic.Relation
import Mathlib.Data.List.Basic

/-!
# Two-phase delivery

A sender offers an item to a receiver under a number until the receiver confirms it, and then
releases the number until that is confirmed. The receiver passes on an item whose number it does
not hold, and holds the number until it is released. Between them are connections that keep the
order and lose what is under way when they break. One number is looked at, which items take in turn.
-/

namespace Paho

namespace TwoPhase

/-- What is sent, and the confirmation of it. -/
inductive Message where
  | offer
  | release
  deriving DecidableEq, Repr

/-- What the sender waits for. -/
inductive Phase where
  | idle
  | offered
  | released
  deriving DecidableEq, Repr

end TwoPhase

open TwoPhase

/-- A number that sender and receiver use, and what is under way for it. -/
structure TwoPhase where
  phase : Phase
  /-- How often the item that has the number was passed on. -/
  passed : Nat
  /-- A release was sent for the item. -/
  freed : Bool
  /-- A release waits to be sent. -/
  queued : Bool
  /-- What the receiver has not read, oldest first. -/
  forward : List Message
  held : Bool
  /-- The confirmations that the sender has not received, oldest first. -/
  backward : List Message
  /-- There is a connection. -/
  up : Bool
  /-- What the receiver holds belongs to the session of the sender. -/
  current : Bool

namespace TwoPhase

variable {f f' : TwoPhase}

/-- What can happen to a number. -/
inductive Step (f : TwoPhase) : TwoPhase → Prop
  | start (idle : f.phase = .idle) (up : f.up = true) (unqueued : f.queued = false) :
      Step f { f with phase := .offered, passed := 0, freed := false }
  /-- The number is taken by an item that is not offered. -/
  | other (idle : f.phase = .idle) (up : f.up = true) :
      Step f { f with passed := 1, freed := false }
  | offer (offered : f.phase = .offered) (up : f.up = true) :
      Step f { f with forward := f.forward ++ [.offer] }
  | release (may : f.phase = .released ∧ f.up = true ∨ f.queued = true) (written : Bool) :
      Step f { f with
        forward := f.forward ++ (if written then [.release] else [])
        freed := true }
  | enqueue (released : f.phase = .released) (up : f.up = true) : Step f { f with queued := true }
  | dropQueue : Step f { f with queued := false }
  | readOffer {rest : List Message} (isNext : f.forward = .offer :: rest) :
      Step f { f with
        forward := rest
        passed := if f.held then f.passed else f.passed + 1
        held := true
        backward := f.backward ++ [.offer] }
  | readRelease {rest : List Message} (isNext : f.forward = .release :: rest) :
      Step f { f with forward := rest, held := false, backward := f.backward ++ [.release] }
  | accepted {rest : List Message} (up : f.up = true) (isNext : f.backward = .offer :: rest) :
      Step f { f with
        backward := rest
        phase := if f.phase = .offered then .released else f.phase }
  | completed {rest : List Message} (up : f.up = true) (isNext : f.backward = .release :: rest) :
      Step f { f with
        backward := rest
        phase := if f.phase = .released then .idle else f.phase }
  | down : Step f { f with up := false }
  | stale (down : f.up = false) : Step f { f with current := false }
  | discard (stale : f.current = false) : Step f { f with phase := .idle }
  /-- The sender begins anew with what it has kept. -/
  | restart : Step f { f with queued := false, up := false }
  /-- The sender has not kept that its item was accepted, and has sent no release. -/
  | fallBack (down : f.up = false) (unqueued : f.queued = false) (released : f.phase = .released)
      (unfreed : f.freed = false) : Step f { f with phase := .offered }
  /-- A connection with the sessions that both have. -/
  | resume (current : f.current = true) :
      Step f { f with forward := [], backward := [], up := true }
  /-- A connection with new sessions. -/
  | renew :
      Step f { f with
        phase := .idle
        forward := []
        held := false
        backward := []
        up := true
        current := true }

/-- Nowhere in a list is `b` behind `a`. -/
def NoneBehind (a b : Message) (messages : List Message) : Prop :=
  messages.Pairwise fun x y => x = a → y ≠ b

theorem noneBehind_nil (a b : Message) : NoneBehind a b [] :=
  List.Pairwise.nil

theorem noneBehind_cons {a b c : Message} {messages : List Message} :
    NoneBehind a b (c :: messages) ↔ (c = a → b ∉ messages) ∧ NoneBehind a b messages := by
  rw [NoneBehind, List.pairwise_cons]
  apply and_congr_left
  intro _
  constructor
  · intro none same mem
    exact none b mem same rfl
  · rintro none d mem same rfl
    exact none same mem

theorem noneBehind_append {a b : Message} {left right : List Message} :
    NoneBehind a b (left ++ right) ↔
      NoneBehind a b left ∧ NoneBehind a b right ∧ (a ∈ left → b ∉ right) := by
  induction left with
  | nil => simp [noneBehind_nil]
  | cons c left ih =>
      rw [List.cons_append, noneBehind_cons, noneBehind_cons, ih, List.mem_append, List.mem_cons]
      constructor
      · rintro ⟨here, order, rest, apart⟩
        refine ⟨⟨fun same => not_or.mp (here same) |>.1, order⟩, rest, ?_⟩
        rintro (rfl | mem)
        · exact (not_or.mp (here rfl)).2
        · exact apart mem
      · rintro ⟨⟨here, order⟩, rest, apart⟩
        exact ⟨fun same => not_or.mpr ⟨here same, apart (.inl same.symm)⟩, order, rest,
          fun mem => apart (.inr mem)⟩

theorem noneBehind_of_notMem {a b : Message} {messages : List Message}
    (none : a ∉ messages ∨ b ∉ messages) : NoneBehind a b messages := by
  rw [NoneBehind, List.pairwise_iff_forall_sublist]
  rintro c d sublist rfl rfl
  rcases none with none | none
  · exact none (sublist.subset List.mem_cons_self)
  · exact none (sublist.subset (List.mem_cons_of_mem _ List.mem_cons_self))

/-! ## The invariant -/

/-- What is read from now on passes the item on at most once. -/
inductive Sound (f : TwoPhase) : Prop
  | before (passed : f.passed = 0) (free : f.held = false) (unqueued : f.queued = false)
      (order : NoneBehind .offer .release f.forward)
  | after (passed : f.passed = 1) (order : NoneBehind .release .offer f.forward)
      (spent : f.held = false → .offer ∉ f.forward)

/-- The sender waits for an offer to be confirmed. -/
structure Offered (f : TwoPhase) : Prop where
  unqueued : f.queued = false
  holds : f.passed = 1 → f.held = true ∧ .release ∉ f.forward
  order : f.up = true → NoneBehind .offer .release (f.backward ++ f.forward)
  confirmed : f.up = true → .offer ∈ f.backward → f.held = true

/-- The sender waits for a release to be confirmed. -/
structure Released (f : TwoPhase) : Prop where
  passed : f.passed = 1
  freed : .release ∈ f.forward ∨ f.held = false → f.freed = true
  order : f.up = true → NoneBehind .release .offer (f.backward ++ f.forward)
  confirmed : f.up = true → .release ∈ f.backward → f.held = false

/-- The sender waits for nothing. -/
structure Idle (f : TwoPhase) : Prop where
  free : f.held = false
  nothing : .offer ∉ f.forward
  unconfirmed : f.up = true → .offer ∉ f.backward

/-- What holds of a number throughout. -/
structure Inv (f : TwoPhase) : Prop where
  sound : f.Sound
  current : f.up = true → f.current = true
  offered : f.current = true → f.phase = .offered → f.Offered
  released : f.current = true → f.phase = .released → f.Released
  idle : f.current = true → f.phase = .idle → f.Idle

/-- The phase and the confirmations under way do not matter for it. -/
theorem Sound.of_same (sound : f.Sound) (passed : f'.passed = f.passed) (held : f'.held = f.held)
    (queued : f'.queued = f.queued) (forward : f'.forward = f.forward) : f'.Sound := by
  cases sound with
  | before none free unqueued order =>
      exact .before (passed.trans none) (held.trans free) (queued.trans unqueued) (forward ▸ order)
  | after once order spent =>
      refine .after (passed.trans once) (forward ▸ order) fun free => ?_
      rw [forward]
      exact spent (held.symm.trans free)

namespace Inv

variable {rest : List Message}

theorem start (inv : f.Inv) (idle : f.phase = .idle) (up : f.up = true)
    (unqueued : f.queued = false) :
    Inv { f with phase := .offered, passed := 0, freed := false } := by
  have quiet := inv.idle (inv.current up) idle
  have order : NoneBehind .offer .release (f.backward ++ f.forward) := by
    refine noneBehind_of_notMem (.inl ?_)
    rw [List.mem_append, not_or]
    exact ⟨quiet.unconfirmed up, quiet.nothing⟩
  constructor
  · exact .before rfl quiet.free unqueued (noneBehind_append.mp order).2.1
  · exact inv.current
  · intro _ _
    exact ⟨unqueued, fun passed => (nomatch passed), fun _ => order,
      fun _ mem => absurd mem (quiet.unconfirmed up)⟩
  · exact fun _ impossible => nomatch impossible
  · exact fun _ impossible => nomatch impossible

theorem other (inv : f.Inv) (idle : f.phase = .idle) (up : f.up = true) :
    Inv { f with passed := 1, freed := false } := by
  have quiet := inv.idle (inv.current up) idle
  constructor
  · exact .after rfl (noneBehind_of_notMem (.inr quiet.nothing)) fun _ => quiet.nothing
  · exact inv.current
  · exact fun _ isOffered => nomatch idle.symm.trans isOffered
  · exact fun _ isReleased => nomatch idle.symm.trans isReleased
  · exact fun _ _ => ⟨quiet.free, quiet.nothing, quiet.unconfirmed⟩

theorem offer (inv : f.Inv) (offered : f.phase = .offered) (up : f.up = true) :
    Inv { f with forward := f.forward ++ [.offer] } := by
  have waits := inv.offered (inv.current up) offered
  have noRelease : .release ∉ [Message.offer] := by decide
  constructor
  · cases inv.sound with
    | before passed free unqueued order =>
        refine .before passed free unqueued ?_
        exact noneBehind_append.mpr
          ⟨order, noneBehind_of_notMem (.inr noRelease), fun _ => noRelease⟩
    | after passed order spent =>
        rcases waits.holds passed with ⟨held, unreleased⟩
        refine .after passed ?_ fun free => absurd (held.symm.trans free) (by decide)
        refine noneBehind_append.mpr ⟨order, ?_, fun mem => absurd mem unreleased⟩
        exact noneBehind_cons.mpr ⟨fun same => (nomatch same), noneBehind_nil _ _⟩
  · exact inv.current
  · intro _ _
    refine ⟨waits.unqueued, ?_, ?_, waits.confirmed⟩
    · intro passed
      rcases waits.holds passed with ⟨held, unreleased⟩
      refine ⟨held, ?_⟩
      rw [List.mem_append, not_or]
      exact ⟨unreleased, noRelease⟩
    · intro up
      rw [← List.append_assoc]
      exact noneBehind_append.mpr ⟨waits.order up, noneBehind_of_notMem (.inr noRelease),
        fun _ => noRelease⟩
  · exact fun _ released => nomatch offered.symm.trans released
  · exact fun _ idle => nomatch offered.symm.trans idle

theorem release (inv : f.Inv) (may : f.phase = .released ∧ f.up = true ∨ f.queued = true)
    (written : Bool) :
    Inv { f with
      forward := f.forward ++ (if written then [.release] else [])
      freed := true } := by
  have noOffer : .offer ∉ (if written then [Message.release] else []) := by
    cases written <;> decide
  have passed : f.passed = 1 := by
    rcases may with ⟨released, up⟩ | queued
    · exact (inv.released (inv.current up) released).passed
    · cases inv.sound with
      | before _ _ unqueued => exact nomatch queued.symm.trans unqueued
      | after passed => exact passed
  have notOffered (current : f.current = true) (offered : f.phase = .offered) : False := by
    rcases may with ⟨released, -⟩ | queued
    · exact nomatch offered.symm.trans released
    · exact nomatch queued.symm.trans (inv.offered current offered).unqueued
  have behind {messages : List Message} (order : NoneBehind .release .offer messages) :
      NoneBehind .release .offer (messages ++ (if written then [.release] else [])) :=
    noneBehind_append.mpr ⟨order, noneBehind_of_notMem (.inr noOffer), fun _ => noOffer⟩
  constructor
  · cases inv.sound with
    | before none => exact nomatch none.symm.trans passed
    | after passed order spent =>
        refine .after passed (behind order) fun free => ?_
        rw [List.mem_append, not_or]
        exact ⟨spent free, noOffer⟩
  · exact inv.current
  · exact fun current offered => (notOffered current offered).elim
  · intro current released
    have waits := inv.released current released
    refine ⟨passed, fun _ => rfl, fun up => ?_, waits.confirmed⟩
    rw [← List.append_assoc]
    exact behind (waits.order up)
  · intro current idle
    have quiet := inv.idle current idle
    refine ⟨quiet.free, ?_, quiet.unconfirmed⟩
    rw [List.mem_append, not_or]
    exact ⟨quiet.nothing, noOffer⟩

theorem enqueue (inv : f.Inv) (released : f.phase = .released) (up : f.up = true) :
    Inv { f with queued := true } := by
  have waits := inv.released (inv.current up) released
  constructor
  · cases inv.sound with
    | before none => exact nomatch none.symm.trans waits.passed
    | after passed order spent => exact .after passed order spent
  · exact inv.current
  · exact fun _ offered => nomatch released.symm.trans offered
  · exact fun _ _ => ⟨waits.passed, waits.freed, waits.order, waits.confirmed⟩
  · exact fun _ idle => nomatch released.symm.trans idle

theorem dropQueue (inv : f.Inv) : Inv { f with queued := false } := by
  constructor
  · cases inv.sound with
    | before passed free _ order => exact .before passed free rfl order
    | after passed order spent => exact .after passed order spent
  · exact inv.current
  · intro current offered
    have waits := inv.offered current offered
    exact ⟨rfl, waits.holds, waits.order, waits.confirmed⟩
  · intro current released
    have waits := inv.released current released
    exact ⟨waits.passed, waits.freed, waits.order, waits.confirmed⟩
  · intro current idle
    have quiet := inv.idle current idle
    exact ⟨quiet.free, quiet.nothing, quiet.unconfirmed⟩

theorem readOffer (inv : f.Inv) (isNext : f.forward = .offer :: rest) :
    Inv { f with
      forward := rest
      passed := if f.held then f.passed else f.passed + 1
      held := true
      backward := f.backward ++ [.offer] } := by
  have isOffer : .offer ∈ f.forward := isNext ▸ List.mem_cons_self
  have same : f.backward ++ [.offer] ++ rest = f.backward ++ f.forward := by
    rw [isNext, List.append_assoc, List.singleton_append]
  have once : (if f.held then f.passed else f.passed + 1) = 1 := by
    cases inv.sound with
    | before passed free => simp [passed, free]
    | after passed _ spent =>
        have held : f.held = true := by
          by_contra free
          exact spent (by simpa using free) isOffer
        simp [passed, held]
  constructor
  · refine .after once ?_ fun free => nomatch free
    cases inv.sound with
    | before _ _ _ order =>
        rw [isNext, noneBehind_cons] at order
        exact noneBehind_of_notMem (.inl (order.1 rfl))
    | after _ order =>
        rw [isNext, noneBehind_cons] at order
        exact order.2
  · exact inv.current
  · intro current offered
    have waits := inv.offered current offered
    refine ⟨waits.unqueued, fun _ => ⟨rfl, ?_⟩, fun up => ?_, fun _ _ => rfl⟩
    · cases inv.sound with
      | before _ _ _ order =>
          rw [isNext, noneBehind_cons] at order
          exact order.1 rfl
      | after passed =>
          have unreleased := (waits.holds passed).2
          rw [isNext, List.mem_cons, not_or] at unreleased
          exact unreleased.2
    · rw [same]
      exact waits.order up
  · intro current released
    have waits := inv.released current released
    have held : f.held = true := by
      cases inv.sound with
      | before none => exact nomatch none.symm.trans waits.passed
      | after _ _ spent =>
          by_contra free
          exact spent (by simpa using free) isOffer
    refine ⟨once, ?_, fun up => ?_, ?_⟩
    · rintro (mem | impossible)
      · exact waits.freed (.inl (isNext ▸ List.mem_cons_of_mem _ mem))
      · cases impossible
    · rw [same]
      exact waits.order up
    · intro up mem
      rw [List.mem_append] at mem
      rcases mem with mem | impossible
      · exact nomatch held.symm.trans (waits.confirmed up mem)
      · exact absurd impossible (by decide)
  · exact fun current idle => absurd isOffer (inv.idle current idle).nothing

theorem readRelease (inv : f.Inv) (isNext : f.forward = .release :: rest) :
    Inv { f with forward := rest, held := false, backward := f.backward ++ [.release] } := by
  have isRelease : .release ∈ f.forward := isNext ▸ List.mem_cons_self
  have same : f.backward ++ [.release] ++ rest = f.backward ++ f.forward := by
    rw [isNext, List.append_assoc, List.singleton_append]
  constructor
  · cases inv.sound with
    | before passed free unqueued order =>
        rw [isNext, noneBehind_cons] at order
        exact .before passed rfl unqueued order.2
    | after passed order =>
        rw [isNext, noneBehind_cons] at order
        exact .after passed order.2 fun _ => order.1 rfl
  · exact inv.current
  · intro current offered
    have waits := inv.offered current offered
    cases inv.sound with
    | before passed free =>
        refine ⟨waits.unqueued, fun impossible => (nomatch passed.symm.trans impossible),
          fun up => ?_, ?_⟩
        · rw [same]
          exact waits.order up
        · intro up mem
          rw [List.mem_append] at mem
          rcases mem with mem | impossible
          · exact nomatch free.symm.trans (waits.confirmed up mem)
          · exact absurd impossible (by decide)
    | after passed => exact absurd isRelease (waits.holds passed).2
  · intro current released
    have waits := inv.released current released
    refine ⟨waits.passed, fun _ => waits.freed (.inl isRelease), fun up => ?_, fun _ _ => rfl⟩
    rw [same]
    exact waits.order up
  · intro current idle
    have quiet := inv.idle current idle
    refine ⟨rfl, ?_, fun up => ?_⟩
    · have nothing := quiet.nothing
      rw [isNext, List.mem_cons, not_or] at nothing
      exact nothing.2
    · change _ ∉ _ ++ _
      rw [List.mem_append, not_or]
      exact ⟨quiet.unconfirmed up, by decide⟩

theorem accepted (inv : f.Inv) (up : f.up = true) (isNext : f.backward = .offer :: rest) :
    Inv { f with
      backward := rest
      phase := if f.phase = .offered then .released else f.phase } := by
  have current := inv.current up
  have isOffer : .offer ∈ f.backward := isNext ▸ List.mem_cons_self
  cases isPhase : f.phase with
  | offered =>
      have waits := inv.offered current isPhase
      have held := waits.confirmed up isOffer
      have passed : f.passed = 1 := by
        cases inv.sound with
        | before _ free => exact nomatch held.symm.trans free
        | after passed => exact passed
      have noRelease : .release ∉ rest ++ f.forward := by
        have order := waits.order up
        rw [isNext, List.cons_append, noneBehind_cons] at order
        exact order.1 rfl
      rw [List.mem_append, not_or] at noRelease
      refine ⟨?_, inv.current, fun _ impossible => (nomatch impossible), fun _ _ => ?_,
        fun _ impossible => (nomatch impossible)⟩
      · cases inv.sound with
        | before none => exact nomatch none.symm.trans passed
        | after _ order spent => exact .after passed order spent
      · refine ⟨passed, ?_, fun _ => ?_, fun _ mem => absurd mem noRelease.1⟩
        · rintro (mem | free)
          · exact absurd mem noRelease.2
          · exact nomatch held.symm.trans free
        · exact noneBehind_of_notMem (.inl (List.mem_append.not.mpr (not_or.mpr noRelease)))
  | released =>
      have waits := inv.released current isPhase
      refine ⟨?_, inv.current, fun _ impossible => (nomatch impossible), fun _ _ => ?_,
        fun _ impossible => (nomatch impossible)⟩
      · exact inv.sound.of_same rfl rfl rfl rfl
      · refine ⟨waits.passed, waits.freed, fun up => ?_, fun up mem => ?_⟩
        · have order := waits.order up
          rw [isNext, List.cons_append, noneBehind_cons] at order
          exact order.2
        · exact waits.confirmed up (isNext ▸ List.mem_cons_of_mem _ mem)
  | idle => exact absurd isOffer ((inv.idle current isPhase).unconfirmed up)

theorem completed (inv : f.Inv) (up : f.up = true) (isNext : f.backward = .release :: rest) :
    Inv { f with
      backward := rest
      phase := if f.phase = .released then .idle else f.phase } := by
  have current := inv.current up
  have isRelease : .release ∈ f.backward := isNext ▸ List.mem_cons_self
  have sound : Sound { f with
      backward := rest
      phase := if f.phase = .released then .idle else f.phase } := by
    exact inv.sound.of_same rfl rfl rfl rfl
  refine ⟨sound, inv.current, ?_, ?_, ?_⟩
  · intro _ offered
    cases isPhase : f.phase with
    | offered =>
        have waits := inv.offered current isPhase
        refine ⟨waits.unqueued, waits.holds, fun up => ?_, fun up mem => ?_⟩
        · have order := waits.order up
          rw [isNext, List.cons_append, noneBehind_cons] at order
          exact order.2
        · exact waits.confirmed up (isNext ▸ List.mem_cons_of_mem _ mem)
    | released => simp [isPhase] at offered
    | idle => simp [isPhase] at offered
  · intro _ released
    cases isPhase : f.phase with
    | offered => simp [isPhase] at released
    | released => simp [isPhase] at released
    | idle => simp [isPhase] at released
  · intro _ idle
    cases isPhase : f.phase with
    | offered => simp [isPhase] at idle
    | released =>
        have waits := inv.released current isPhase
        have free := waits.confirmed up isRelease
        refine ⟨free, ?_, fun up => ?_⟩
        · cases inv.sound with
          | before none => exact nomatch none.symm.trans waits.passed
          | after _ _ spent => exact spent free
        · have order := waits.order up
          rw [isNext, List.cons_append, noneBehind_cons, List.mem_append, not_or] at order
          exact (order.1 rfl).1
    | idle =>
        have quiet := inv.idle current isPhase
        refine ⟨quiet.free, quiet.nothing, fun up mem => ?_⟩
        exact quiet.unconfirmed up (isNext ▸ List.mem_cons_of_mem _ mem)

theorem down (inv : f.Inv) : Inv { f with up := false } := by
  refine ⟨?_, fun impossible => (nomatch impossible), ?_, ?_, ?_⟩
  · exact inv.sound.of_same rfl rfl rfl rfl
  · intro current offered
    have waits := inv.offered current offered
    exact ⟨waits.unqueued, waits.holds, fun impossible => (nomatch impossible),
      fun impossible => (nomatch impossible)⟩
  · intro current released
    have waits := inv.released current released
    exact ⟨waits.passed, waits.freed, fun impossible => (nomatch impossible),
      fun impossible => (nomatch impossible)⟩
  · intro current idle
    have quiet := inv.idle current idle
    exact ⟨quiet.free, quiet.nothing, fun impossible => (nomatch impossible)⟩

/-- Of a session that is not that of the receiver only what is under way matters. -/
theorem of_stale (sound : f.Sound) (down : f.up = false) (stale : f.current = false) : f.Inv where
  sound := sound
  current := fun up => (nomatch down.symm.trans up)
  offered := fun current => (nomatch stale.symm.trans current)
  released := fun current => (nomatch stale.symm.trans current)
  idle := fun current => (nomatch stale.symm.trans current)

theorem stale (inv : f.Inv) (down : f.up = false) : Inv { f with current := false } := by
  refine of_stale ?_ down rfl
  exact inv.sound.of_same rfl rfl rfl rfl

theorem discard (inv : f.Inv) (stale : f.current = false) : Inv { f with phase := .idle } := by
  refine of_stale ?_ ?_ stale
  · exact inv.sound.of_same rfl rfl rfl rfl
  · by_contra up
    exact nomatch stale.symm.trans (inv.current (by simpa using up))

theorem fallBack (inv : f.Inv) (down : f.up = false) (unqueued : f.queued = false)
    (released : f.phase = .released) (unfreed : f.freed = false) :
    Inv { f with phase := .offered } := by
  refine ⟨?_, inv.current, ?_, fun _ impossible => (nomatch impossible),
    fun _ impossible => (nomatch impossible)⟩
  · exact inv.sound.of_same rfl rfl rfl rfl
  · intro current _
    have waits := inv.released current released
    refine ⟨unqueued, fun _ => ⟨?_, ?_⟩, fun up => (nomatch down.symm.trans up),
      fun up => (nomatch down.symm.trans up)⟩
    · by_contra free
      exact nomatch unfreed.symm.trans (waits.freed (.inr (by simpa using free)))
    · intro mem
      exact nomatch unfreed.symm.trans (waits.freed (.inl mem))

theorem resume (inv : f.Inv) (current : f.current = true) :
    Inv { f with forward := [], backward := [], up := true } := by
  refine ⟨?_, fun _ => current, ?_, ?_, ?_⟩
  · cases inv.sound with
    | before passed free unqueued => exact .before passed free unqueued (noneBehind_nil _ _)
    | after passed => exact .after passed (noneBehind_nil _ _) fun _ => List.not_mem_nil
  · intro _ offered
    have waits := inv.offered current offered
    exact ⟨waits.unqueued, fun passed => ⟨(waits.holds passed).1, List.not_mem_nil⟩,
      fun _ => noneBehind_nil _ _, fun _ mem => absurd mem List.not_mem_nil⟩
  · intro _ released
    have waits := inv.released current released
    refine ⟨waits.passed, ?_, fun _ => noneBehind_nil _ _, fun _ mem => absurd mem List.not_mem_nil⟩
    rintro (mem | free)
    · exact absurd mem List.not_mem_nil
    · exact waits.freed (.inr free)
  · intro _ idle
    exact ⟨(inv.idle current idle).free, List.not_mem_nil, fun _ => List.not_mem_nil⟩

theorem renew (inv : f.Inv) :
    Inv { f with
      phase := .idle
      forward := []
      held := false
      backward := []
      up := true
      current := true } := by
  refine ⟨?_, fun _ => rfl, fun _ impossible => (nomatch impossible),
    fun _ impossible => (nomatch impossible),
    fun _ _ => ⟨rfl, List.not_mem_nil, fun _ => List.not_mem_nil⟩⟩
  cases inv.sound with
  | before passed _ unqueued => exact .before passed rfl unqueued (noneBehind_nil _ _)
  | after passed => exact .after passed (noneBehind_nil _ _) fun _ => List.not_mem_nil

end Inv

/-- Every step keeps the invariant. -/
theorem Step.inv (step : f.Step f') (inv : f.Inv) : f'.Inv := by
  cases step with
  | start idle up unqueued => exact inv.start idle up unqueued
  | other idle up => exact inv.other idle up
  | offer offered up => exact inv.offer offered up
  | release may written => exact inv.release may written
  | enqueue released up => exact inv.enqueue released up
  | dropQueue => exact inv.dropQueue
  | readOffer isNext => exact inv.readOffer isNext
  | readRelease isNext => exact inv.readRelease isNext
  | accepted up isNext => exact inv.accepted up isNext
  | completed up isNext => exact inv.completed up isNext
  | down => exact inv.down
  | stale down => exact inv.stale down
  | discard stale => exact inv.discard stale
  | restart => exact inv.dropQueue.down
  | fallBack down unqueued released unfreed => exact inv.fallBack down unqueued released unfreed
  | resume current => exact inv.resume current
  | renew => exact inv.renew

theorem Inv.steps (inv : f.Inv) (steps : Relation.ReflTransGen Step f f') : f'.Inv := by
  induction steps with
  | refl => exact inv
  | tail _ step ih => exact step.inv ih

end TwoPhase

end Paho
