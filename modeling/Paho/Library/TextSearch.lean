import Mathlib.Data.List.Infix

/-!
# Searching in texts

The first place of a text where a pattern stands, and the comparison of the first symbols of two
strings that end with a terminator.
-/

namespace Paho

namespace TextSearch

universe u

variable {Symbol : Type u} [DecidableEq Symbol]

/-- The first place where a pattern stands. -/
def place (pattern : List Symbol) : List Symbol → Option Nat
  | [] => if pattern = [] then some 0 else none
  | c :: text => if pattern <+: c :: text then some 0 else (place pattern text).map (· + 1)

/-- Whether the first `n` symbols of two strings agree, where nothing is compared behind a
terminator. There is no result when that goes beyond the end of one of them. -/
def agree (terminator : Symbol) : List Symbol → List Symbol → Nat → Option Bool
  | _, _, 0 => some true
  | a :: left, b :: right, n + 1 =>
      if a ≠ b then some false
      else if a = terminator then some true
      else agree terminator left right n
  | _, _, _ + 1 => none

variable {pattern text more : List Symbol} {n : Nat}

theorem place_eq_some_iff :
    place pattern text = some n ↔
      n ≤ text.length ∧ pattern <+: text.drop n ∧ ∀ m < n, ¬pattern <+: text.drop m := by
  induction text generalizing n with
  | nil =>
      rw [place]
      constructor
      · intro found
        split at found
        next isEmpty =>
          cases found
          exact ⟨Nat.le_refl 0, by simp [isEmpty], fun m less => absurd less (Nat.not_lt_zero m)⟩
        next => cases found
      · rintro ⟨inside, here, -⟩
        rw [List.drop_nil, List.prefix_nil] at here
        rw [if_pos here, Nat.le_zero.mp inside]
  | cons c text ih =>
      rw [place]
      by_cases here : pattern <+: c :: text
      · rw [if_pos here]
        constructor
        · intro found
          cases found
          exact ⟨Nat.zero_le _, here, fun m less => absurd less (Nat.not_lt_zero m)⟩
        · rintro ⟨-, -, first⟩
          cases n with
          | zero => rfl
          | succ n => exact absurd here (first 0 (Nat.succ_pos n))
      · rw [if_neg here, Option.map_eq_some_iff]
        constructor
        · rintro ⟨k, found, rfl⟩
          rcases ih.mp found with ⟨inside, there, first⟩
          refine ⟨Nat.succ_le_succ inside, there, fun m less => ?_⟩
          cases m with
          | zero => exact here
          | succ m => exact first m (Nat.lt_of_succ_lt_succ less)
        · rintro ⟨inside, there, first⟩
          cases n with
          | zero => exact absurd there here
          | succ n =>
              refine ⟨n, ih.mpr ⟨Nat.le_of_succ_le_succ inside, there, fun m less => ?_⟩, rfl⟩
              exact first (m + 1) (Nat.succ_lt_succ less)

/-- The pattern stands at no place exactly when it is nowhere in the text. -/
theorem place_eq_none_iff : place pattern text = none ↔ ¬pattern <:+: text := by
  induction text with
  | nil => simp [place, List.infix_nil]
  | cons c text ih =>
      rw [place, List.infix_cons_iff, not_or]
      by_cases here : pattern <+: c :: text
      · rw [if_pos here]
        exact iff_of_false (Option.some_ne_none 0) fun nowhere => nowhere.1 here
      · rw [if_neg here, Option.map_eq_none_iff, ih]
        exact (and_iff_right here).symm

variable {terminator : Symbol} {value string : List Symbol}

/-- A value without more symbols than are compared agrees with a terminated string when it is a
beginning of the string, or the string with its terminator is a beginning of the value. -/
theorem agree_iff (clean : terminator ∉ string) :
    agree terminator (value ++ more) (string ++ terminator :: text) value.length = some true ↔
      value <+: string ∨ string ++ [terminator] <+: value := by
  induction value generalizing string with
  | nil => simp [agree]
  | cons a value ih =>
      cases string with
      | nil =>
          by_cases same : a = terminator
          · simp [agree, same]
          · simp [agree, same, Ne.symm same]
      | cons b string =>
          rcases not_or.mp (fun mem => clean (List.mem_cons.mpr mem)) with ⟨isSymbol, clean'⟩
          by_cases same : a = b
          · subst same
            have rest := ih clean'
            simp only [List.cons_append, List.length_cons, agree, ne_eq, not_true_eq_false,
              if_false, if_neg (Ne.symm isSymbol), rest, List.cons_prefix_cons, true_and]
          · simp [agree, same, eq_comm, List.cons_prefix_cons]

/-- A text agrees with a pattern in as many symbols as the pattern has when it begins with it. -/
theorem agree_pattern (clean : terminator ∉ pattern) (enough : pattern.length ≤ text.length) :
    agree terminator text (pattern ++ more) pattern.length = some true ↔ pattern <+: text := by
  induction pattern generalizing text with
  | nil => simp [agree]
  | cons b pattern ih =>
      rcases not_or.mp (fun mem => clean (List.mem_cons.mpr mem)) with ⟨isSymbol, clean'⟩
      cases text with
      | nil => cases enough
      | cons a text =>
          rw [List.cons_append, List.length_cons, agree, List.cons_prefix_cons]
          by_cases same : a = b
          · subst same
            rw [if_neg (not_not.mpr rfl), if_neg (Ne.symm isSymbol),
              ih clean' (Nat.le_of_succ_le_succ enough)]
            exact (and_iff_right rfl).symm
          · rw [if_pos same]
            simp [Ne.symm same]

/-- The comparison of a value with a terminated string stays inside of both. -/
theorem agree_ne_none (clean : terminator ∉ string) :
    agree terminator (value ++ more) (string ++ terminator :: text) value.length ≠ none := by
  induction value generalizing string with
  | nil => simp [agree]
  | cons a value ih =>
      cases string with
      | nil =>
          rw [List.cons_append, List.nil_append, List.length_cons, agree]
          split
          · simp
          next same =>
            rw [if_pos (not_not.mp same)]
            simp
      | cons b string =>
          rw [List.cons_append, List.cons_append, List.length_cons, agree]
          split
          · simp
          · split
            · simp
            · exact ih fun mem => clean (List.mem_cons_of_mem b mem)

end TextSearch

end Paho
