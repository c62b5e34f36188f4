import Mathlib.Algebra.Order.Round
import Mathlib.Data.Int.Log
import Mathlib.Data.Rat.Floor
import Mathlib.Tactic.Linarith
import Mathlib.Tactic.NormNum
import Mathlib.Tactic.Ring

/-!
# Numbers of double precision

Rounding of positive numbers to 53 binary digits, the nearest first and of two the even one. The
exponents are not bounded.
-/

namespace Paho

namespace Doubles

/-- A number with 53 binary digits. -/
def Representable (x : ℚ) : Prop :=
  ∃ m k : ℤ, |m| ≤ 2 ^ 53 ∧ x = m * 2 ^ k

/-- The nearest integer, and of two the even one. -/
def halfEven (y : ℚ) : ℤ :=
  if y - ⌊y⌋ < 1 / 2 then ⌊y⌋
  else if 1 / 2 < y - ⌊y⌋ then ⌊y⌋ + 1
  else if 2 ∣ ⌊y⌋ then ⌊y⌋
  else ⌊y⌋ + 1

/-- The number of double precision for a positive number. -/
def nearest (q : ℚ) : ℚ :=
  halfEven (q / 2 ^ (Int.log 2 q - 52)) * 2 ^ (Int.log 2 q - 52)

variable {q x : ℚ}

theorem abs_halfEven_sub (y : ℚ) (m : ℤ) : |halfEven y - y| ≤ |m - y| := by
  have low := Int.floor_le y
  have high := Int.lt_floor_add_one y
  have cases : (m : ℚ) ≤ ⌊y⌋ ∨ (⌊y⌋ : ℚ) + 1 ≤ m := by
    rcases le_or_gt m ⌊y⌋ with below | above
    · left
      exact_mod_cast below
    · right
      exact_mod_cast above
  have far : min (y - ⌊y⌋) (⌊y⌋ + 1 - y) ≤ |m - y| := by
    rcases cases with below | above
    · rw [abs_sub_comm]
      exact (min_le_left _ _).trans ((sub_le_sub_left below y).trans (le_abs_self _))
    · exact (min_le_right _ _).trans ((sub_le_sub_right above y).trans (le_abs_self _))
  refine le_trans ?_ far
  unfold halfEven
  split_ifs with small large
  · rw [abs_sub_comm, abs_of_nonneg (by linarith)]
    exact le_min le_rfl (by linarith)
  · push_cast
    rw [abs_of_nonneg (by linarith)]
    exact le_min (by linarith) le_rfl
  · rw [abs_sub_comm, abs_of_nonneg (by linarith)]
    exact le_min le_rfl (by linarith)
  · push_cast
    rw [abs_of_nonneg (by linarith)]
    exact le_min (by linarith) le_rfl

theorem representable_natCast {n : ℕ} (small : n ≤ 2 ^ 53) (k : ℤ) :
    Representable (n * 2 ^ k) := by
  refine ⟨n, k, ?_, by rw [Int.cast_natCast]⟩
  rw [abs_of_nonneg (Int.natCast_nonneg n)]
  exact_mod_cast small

/-- The unit in the last place of a positive number. -/
theorem unit_bounds (positive : 0 < q) :
    (2 : ℚ) ^ 52 * 2 ^ (Int.log 2 q - 52) ≤ q ∧ q < 2 ^ 53 * 2 ^ (Int.log 2 q - 52) := by
  have low := Int.zpow_log_le_self one_lt_two positive
  have high := Int.lt_zpow_succ_log_self one_lt_two q
  have nonzero : (2 : ℚ) ≠ 0 := two_ne_zero
  constructor
  · rw [← zpow_natCast, ← zpow_add₀ nonzero]
    simpa using low
  · rw [← zpow_natCast, ← zpow_add₀ nonzero]
    have sum : ((53 : ℕ) : ℤ) + (Int.log 2 q - 52) = Int.log 2 q + 1 := by
      push_cast
      ring
    rw [sum]
    simpa using high

/-- No number with 53 digits is nearer. -/
theorem abs_nearest_sub (positive : 0 < q) (representable : Representable x) :
    |nearest q - q| ≤ |x - q| := by
  rcases unit_bounds positive with ⟨low, -⟩
  generalize isUnit : Int.log 2 q - 52 = e at low
  have unit : (0 : ℚ) < 2 ^ e := zpow_pos two_pos e
  have isNearest : nearest q = halfEven (q / 2 ^ e) * 2 ^ e := by rw [nearest, isUnit]
  -- A multiple of the unit is not nearer.
  have multiple : ∀ n : ℤ, |nearest q - q| ≤ |n * 2 ^ e - q| := by
    intro n
    have scaled : ∀ z : ℤ, |z * 2 ^ e - q| = |z - q / 2 ^ e| * 2 ^ e := by
      intro z
      rw [← abs_of_pos unit, ← abs_mul, abs_of_pos unit, sub_mul, div_mul_cancel₀ q unit.ne']
    rw [isNearest, scaled, scaled]
    exact mul_le_mul_of_nonneg_right (abs_halfEven_sub (q / 2 ^ e) n) unit.le
  rcases representable with ⟨m, k, digits, rfl⟩
  rcases le_or_gt e k with coarse | fine
  · have factor : (m : ℚ) * 2 ^ k = ((m * 2 ^ (k - e).toNat : ℤ) : ℚ) * 2 ^ e := by
      push_cast
      rw [mul_assoc, ← zpow_natCast, Int.toNat_of_nonneg (sub_nonneg.mpr coarse),
        ← zpow_add₀ two_ne_zero, sub_add_cancel]
    rw [factor]
    exact multiple _
  · have half : (2 : ℚ) ^ k ≤ 2 ^ (e - 1) := zpow_le_zpow_right₀ one_le_two (by omega)
    have below : (m : ℚ) * 2 ^ k ≤ 2 ^ 52 * 2 ^ e := by
      have digits' : (m : ℚ) ≤ 2 ^ 53 := by exact_mod_cast (le_abs_self m).trans digits
      calc (m : ℚ) * 2 ^ k ≤ 2 ^ 53 * 2 ^ (e - 1) :=
            mul_le_mul digits' half (zpow_pos two_pos k).le (by norm_num)
        _ = 2 ^ 52 * 2 ^ e := by
            rw [zpow_sub_one₀ two_ne_zero]
            ring
    have nearer : |((2 ^ 52 : ℤ) : ℚ) * 2 ^ e - q| ≤ |m * 2 ^ k - q| := by
      have cast : ((2 ^ 52 : ℤ) : ℚ) = 2 ^ 52 := by norm_num
      rw [cast, abs_sub_comm, abs_sub_comm _ q, abs_of_nonneg (sub_nonneg.mpr low),
        abs_of_nonneg (sub_nonneg.mpr (below.trans low))]
      exact sub_le_sub_left below q
    exact (multiple (2 ^ 52)).trans nearer

/-- Rounding does not pass a number with 53 digits. -/
theorem nearest_le (positive : 0 < q) (representable : Representable x) (below : q ≤ x) :
    nearest q ≤ x := by
  by_contra! above
  have near := abs_nearest_sub positive representable
  rw [abs_of_pos (by linarith), abs_of_nonneg (by linarith)] at near
  linarith

theorem le_nearest (positive : 0 < q) (representable : Representable x) (above : x ≤ q) :
    x ≤ nearest q := by
  by_contra! below
  have near := abs_nearest_sub positive representable
  rw [abs_of_neg (by linarith), abs_of_nonpos (by linarith)] at near
  linarith

theorem halfEven_le (y : ℚ) {n : ℤ} (below : y < n) : halfEven y ≤ n := by
  have floor : ⌊y⌋ < n := Int.floor_lt.mpr below
  unfold halfEven
  split_ifs <;> omega

theorem representable_nearest (positive : 0 < q) :
    ∃ m k : ℤ, m ≤ 2 ^ 53 ∧ nearest q = m * 2 ^ k := by
  rcases unit_bounds positive with ⟨-, high⟩
  refine ⟨halfEven (q / 2 ^ (Int.log 2 q - 52)), Int.log 2 q - 52, halfEven_le _ ?_, rfl⟩
  rw [div_lt_iff₀ (zpow_pos two_pos _)]
  have cast : ((2 ^ 53 : ℤ) : ℚ) = 2 ^ 53 := by norm_num
  rwa [cast]

/-- Two numbers with 53 digits, of which one is whole, are not very near to each other. -/
theorem unit_le_sub {m k : ℤ} {n : ℕ} (less : (m : ℚ) * 2 ^ k < n) :
    (2 : ℚ) ^ k ≤ n - m * 2 ^ k ∨ 1 ≤ (n : ℚ) - m * 2 ^ k := by
  rcases le_or_gt 0 k with whole | part
  · right
    have cast : (m : ℚ) * 2 ^ k = ((m * 2 ^ k.toNat : ℤ) : ℚ) := by
      push_cast
      rw [← zpow_natCast, Int.toNat_of_nonneg whole]
    rw [cast] at less ⊢
    have less' : m * 2 ^ k.toNat < (n : ℤ) := by exact_mod_cast less
    have : m * 2 ^ k.toNat + 1 ≤ (n : ℤ) := less'
    have : ((m * 2 ^ k.toNat : ℤ) : ℚ) + 1 ≤ n := by exact_mod_cast this
    linarith
  · left
    have unit : (0 : ℚ) < 2 ^ k := zpow_pos two_pos k
    have cast : (n : ℚ) = ((n * 2 ^ (-k).toNat : ℤ) : ℚ) * 2 ^ k := by
      push_cast
      rw [mul_assoc, ← zpow_natCast, Int.toNat_of_nonneg (by omega), ← zpow_add₀ two_ne_zero,
        neg_add_cancel, zpow_zero, mul_one]
    rw [cast] at less ⊢
    have less' : m < (n * 2 ^ (-k).toNat : ℤ) := by
      exact_mod_cast lt_of_mul_lt_mul_right less unit.le
    have step : (m : ℚ) + 1 ≤ ((n * 2 ^ (-k).toNat : ℤ) : ℚ) := by exact_mod_cast less'
    have := mul_le_mul_of_nonneg_right step unit.le
    linarith

/-- A number a little below a whole one is rounded to that. -/
theorem natCast_le_nearest {n : ℕ} (positive : 0 < q) (small : n < 2 ^ 50)
    (near : n - n * (3 / 4) / 2 ^ 54 ≤ q) : (n : ℚ) ≤ nearest q := by
  have representable : Representable n := by
    have := representable_natCast (n := n) (small.le.trans (by norm_num)) 0
    rwa [zpow_zero, mul_one] at this
  rcases le_or_gt (n : ℚ) q with above | below
  · exact le_nearest positive representable above
  by_contra! less
  have closest := abs_nearest_sub positive representable
  rw [abs_of_pos (sub_pos.mpr below)] at closest
  have low := (abs_le.mp closest).1
  have whole : (0 : ℚ) < n := positive.trans below
  have bound : (n : ℚ) ≤ 2 ^ 50 := by exact_mod_cast small.le
  rcases representable_nearest positive with ⟨m, k, digits, isNearest⟩
  rw [isNearest] at less low
  have digits' : (m : ℚ) * 2 ^ k ≤ 2 ^ 53 * 2 ^ k := by
    apply mul_le_mul_of_nonneg_right _ (zpow_pos two_pos k).le
    exact_mod_cast digits
  rcases unit_le_sub less with unit | one
  · norm_num at near low digits' ⊢
    linarith
  · norm_num at near low ⊢
    linarith

/-- What a positive number is after it has been rounded and its fraction has been cut off. -/
theorem floor_nearest {n : ℕ} (positive : 0 < q) (small : n < 2 ^ 50)
    (near : n - n * (3 / 4) / 2 ^ 54 ≤ q) (high : q ≤ n + 7 / 8) : ⌊nearest q⌋ = n := by
  rw [Int.floor_eq_iff]
  refine ⟨by exact_mod_cast natCast_le_nearest positive small near, ?_⟩
  have digits : n * 8 + 7 ≤ 2 ^ 53 := by
    norm_num at small ⊢
    omega
  have representable : Representable (n + 7 / 8) := by
    convert representable_natCast digits (-3) using 1
    push_cast
    norm_num
    ring
  have := nearest_le positive representable high
  push_cast
  linarith

end Doubles

end Paho
