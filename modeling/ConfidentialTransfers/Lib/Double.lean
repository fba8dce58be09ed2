-- SUMMARY: Rounding a rational number to the nearest double.
import Mathlib.Data.Int.Log
import Mathlib.Data.Rat.Floor

/-!
# Doubles

Round to nearest, ties to even, with 53 bits of precision, as IEEE 754 has it
for binary64. Overflow is left to the caller.
-/

namespace Double

/-- The nearest integer; halfway between two, the even one. -/
def roundHalfEven (q : ℚ) : ℤ :=
  if Int.fract q < 1 / 2 then ⌊q⌋
  else if 1 / 2 < Int.fract q then ⌊q⌋ + 1
  else if ⌊q⌋ % 2 = 0 then ⌊q⌋ else ⌊q⌋ + 1

/-- The exponent of the last of the 53 bits of `q`. That of the subnormal numbers is the lowest. -/
def lastPlace (q : ℚ) : ℤ := max (Int.log 2 |q| - 52) (-1074)

/-- The nearest double, without an upper limit. -/
def round (q : ℚ) : ℚ := roundHalfEven (q / 2 ^ lastPlace q) * 2 ^ lastPlace q

example : round (1 / 10) = 3602879701896397 / 36028797018963968 := by decide +kernel

theorem floor_le_roundHalfEven (q : ℚ) : ⌊q⌋ ≤ roundHalfEven q := by
  unfold roundHalfEven
  split
  · exact le_refl _
  · split
    · omega
    · split
      · exact le_refl _
      · omega

/-- An integer below `q` is not above what `q` is rounded to. -/
theorem intCast_le_roundHalfEven {n : ℤ} {q : ℚ} (h : (n : ℚ) ≤ q) : n ≤ roundHalfEven q :=
  (Int.le_floor.mpr h).trans (floor_le_roundHalfEven q)

/-- Rounding does not cross a natural number that is a double. -/
theorem natCast_le_round {n : ℕ} {q : ℚ} (hn : n ≤ 2 ^ 53) (h : (n : ℚ) ≤ q) : (n : ℚ) ≤ round q := by
  have hplace : (0 : ℚ) < 2 ^ lastPlace q := zpow_pos two_pos _
  have hdivide : ∀ m : ℤ, (m : ℚ) * 2 ^ lastPlace q ≤ q → (m : ℚ) * 2 ^ lastPlace q ≤ round q := by
    intro m hm
    have hle : m ≤ roundHalfEven (q / 2 ^ lastPlace q) :=
      intCast_le_roundHalfEven ((le_div_iff₀ hplace).mpr hm)
    exact mul_le_mul_of_nonneg_right (Int.cast_le.mpr hle) hplace.le
  rcases le_or_gt (lastPlace q) 0 with hsmall | hlarge
  · -- the last place divides every integer
    obtain ⟨k, hk⟩ := Int.eq_ofNat_of_zero_le (Int.neg_nonneg_of_nonpos hsmall)
    have hexact : ((n * 2 ^ k : ℕ) : ℤ) * (2 : ℚ) ^ lastPlace q = n := by
      rw [show lastPlace q = -(k : ℤ) by omega, zpow_neg, zpow_natCast]
      push_cast
      exact mul_inv_cancel_right₀ (pow_ne_zero k two_ne_zero) _
    rw [← hexact] at h ⊢
    exact hdivide _ h
  · -- `q` is at least 2 ^ 53
    have hlog : lastPlace q = Int.log 2 |q| - 52 := by
      unfold lastPlace at hlarge ⊢
      omega
    have hne : q ≠ 0 := by
      rintro rfl
      simp [lastPlace] at hlarge
    have hq : 0 < q := lt_of_le_of_ne ((Nat.cast_nonneg n).trans h) hne.symm
    have hle : (2 : ℚ) ^ Int.log 2 q ≤ q := Int.zpow_log_le_self (by decide) hq
    rw [abs_of_pos hq] at hlog
    have hpower : ((2 ^ 52 : ℕ) : ℤ) * (2 : ℚ) ^ lastPlace q = 2 ^ Int.log 2 q := by
      rw [hlog, zpow_sub₀ two_ne_zero]
      push_cast
      exact mul_div_cancel₀ _ (by positivity)
    have hround := hdivide _ (hpower.trans_le hle)
    have htwo : (2 : ℚ) ≤ 2 ^ lastPlace q := by
      calc (2 : ℚ) = 2 ^ (1 : ℤ) := (zpow_one 2).symm
        _ ≤ 2 ^ lastPlace q := zpow_le_zpow_right₀ one_le_two hlarge
    calc (n : ℚ) ≤ 2 ^ 53 := by exact_mod_cast hn
      _ = ((2 ^ 52 : ℕ) : ℤ) * 2 := by norm_num
      _ ≤ ((2 ^ 52 : ℕ) : ℤ) * 2 ^ lastPlace q := by gcongr
      _ ≤ round q := hround

end Double
