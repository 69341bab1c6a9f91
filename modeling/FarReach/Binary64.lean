import Mathlib

namespace Binary64

/-- The nearest integer, the even one of two at the same distance. -/
def roundEven (x : ℚ) : ℤ :=
  let below := ⌊x⌋
  if 2 * (x - below) < 1 then below
  else if 1 < 2 * (x - below) then below + 1
  else if Even below then below
  else below + 1

/-- The distance of neighbours with 53 significant bits around a number. -/
def ulp (x : ℚ) : ℚ := 2 ^ (Int.log 2 |x| - 52)

/-- Round to nearest, ties to even, with 53 significant bits. The exponent is not bounded. -/
def nearest (x : ℚ) : ℚ := roundEven (x / ulp x) * ulp x

theorem roundEven_error (x : ℚ) : |(roundEven x : ℚ) - x| ≤ 1 / 2 := by
  have low := Int.floor_le x
  have high := Int.lt_floor_add_one x
  unfold roundEven
  rw [abs_le]
  dsimp only
  split_ifs <;> push_cast <;> constructor <;> linarith

theorem roundEven_intCast (n : ℤ) : roundEven n = n := by
  simp [roundEven]

theorem ulp_pos (x : ℚ) : 0 < ulp x := zpow_pos (by norm_num) _

theorem nearest_error (x : ℚ) : |nearest x - x| ≤ |x| * 2⁻¹ ^ 53 := by
  by_cases zero : x = 0
  · simp [zero, nearest, roundEven]
  have positive := ulp_pos x
  have scaled : nearest x - x = (roundEven (x / ulp x) - x / ulp x) * ulp x := by
    unfold nearest
    field_simp
  have leading : (2 : ℚ) ^ Int.log 2 |x| ≤ |x| := by
    exact_mod_cast Int.zpow_log_le_self (by norm_num : 1 < 2) (abs_pos.mpr zero)
  have split : ulp x = 2 ^ Int.log 2 |x| * 2⁻¹ ^ 52 := by
    unfold ulp
    rw [zpow_sub₀ (by norm_num), div_eq_mul_inv]
    norm_num
  calc |nearest x - x| = |roundEven (x / ulp x) - x / ulp x| * ulp x := by
        rw [scaled, abs_mul, abs_of_pos positive]
    _ ≤ 1 / 2 * ulp x := mul_le_mul_of_nonneg_right (roundEven_error _) positive.le
    _ = 2 ^ Int.log 2 |x| * 2⁻¹ ^ 53 := by
        rw [split]
        ring
    _ ≤ |x| * 2⁻¹ ^ 53 := mul_le_mul_of_nonneg_right leading (by positivity)

/-- Whole numbers of up to 53 bits are exact. -/
theorem nearest_natCast {n : ℕ} (small : n < 2 ^ 53) : nearest n = n := by
  by_cases zero : n = 0
  · simp [zero, nearest, roundEven]
  have bits : Nat.log 2 n ≤ 52 := by
    have below := Nat.log_lt_of_lt_pow zero small
    omega
  have whole : (n : ℚ) / ulp n = ((n * 2 ^ (52 - Nat.log 2 n) : ℕ) : ℤ) := by
    have log : Int.log 2 |(n : ℚ)| = Nat.log 2 n := by
      rw [Nat.abs_cast, Int.log_natCast]
    unfold ulp
    rw [log, div_eq_mul_inv, ← zpow_neg]
    have exponent : -((Nat.log 2 n : ℤ) - 52) = ((52 - Nat.log 2 n : ℕ) : ℤ) := by omega
    rw [exponent, zpow_natCast]
    push_cast
    rfl
  unfold nearest
  rw [whole, roundEven_intCast, ← whole]
  exact div_mul_cancel₀ _ (ulp_pos _).ne'

end Binary64
