import FarReach.CrcShift

namespace CrcShift

open Polynomial

variable {width w : Nat}

def coefficient (bit : Bool) : ZMod 2 := if bit then 1 else 0

theorem coefficient_xor (left right : Bool) : coefficient (left ^^ right) = coefficient left + coefficient right := by
  cases left <;> cases right <;> decide

/-- The polynomial of a reflected register: its highest bit is the constant term. -/
noncomputable def reflected (state : BitVec width) : (ZMod 2)[X] :=
  ∑ i ∈ Finset.range width, C (coefficient (state.getLsbD (width - 1 - i))) * X ^ i

theorem coeff_reflected (state : BitVec width) (i : Nat) :
    (reflected state).coeff i = if i < width then coefficient (state.getLsbD (width - 1 - i)) else 0 := by
  simp only [reflected, finsetSum_coeff, coeff_C_mul, coeff_X_pow, mul_ite, mul_one, mul_zero, Finset.sum_ite_eq,
    Finset.mem_range]

theorem degree_reflected_lt (state : BitVec width) : (reflected state).degree < width := by
  rw [degree_lt_iff_coeff_zero]
  intro i beyond
  rw [coeff_reflected, if_neg (by omega)]

theorem reflected_xor (left right : BitVec width) :
    reflected (left ^^^ right) = reflected left + reflected right := by
  ext i
  rw [coeff_add, coeff_reflected, coeff_reflected, coeff_reflected, BitVec.getLsbD_xor]
  split
  · exact coefficient_xor _ _
  · exact (add_zero 0).symm

/-- A wider register has the bits of a word at its low end: they are its highest coefficients. -/
theorem reflected_setWidth (small : w ≤ width) (word : BitVec w) :
    reflected (word.setWidth width) = X ^ (width - w) * reflected word := by
  ext i
  rw [coeff_X_pow_mul', coeff_reflected, coeff_reflected, BitVec.getLsbD_setWidth]
  by_cases inside : i < width
  · by_cases high : width - w ≤ i
    · have same : w - 1 - (i - (width - w)) = width - 1 - i := by omega
      rw [if_pos inside, if_pos high, if_pos (by omega), same]
      simp [show width - 1 - i < width by omega]
    · rw [if_pos inside, if_neg high, BitVec.getLsbD_of_ge _ _ (by omega), Bool.and_false]
      rfl
  · rw [if_neg inside, if_neg (show ¬ i - (width - w) < w by omega), ite_self]

/-- A shift multiplies by `X`, and the bit that drops out is the leading coefficient. -/
theorem reflected_ushiftRight (state : BitVec width) :
    X * reflected state = reflected (state >>> 1) + C (coefficient (state.getLsbD 0)) * X ^ width := by
  ext i
  rw [coeff_add, coeff_reflected, BitVec.getLsbD_ushiftRight, coeff_C_mul, coeff_X_pow]
  cases i with
  | zero =>
    rw [coeff_X_mul_zero]
    by_cases empty : width = 0
    · subst empty
      simp [coefficient]
    · rw [if_pos (by omega), BitVec.getLsbD_of_ge _ _ (by omega), if_neg (by omega)]
      simp [coefficient]
  | succ i =>
    rw [coeff_X_mul, coeff_reflected]
    by_cases last : i + 1 = width
    · rw [if_pos (by omega), if_neg (by omega), if_pos last, show width - 1 - i = 0 by omega]
      ring
    · by_cases inside : i + 1 < width
      · rw [if_pos (by omega), if_pos inside, if_neg last, show 1 + (width - 1 - (i + 1)) = width - 1 - i by omega]
        ring
      · rw [if_neg (by omega), if_neg inside, if_neg last]
        ring

/-- The polynomial of which `poly` has the coefficients below the leading one. -/
noncomputable def generator (poly : BitVec width) : (ZMod 2)[X] := X ^ width + reflected poly

theorem monic_generator (poly : BitVec width) : (generator poly).Monic := monic_X_pow_add (degree_reflected_lt poly)

theorem degree_generator (poly : BitVec width) : (generator poly).degree = width := by
  rw [generator, degree_add_eq_left_of_degree_lt, degree_X_pow]
  rw [degree_X_pow]
  exact degree_reflected_lt poly

theorem reflected_shift (poly state : BitVec width) :
    reflected (shift poly state) = X * reflected state + C (coefficient (state.getLsbD 0)) * generator poly := by
  rw [reflected_ushiftRight, generator]
  unfold shift
  cases state.getLsbD 0 with
  | false => simp [coefficient]
  | true =>
    have twice : (X ^ width : (ZMod 2)[X]) + X ^ width = 0 := CharTwo.add_self_eq_zero _
    rw [if_pos rfl, reflected_xor]
    simp only [coefficient, if_true, C_1, one_mul]
    calc reflected (state >>> 1) + reflected poly
        = reflected (state >>> 1) + reflected poly + (X ^ width + X ^ width) := by rw [twice, add_zero]
      _ = reflected (state >>> 1) + X ^ width + (X ^ width + reflected poly) := by ring

theorem reflected_iterate_shift (poly state : BitVec width) (n : Nat) :
    ∃ quotient, reflected ((shift poly)^[n] state) = X ^ n * reflected state + quotient * generator poly := by
  induction n with
  | zero => exact ⟨0, by simp⟩
  | succ n ih =>
    obtain ⟨quotient, stepped⟩ := ih
    rw [Function.iterate_succ_apply', reflected_shift, stepped]
    refine ⟨X * quotient + C (coefficient (((shift poly)^[n] state).getLsbD 0)), ?_⟩
    ring

/-- A word is added at the low end of the register, which then makes a step for each of its bits. -/
def feed (poly state : BitVec width) (word : BitVec w) : BitVec width :=
  (shift poly)^[w] (state ^^^ word.setWidth width)

/-- The polynomial of a message: its words one after another, each from its lowest bit on. -/
noncomputable def messagePolynomial (words : List (BitVec w)) : (ZMod 2)[X] :=
  words.foldl (fun polynomial word => X ^ w * polynomial + reflected word) 0

theorem reflected_foldl_feed (small : w ≤ width) (poly state : BitVec width) (words : List (BitVec w)) :
    ∃ quotient, reflected (words.foldl (feed poly) state) =
      X ^ (w * words.length) * reflected state + X ^ width * messagePolynomial words + quotient * generator poly := by
  induction words using List.reverseRecOn with
  | nil => exact ⟨0, by simp [messagePolynomial]⟩
  | append_singleton words word ih =>
    obtain ⟨earlier, before⟩ := ih
    obtain ⟨later, stepped⟩ := reflected_iterate_shift poly (words.foldl (feed poly) state ^^^ word.setWidth width) w
    have last : messagePolynomial (words ++ [word]) = X ^ w * messagePolynomial words + reflected word := by
      rw [messagePolynomial, List.foldl_append]
      rfl
    have whole : (X : (ZMod 2)[X]) ^ width = X ^ w * X ^ (width - w) := by
      rw [← pow_add]
      congr 1
      omega
    refine ⟨X ^ w * earlier + later, ?_⟩
    rw [List.foldl_append, List.foldl_cons, List.foldl_nil, feed, stepped, reflected_xor, before,
      reflected_setWidth small, last, List.length_append, List.length_singleton, Nat.mul_add, Nat.mul_one,
        pow_add, whole]
    ring

/-- A register that a polynomial differs from by a multiple holds its remainder. -/
theorem reflected_eq_modByMonic {poly state : BitVec width} {polynomial quotient : (ZMod 2)[X]}
    (congruent : reflected state = polynomial + quotient * generator poly) :
    reflected state = polynomial %ₘ generator poly := by
  have small : reflected state %ₘ generator poly = reflected state := by
    rw [modByMonic_eq_self_iff (monic_generator poly), degree_generator]
    exact degree_reflected_lt state
  rw [← small, congruent, add_modByMonic, mul_self_modByMonic (monic_generator poly), add_zero]

noncomputable def register (width : Nat) (polynomial : (ZMod 2)[X]) : BitVec width :=
  BitVec.ofFnLE fun i => decide (polynomial.coeff (width - 1 - i) = 1)

theorem register_reflected (state : BitVec width) : register width (reflected state) = state := by
  refine BitVec.eq_of_getLsbD_eq fun i inside => ?_
  rw [register, BitVec.getLsbD_ofFnLE, dif_pos inside, coeff_reflected, if_pos (by omega),
    show width - 1 - (width - 1 - i) = i by omega]
  cases state.getLsbD i <;> decide

/-- Feeding a message divides it by the polynomial. -/
theorem foldl_feed_eq (small : w ≤ width) (poly state : BitVec width) (words : List (BitVec w)) :
    words.foldl (feed poly) state = register width
      ((X ^ (w * words.length) * reflected state + X ^ width * messagePolynomial words) %ₘ generator poly) := by
  obtain ⟨quotient, congruent⟩ := reflected_foldl_feed small poly state words
  rw [← reflected_eq_modByMonic congruent, register_reflected]

end CrcShift
