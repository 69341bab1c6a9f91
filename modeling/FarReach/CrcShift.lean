import Mathlib

namespace CrcShift

variable {width : Nat}

/-- One step of a reflected CRC: a shift towards the low end, with the polynomial for a bit that drops
out. -/
def shift (poly state : BitVec width) : BitVec width :=
  if state.getLsbD 0 then (state >>> 1) ^^^ poly else state >>> 1

theorem shift_xor (poly left right : BitVec width) :
    shift poly (left ^^^ right) = shift poly left ^^^ shift poly right := by
  have cancel : left >>> 1 ^^^ poly ^^^ (right >>> 1 ^^^ poly) = left >>> 1 ^^^ right >>> 1 := by
    rw [BitVec.xor_comm (right >>> 1) poly, BitVec.xor_assoc, ← BitVec.xor_assoc poly, BitVec.xor_self,
      BitVec.zero_xor]
  unfold shift
  rw [BitVec.getLsbD_xor, BitVec.ushiftRight_xor_distrib]
  cases left.getLsbD 0 <;> cases right.getLsbD 0
  · rfl
  · simp [BitVec.xor_assoc]
  · simp only [Bool.true_bne, Bool.not_false, if_true, Bool.false_eq_true, if_false]
    rw [BitVec.xor_assoc, BitVec.xor_comm (right >>> 1), ← BitVec.xor_assoc]
  · simpa using cancel.symm

theorem iterate_shift_xor (poly left right : BitVec width) (n : Nat) :
    (shift poly)^[n] (left ^^^ right) = (shift poly)^[n] left ^^^ (shift poly)^[n] right := by
  induction n generalizing left right with
  | zero => rfl
  | succ n ih => rw [Function.iterate_succ_apply, shift_xor, ih, ← Function.iterate_succ_apply,
      ← Function.iterate_succ_apply]

variable {poly state : BitVec width}

/-- Zero bits drop out without a trace. -/
theorem shift_even {half : Nat} (even : state.toNat = 2 * half) :
    (shift poly state).toNat = half := by
  have low : state.getLsbD 0 = false := by
    simp [BitVec.getLsbD, even]
  unfold shift
  rw [low]
  simp only [Bool.false_eq_true, if_false, BitVec.toNat_ushiftRight, even, Nat.shiftRight_one]
  omega

theorem iterate_shift_high (poly : BitVec width) (n high : Nat) (shifted : state.toNat = 2 ^ n * high) :
    ((shift poly)^[n] state).toNat = high := by
  induction n generalizing state with
  | zero => simpa using shifted
  | succ n ih =>
    rw [Function.iterate_succ_apply]
    refine ih (shift_even ?_)
    rw [shifted, Nat.pow_succ]
    ring

/-- What is added after some steps could have been added before them, further up. -/
theorem iterate_shift_absorb (poly state added : BitVec width) {n : Nat} (fits : added.toNat * 2 ^ n < 2 ^ width) :
    (shift poly)^[n] state ^^^ added = (shift poly)^[n] (state ^^^ added <<< n) := by
  have back : (shift poly)^[n] (added <<< n) = added := by
    refine BitVec.eq_of_toNat_eq (iterate_shift_high poly n added.toNat ?_)
    rw [BitVec.toNat_shiftLeft, Nat.shiftLeft_eq, Nat.mod_eq_of_lt fits, Nat.mul_comm]
  rw [iterate_shift_xor, back]

/-- With the highest bit of the polynomial set, only the zero state is shifted to zero: a bit that
drops out leaves the polynomial behind. -/
theorem eq_zero_of_shift_eq_zero (proper : poly.msb = true) (zero : shift poly state = BitVec.ofNat width 0) :
    state = BitVec.ofNat width 0 := by
  unfold shift at zero
  have positive : 0 < width := by
    rw [BitVec.msb_eq_decide] at proper
    by_contra none
    have empty : width = 0 := by omega
    subst empty
    simp [BitVec.eq_nil poly] at proper
  split at zero
  · have top : (state >>> 1 ^^^ poly).msb = true := by
      rw [BitVec.msb_xor, proper, BitVec.msb_ushiftRight]
      simp
    rw [zero] at top
    simp at top
  · rename_i low
    ext i inside
    cases i with
    | zero => simpa [BitVec.getLsbD_eq_getElem inside] using low
    | succ i =>
      have bit := congrArg (fun word : BitVec width => word.getLsbD i) zero
      simp only [BitVec.getLsbD_ushiftRight, BitVec.getLsbD_zero] at bit
      rw [Nat.add_comm] at bit
      simpa [BitVec.getLsbD_eq_getElem inside] using bit

/-- With the highest bit of the polynomial set, the step is invertible. -/
theorem shift_surjective (proper : poly.msb = true) : Function.Surjective (shift poly) := by
  have injective : Function.Injective (shift poly) := by
    intro left right same
    have difference : shift poly (left ^^^ right) = BitVec.ofNat width 0 := by
      rw [shift_xor, same, BitVec.xor_self]
    exact BitVec.xor_eq_zero_iff.mp (eq_zero_of_shift_eq_zero proper difference)
  exact Finite.injective_iff_surjective.mp injective

theorem iterate_shift_surjective (proper : poly.msb = true) (n : Nat) :
    Function.Surjective (shift poly)^[n] := (shift_surjective proper).iterate n

end CrcShift
