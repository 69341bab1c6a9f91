import Mathlib

namespace OnesComplement

/-- `sum` stands for `total` in an arithmetic whose carries come back at the low end: both leave the same remainder,
and nothing but zero becomes zero. -/
structure Stands (modulus total sum : Nat) : Prop where
  congruent : sum ≡ total [MOD modulus]
  zero : sum = 0 ↔ total = 0

section Stands

variable {modulus total sum : Nat}

theorem Stands.refl (modulus total : Nat) : Stands modulus total total := ⟨Nat.ModEq.refl _, Iff.rfl⟩

theorem Stands.symm (stands : Stands modulus total sum) : Stands modulus sum total :=
  ⟨stands.congruent.symm, stands.zero.symm⟩

theorem Stands.trans {middle : Nat} (one : Stands modulus total middle) (two : Stands modulus middle sum) :
    Stands modulus total sum := ⟨two.congruent.trans one.congruent, two.zero.trans one.zero⟩

theorem Stands.add {more moreSum : Nat} (one : Stands modulus total sum) (two : Stands modulus more moreSum) :
    Stands modulus (total + more) (sum + moreSum) := by
  refine ⟨one.congruent.add two.congruent, ?_⟩
  rw [Nat.add_eq_zero_iff, Nat.add_eq_zero_iff, one.zero, two.zero]

theorem Stands.mul_left (factor : Nat) (stands : Stands modulus total sum) :
    Stands modulus (factor * total) (factor * sum) := by
  refine ⟨stands.congruent.mul_left factor, ?_⟩
  rw [Nat.mul_eq_zero, Nat.mul_eq_zero, stands.zero]

/-- The two values of zero apart, at most one number up to the modulus stands for a total. -/
theorem Stands.unique {other : Nat} (one : Stands modulus total sum) (two : Stands modulus total other)
    (small : sum ≤ modulus) (smallToo : other ≤ modulus) : sum = other := by
  have same : sum ≡ other [MOD modulus] := one.congruent.trans two.congruent.symm
  have zero : sum = 0 ↔ other = 0 := one.zero.trans two.zero.symm
  rcases Nat.lt_or_eq_of_le small with below | isModulus
  · rcases Nat.lt_or_eq_of_le smallToo with belowToo | isModulusToo
    · exact same.eq_of_lt_of_lt below belowToo
    · have none : sum = 0 := Nat.eq_zero_of_dvd_of_lt ((Nat.modEq_zero_iff_dvd).mp (same.trans (by
        rw [isModulusToo]
        exact (Nat.modEq_zero_iff_dvd).mpr dvd_rfl))) below
      omega
  · rcases Nat.lt_or_eq_of_le smallToo with belowToo | isModulusToo
    · have none : other = 0 := Nat.eq_zero_of_dvd_of_lt ((Nat.modEq_zero_iff_dvd).mp (same.symm.trans (by
        rw [isModulus]
        exact (Nat.modEq_zero_iff_dvd).mpr dvd_rfl))) belowToo
      omega
    · omega

theorem stands_digits {limit : Nat} (divides : modulus ∣ limit - 1) (positive : 0 < limit) (low high : Nat) :
    Stands modulus (low + limit * high) (low + high) := by
  obtain ⟨factor, isFactor⟩ := divides
  have parts : low + limit * high = low + high + modulus * (factor * high) := by
    rw [← Nat.mul_assoc, ← isFactor, Nat.sub_mul, Nat.one_mul]
    have enough : high ≤ limit * high := Nat.le_mul_of_pos_left high positive
    omega
  refine ⟨?_, ?_⟩
  · rw [parts, Nat.ModEq, Nat.add_mul_mod_self_left]
  · rw [Nat.add_eq_zero_iff, Nat.add_eq_zero_iff, Nat.mul_eq_zero]
    omega

end Stands

section Words

variable {Word : Type*} [Add Word] [LT Word] [DecidableLT Word] [OfNat Word 1]

/-- Add two words; a sum below a summand has lost a carry, which is added at the low end. -/
def addCarry (sum added : Word) : Word :=
  let sum := sum + added
  if sum < added then sum + 1 else sum

/-- What is used of a type of words with fewer than `limit` values. -/
structure WordArithmetic (Word : Type*) [Add Word] [LT Word] [OfNat Word 1] (limit : Nat) where
  toNat : Word → Nat
  add : ∀ left right, toNat (left + right) = (toNat left + toNat right) % limit
  lt : ∀ left right, left < right ↔ toNat left < toNat right
  one : toNat 1 = 1
  bounded : ∀ word, toNat word < limit

theorem WordArithmetic.stands_addCarry {limit modulus : Nat} (arithmetic : WordArithmetic Word limit)
    (divides : modulus ∣ limit - 1) (sum added : Word) :
    Stands modulus (arithmetic.toNat sum + arithmetic.toNat added) (arithmetic.toNat (addCarry sum added)) := by
  have small := arithmetic.bounded sum
  have addedSmall := arithmetic.bounded added
  unfold addCarry
  by_cases carries : limit ≤ arithmetic.toNat sum + arithmetic.toNat added
  · have lost : arithmetic.toNat (sum + added) = arithmetic.toNat sum + arithmetic.toNat added - limit := by
      rw [arithmetic.add, Nat.mod_eq_sub_mod carries, Nat.mod_eq_of_lt (by omega)]
    have below : sum + added < added := by
      rw [arithmetic.lt, lost]
      omega
    have back : arithmetic.toNat (sum + added + 1) = arithmetic.toNat sum + arithmetic.toNat added - limit + 1 := by
      rw [arithmetic.add, lost, arithmetic.one, Nat.mod_eq_of_lt (by omega)]
    rw [if_pos below, back]
    have digits := stands_digits divides (by omega) (arithmetic.toNat sum + arithmetic.toNat added - limit) 1
    rw [Nat.mul_one, Nat.sub_add_cancel carries] at digits
    exact digits
  · have kept : arithmetic.toNat (sum + added) = arithmetic.toNat sum + arithmetic.toNat added := by
      rw [arithmetic.add, Nat.mod_eq_of_lt (by omega)]
    have above : ¬ sum + added < added := by
      rw [arithmetic.lt, kept]
      omega
    rw [if_neg above, kept]
    exact Stands.refl _ _

end Words

/-- Add the carries of a sum of 16-bit words at the low end until there are none. -/
def foldCarries (total : Nat) : Nat :=
  if total < 65536 then total else foldCarries (total % 65536 + total / 65536)
termination_by total
decreasing_by omega

theorem stands_foldCarries (total : Nat) : Stands 65535 total (foldCarries total) ∧ foldCarries total ≤ 65535 := by
  fun_induction foldCarries total with
  | case1 total small => exact ⟨Stands.refl _ _, by omega⟩
  | case2 total large ih =>
    have digits := @stands_digits 65535 65536 (by decide) (by decide) (total % 65536) (total / 65536)
    rw [Nat.mod_add_div] at digits
    exact ⟨digits.trans ih.1, ih.2⟩

end OnesComplement
