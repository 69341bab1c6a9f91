import Mathlib

namespace Bytes

def littleEndian : Nat → Nat → List UInt8
  | 0, _ => []
  | width + 1, n => n.toUInt8 :: littleEndian width (n / 256)

def ofLittleEndian : List UInt8 → Nat
  | [] => 0
  | byte :: rest => byte.toNat + 256 * ofLittleEndian rest

@[simp] theorem length_littleEndian (width n : Nat) : (littleEndian width n).length = width := by
  induction width generalizing n with
  | zero => rfl
  | succ width ih => simp [littleEndian, ih]

variable {n width : Nat}

theorem ofLittleEndian_littleEndian (fits : n < 256 ^ width) :
    ofLittleEndian (littleEndian width n) = n := by
  induction width generalizing n with
  | zero =>
    have zero : n = 0 := by simpa using fits
    simp [littleEndian, ofLittleEndian, zero]
  | succ width ih =>
    have quotient : n / 256 < 256 ^ width := by
      rw [Nat.pow_succ] at fits
      exact Nat.div_lt_of_lt_mul (by omega)
    simp only [littleEndian, ofLittleEndian, ih quotient, Nat.toUInt8_eq, UInt8.toNat_ofNat', Nat.reducePow]
    omega

theorem ofLittleEndian_lt (bytes : List UInt8) : ofLittleEndian bytes < 256 ^ bytes.length := by
  induction bytes with
  | nil => decide
  | cons byte rest ih =>
    have bound := byte.toNat_lt
    simp only [ofLittleEndian, List.length_cons, Nat.pow_succ]
    omega

theorem littleEndian_ofLittleEndian (bytes : List UInt8) :
    littleEndian bytes.length (ofLittleEndian bytes) = bytes := by
  induction bytes with
  | nil => rfl
  | cons byte rest ih =>
    have bound := byte.toNat_lt
    have low : (byte.toNat + 256 * ofLittleEndian rest).toUInt8 = byte := by
      apply UInt8.toNat_inj.mp
      simp only [Nat.toUInt8_eq, UInt8.toNat_ofNat', Nat.reducePow]
      omega
    have high : (byte.toNat + 256 * ofLittleEndian rest) / 256 = ofLittleEndian rest := by omega
    rw [List.length_cons, ofLittleEndian, littleEndian, low, high, ih]

def bigEndian (width n : Nat) : List UInt8 := (littleEndian width n).reverse

def ofBigEndian (bytes : List UInt8) : Nat := ofLittleEndian bytes.reverse

@[simp] theorem length_bigEndian (width n : Nat) : (bigEndian width n).length = width := by
  simp [bigEndian]

theorem ofBigEndian_bigEndian (fits : n < 256 ^ width) :
    ofBigEndian (bigEndian width n) = n := by
  simp [ofBigEndian, bigEndian, ofLittleEndian_littleEndian fits]

theorem toUInt16_ofBigEndian (half : UInt16) : (ofBigEndian (bigEndian 2 half.toNat)).toUInt16 = half := by
  rw [ofBigEndian_bigEndian half.toNat_lt]
  simp

theorem toUInt32_ofBigEndian (word : UInt32) : (ofBigEndian (bigEndian 4 word.toNat)).toUInt32 = word := by
  rw [ofBigEndian_bigEndian word.toNat_lt]
  simp

theorem toUInt16_ofLittleEndian (half : UInt16) : (ofLittleEndian (littleEndian 2 half.toNat)).toUInt16 = half := by
  rw [ofLittleEndian_littleEndian half.toNat_lt]
  simp

theorem toUInt32_ofLittleEndian (word : UInt32) : (ofLittleEndian (littleEndian 4 word.toNat)).toUInt32 = word := by
  rw [ofLittleEndian_littleEndian word.toNat_lt]
  simp

section Memory

variable {α : Type*}

/-- The array holds `bytes` from position `off` on. -/
def Holds (array : List α) (off : Nat) (bytes : List α) : Prop :=
  ∀ i byte, bytes[i]? = some byte → array[off + i]? = some byte

/-- Read `len` elements at `off`; reading past the end of the array gives nothing. -/
def readAt (array : List α) (off len : Nat) : Option (List α) :=
  if off + len ≤ array.length then some ((array.drop off).take len) else none

def overwrite (array : List α) (off : Nat) (bytes : List α) : List α :=
  array.mapIdx fun i old => if off ≤ i then bytes[i - off]?.getD old else old

@[simp] theorem length_overwrite (array : List α) (off : Nat) (bytes : List α) :
    (overwrite array off bytes).length = array.length := by
  simp [overwrite]

variable {off len : Nat}

theorem holds_singleton_iff {array : List α} {byte : α} :
    Holds array off [byte] ↔ array[off]? = some byte := by
  constructor
  · exact fun holds => holds 0 byte rfl
  · intro there i other found
    cases i with
    | zero =>
      cases found
      exact there
    | succ i => cases found

theorem holds_append {array left right : List α} :
    Holds array off (left ++ right) ↔ Holds array off left ∧ Holds array (off + left.length) right := by
  constructor
  · intro whole
    refine ⟨fun i byte found => whole i byte ?_, fun i byte found => ?_⟩
    · rw [List.getElem?_append_left (List.getElem?_eq_some_iff.mp found).1]
      exact found
    · rw [Nat.add_assoc]
      refine whole (left.length + i) byte ?_
      rwa [List.getElem?_append_right (by omega), Nat.add_sub_cancel_left]
  · rintro ⟨first, second⟩ i byte found
    by_cases inLeft : i < left.length
    · rw [List.getElem?_append_left inLeft] at found
      exact first i byte found
    · rw [List.getElem?_append_right (by omega)] at found
      have shifted := second (i - left.length) byte found
      rwa [show off + left.length + (i - left.length) = off + i by omega] at shifted

theorem holds_zero_iff {array bytes : List α} : Holds array 0 bytes ↔ bytes <+: array := by
  rw [List.prefix_iff_getElem?]
  constructor
  · intro holds i inside
    simpa using holds i bytes[i] (List.getElem?_eq_getElem inside)
  · intro same i byte found
    obtain ⟨inside, rfl⟩ := List.getElem?_eq_some_iff.mp found
    simpa using same i inside

theorem Holds.append_left {array bytes more : List α} (holds : Holds array off bytes) :
    Holds (array ++ more) off bytes := by
  intro i byte found
  have inside := holds i byte found
  rwa [List.getElem?_append_left (List.getElem?_eq_some_iff.mp inside).1]

theorem holds_overwrite {array bytes : List α} (fits : off + bytes.length ≤ array.length) :
    Holds (overwrite array off bytes) off bytes := by
  intro i byte found
  have inside := (List.getElem?_eq_some_iff.mp found).1
  simp only [overwrite, List.getElem?_mapIdx, Nat.le_add_right, if_true, Nat.add_sub_cancel_left, found]
  rw [List.getElem?_eq_getElem (by omega)]
  rfl

theorem Holds.overwrite {array bytes other : List α} {pos : Nat} (holds : Holds array pos other)
    (apart : pos + other.length ≤ off ∨ off + bytes.length ≤ pos) :
    Holds (overwrite array off bytes) pos other := by
  intro i byte found
  have inside := (List.getElem?_eq_some_iff.mp found).1
  have untouched : (if off ≤ pos + i then bytes[pos + i - off]?.getD byte else byte) = byte := by
    split
    · rw [List.getElem?_eq_none (by omega)]
      rfl
    · rfl
  simp only [Bytes.overwrite, List.getElem?_mapIdx, holds i byte found, Option.map_some, untouched]

theorem Holds.end_le {array bytes : List α} (holds : Holds array off bytes) (nonempty : bytes ≠ []) :
    off + bytes.length ≤ array.length := by
  have positive := List.length_pos_of_ne_nil nonempty
  have last := holds (bytes.length - 1) _ (List.getElem?_eq_getElem (by omega))
  have inside := (List.getElem?_eq_some_iff.mp last).1
  omega

theorem Holds.readAt {array bytes : List α} (holds : Holds array off bytes) (size : bytes.length = len)
    (positive : 0 < len) : readAt array off len = some bytes := by
  have fits := holds.end_le (List.ne_nil_of_length_pos (by omega))
  unfold Bytes.readAt
  rw [if_pos (by omega)]
  congr 1
  refine List.ext_getElem? fun i => ?_
  by_cases inside : i < bytes.length
  · have found := List.getElem?_eq_getElem inside
    simp only [List.getElem?_take, ← size, inside, if_true, List.getElem?_drop, holds i _ found, found]
  · rw [List.getElem?_eq_none (Nat.le_of_not_lt inside)]
    simp [← size, inside]

theorem readAt_of_starts {start array : List α} (starts : start <+: array) (inside : off + len ≤ start.length) :
    readAt array off len = readAt start off len := by
  obtain ⟨rest, rfl⟩ := starts
  have long : off + len ≤ (start ++ rest).length := by
    rw [List.length_append]
    omega
  rw [Bytes.readAt, Bytes.readAt, if_pos inside, if_pos long]
  rw [List.drop_append_of_le_length (by omega), List.take_append_of_le_length (by rw [List.length_drop]; omega)]

end Memory

end Bytes
