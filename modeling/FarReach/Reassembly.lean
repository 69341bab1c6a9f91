import FarReach.Bytes

namespace Reassembly

open Bytes

variable {α : Type*}

/-- The number of pieces of `width` elements that `total` elements make; nothing makes one empty piece. -/
def count (width total : Nat) : Nat := if 0 < total then (total + width - 1) / width else 1

/-- The piece with index `i`; the last one may be shorter. -/
def piece (width : Nat) (bytes : List α) (i : Nat) : List α := (bytes.drop (width * i)).take width

theorem length_piece (width : Nat) (bytes : List α) (i : Nat) :
    (piece width bytes i).length = min width (bytes.length - width * i) := by
  simp [piece]

theorem length_piece_le (width : Nat) (bytes : List α) (i : Nat) : (piece width bytes i).length ≤ width := by
  rw [length_piece]
  exact Nat.min_le_left _ _

theorem count_le (width total : Nat) : count width total ≤ total / width + 1 := by
  unfold count
  split
  · rcases Nat.eq_zero_or_pos width with zero | positive
    · simp [zero]
    · rw [Nat.div_le_iff_le_mul_add_pred positive, Nat.mul_add]
      have whole := Nat.div_add_mod total width
      have rest := Nat.mod_lt total positive
      omega
  · exact Nat.le_add_left 1 _

variable {total width i base size n : Nat} {done : List Nat}

theorem count_eq_one (fits : total ≤ width) : count width total = 1 := by
  unfold count
  split
  · exact Nat.div_eq_of_lt_le (by omega) (by omega)
  · rfl

theorem piece_zero {bytes : List α} (fits : bytes.length ≤ width) : piece width bytes 0 = bytes := by
  rw [piece, Nat.mul_zero, List.drop_zero, List.take_of_length_le fits]

theorem count_pos (positive : 0 < width) (total : Nat) : 0 < count width total := by
  unfold count
  split
  · exact Nat.div_pos (by omega) positive
  · exact Nat.one_pos

theorem mul_le_of_lt_count (positive : 0 < width) (inside : i < count width total) :
    width * i ≤ total := by
  unfold count at inside
  split at inside
  · have quotient : i + 1 ≤ (total + width - 1) / width := inside
    rw [Nat.le_div_iff_mul_le positive, Nat.add_mul, Nat.one_mul, Nat.mul_comm i width] at quotient
    omega
  · have zero : i = 0 := by omega
    rw [zero]
    omega

theorem le_mul_count (positive : 0 < width) (total : Nat) : total ≤ width * count width total := by
  unfold count
  split
  · have step := Nat.lt_mul_div_succ (total + width - 1) positive
    rw [Nat.mul_add, Nat.mul_one] at step
    omega
  · omega

theorem div_lt_count {k : Nat} (positive : 0 < width) (inside : k < total) : k / width < count width total := by
  rw [Nat.div_lt_iff_lt_mul positive, Nat.mul_comm]
  exact inside.trans_le (le_mul_count positive total)

theorem piece_end_le (positive : 0 < width) {bytes : List α} (inside : i < count width bytes.length) :
    width * i + (piece width bytes i).length ≤ bytes.length := by
  have start := mul_le_of_lt_count positive inside
  rw [length_piece]
  omega

theorem pieces_apart {j : Nat} {bytes : List α} (different : i ≠ j) :
    base + width * j + (piece width bytes j).length ≤ base + width * i ∨
      base + width * i + (piece width bytes i).length ≤ base + width * j := by
  rw [length_piece, length_piece]
  rcases Nat.lt_or_gt_of_ne different with before | behind
  · have step := Nat.mul_le_mul_left width (Nat.succ_le_of_lt before)
    rw [Nat.mul_succ] at step
    omega
  · have step := Nat.mul_le_mul_left width (Nat.succ_le_of_lt behind)
    rw [Nat.mul_succ] at step
    omega

/-- The pieces with indexes in `done` lie at their places behind the first `base` elements of an array, of which
`size` elements are in use. -/
structure Filled (array : List α) (size base width : Nat) (bytes : List α) (done : List Nat) : Prop where
  holds : ∀ i ∈ done, Holds array (base + width * i) (piece width bytes i)
  ends : ∀ i ∈ done, base + width * i + (piece width bytes i).length ≤ size
  base_le : base ≤ size
  size_le : size ≤ base + bytes.length

theorem filled_nil {array : List α} {bytes : List α} : Filled array base base width bytes [] :=
  ⟨fun _ member => absurd member List.not_mem_nil, fun _ member => absurd member List.not_mem_nil, le_rfl,
    Nat.le_add_right _ _⟩

theorem Filled.write {array written : List α} {size grown base width i : Nat} {bytes : List α} {done : List Nat}
    (filled : Filled array size base width bytes done) (positive : 0 < width) (inside : i < count width bytes.length)
    (holds : Holds written (base + width * i) (piece width bytes i))
    (frame : ∀ pos other, Holds array pos other →
      pos + other.length ≤ base + width * i ∨ base + width * i + (piece width bytes i).length ≤ pos →
      Holds written pos other)
    (isGrown : grown = max size (base + width * i + (piece width bytes i).length)) :
    Filled written grown base width bytes (i :: done) := by
  have fits := piece_end_le positive inside
  have bottom := filled.base_le
  have top := filled.size_le
  refine ⟨fun j member => ?_, fun j member => ?_, by omega, by omega⟩
  · by_cases same : i = j
    · exact same ▸ holds
    · have old := (List.mem_cons.mp member).resolve_left (Ne.symm same)
      exact frame _ _ (filled.holds j old) (pieces_apart same)
  · rcases List.mem_cons.mp member with rfl | old
    · omega
    · have ends := filled.ends j old
      omega

theorem Filled.frame {array written : List α} {bytes : List α} (filled : Filled array size base width bytes done)
    (kept : ∀ pos other, Holds array pos other → base ≤ pos → Holds written pos other) :
    Filled written size base width bytes done :=
  ⟨fun i member => kept _ _ (filled.holds i member) (Nat.le_add_right _ _), filled.ends, filled.base_le,
    filled.size_le⟩

/-- All pieces together are the whole. -/
theorem Filled.complete {array : List α} {bytes : List α} (filled : Filled array size base width bytes done)
    (positive : 0 < width) (all : ∀ i < count width bytes.length, i ∈ done) :
    Holds array base bytes ∧ size = base + bytes.length := by
  constructor
  · intro k byte found
    have inside := (List.getElem?_eq_some_iff.mp found).1
    have piece := filled.holds (k / width) (all _ (div_lt_count positive inside)) (k % width) byte
    have offset := Nat.div_add_mod k width
    have short := Nat.mod_lt k positive
    have here : (Reassembly.piece width bytes (k / width))[k % width]? = some byte := by
      rw [Reassembly.piece, List.getElem?_take_of_lt short, List.getElem?_drop, offset, found]
    have there := piece here
    rwa [Nat.add_assoc, offset] at there
  · have pieces := count_pos positive bytes.length
    have last := filled.ends (count width bytes.length - 1) (all _ (by omega))
    have enough := le_mul_count positive bytes.length
    have top := filled.size_le
    have split : count width bytes.length = (count width bytes.length - 1) + 1 := by omega
    rw [split, Nat.mul_succ] at enough
    rw [length_piece] at last
    have start := mul_le_of_lt_count positive (show count width bytes.length - 1 < count width bytes.length by omega)
    omega

theorem length_le_of_nodup (distinct : done.Nodup) (inside : ∀ i ∈ done, i < n) :
    done.length ≤ n := by
  have among := distinct.subperm fun i member => List.mem_range.mpr (inside i member)
  simpa using among.length_le

theorem mem_of_nodup (distinct : done.Nodup) (inside : ∀ i ∈ done, i < n) (enough : n ≤ done.length) :
    ∀ i < n, i ∈ done := by
  have among := distinct.subperm fun i member => List.mem_range.mpr (inside i member)
  have same := among.perm_of_length_le (by simpa using enough)
  exact fun i small => same.mem_iff.mpr (List.mem_range.mpr small)

end Reassembly
