import FarReach.Bytes

namespace Bytes

theorem ofLittleEndian_append (low high : List UInt8) :
    ofLittleEndian (low ++ high) = ofLittleEndian low + 256 ^ low.length * ofLittleEndian high := by
  induction low with
  | nil => simp [ofLittleEndian]
  | cons byte rest ih =>
    simp only [List.cons_append, ofLittleEndian, ih, List.length_cons, Nat.pow_succ]
    ring

theorem ofBigEndian_cons (byte : UInt8) (rest : List UInt8) :
    ofBigEndian (byte :: rest) = byte.toNat * 256 ^ rest.length + ofBigEndian rest := by
  simp only [ofBigEndian, List.reverse_cons, ofLittleEndian_append, List.length_reverse, ofLittleEndian]
  ring

theorem ofBigEndian_lt (bytes : List UInt8) : ofBigEndian bytes < 256 ^ bytes.length := by
  have bound := ofLittleEndian_lt bytes.reverse
  rwa [List.length_reverse] at bound

theorem ofBigEndian_append (high low : List UInt8) :
    ofBigEndian (high ++ low) = ofBigEndian high * 256 ^ low.length + ofBigEndian low := by
  rw [ofBigEndian, List.reverse_append, ofLittleEndian_append, List.length_reverse]
  simp only [ofBigEndian]
  ring

/-- Two numbers with a leading digit compare as their leading digits, and then as what follows these. -/
theorem leading_lt_iff {base high high' low low' : Nat} (lowBound : low < base) (lowBound' : low' < base) :
    high * base + low < high' * base + low' ↔ high < high' ∨ high = high' ∧ low < low' := by
  rcases Nat.lt_trichotomy high high' with less | rfl | more
  · have room : (high + 1) * base ≤ high' * base := Nat.mul_le_mul_right _ less
    rw [Nat.add_mul, Nat.one_mul] at room
    constructor
    · exact fun _ => Or.inl less
    · intro _
      omega
  · simp
  · have room : (high' + 1) * base ≤ high * base := Nat.mul_le_mul_right _ more
    rw [Nat.add_mul, Nat.one_mul] at room
    constructor
    · intro below
      omega
    · rintro (less | ⟨same, _⟩) <;> omega

theorem leading_eq_iff {base high high' low low' : Nat} (lowBound : low < base) (lowBound' : low' < base) :
    high * base + low = high' * base + low' ↔ high = high' ∧ low = low' := by
  have before := @leading_lt_iff base high high' low low' lowBound lowBound'
  have behind := @leading_lt_iff base high' high low' low lowBound' lowBound
  constructor
  · intro same
    omega
  · rintro ⟨rfl, rfl⟩
    rfl

/-- Byte strings of one length are ordered lexicographically as the numbers they write. -/
theorem lt_iff_ofBigEndian_lt {left right : List UInt8} (same : left.length = right.length) :
    left < right ↔ ofBigEndian left < ofBigEndian right := by
  induction left generalizing right with
  | nil =>
    rw [List.eq_nil_of_length_eq_zero same.symm]
    simp
  | cons byte rest ih =>
    cases right with
    | nil => simp at same
    | cons byte' rest' =>
      have sameRest : rest.length = rest'.length := by simpa using same
      have restBound := ofBigEndian_lt rest
      rw [sameRest] at restBound
      rw [List.cons_lt_cons_iff, ofBigEndian_cons, ofBigEndian_cons, sameRest,
        leading_lt_iff restBound (ofBigEndian_lt rest'), ih sameRest, UInt8.lt_iff_toNat_lt, UInt8.toNat_inj]

/-- A search in ascending strings from the first that is not below `start`. -/
def seek (strings : List (List UInt8)) (start : List UInt8) : List (List UInt8) :=
  strings.dropWhile fun string => decide (string < start)

theorem mem_seek_iff {strings : List (List UInt8)} (ascending : strings.Pairwise (· < ·))
    {start string : List UInt8} :
    string ∈ seek strings start ↔ string ∈ strings ∧ ¬ string < start := by
  induction strings with
  | nil => simp [seek]
  | cons first rest ih =>
    obtain ⟨below, restAscending⟩ := List.pairwise_cons.mp ascending
    by_cases before : first < start
    · have skipped : seek (first :: rest) start = seek rest start := by simp [seek, before]
      rw [skipped, ih restAscending, List.mem_cons]
      constructor
      · rintro ⟨member, notBelow⟩
        exact ⟨Or.inr member, notBelow⟩
      · rintro ⟨rfl | member, notBelow⟩
        · exact absurd before notBelow
        · exact ⟨member, notBelow⟩
    · have found : seek (first :: rest) start = first :: rest := by simp [seek, before]
      rw [found, List.mem_cons]
      refine ⟨fun member => ⟨member, ?_⟩, And.left⟩
      rcases member with rfl | member
      · exact before
      · exact fun low => before (List.lt_trans (below string member) low)

theorem pairwise_seek {strings : List (List UInt8)} (ascending : strings.Pairwise (· < ·)) (start : List UInt8) :
    (seek strings start).Pairwise (· < ·) :=
  ascending.sublist (List.dropWhile_sublist _)

end Bytes
