import FarReach.Bytes

namespace Bytes

variable {α : Type*} {blank : α}

theorem overwrite_append {first second bytes : List α} {off : Nat} (inside : off + bytes.length ≤ first.length) :
    overwrite (first ++ second) off bytes = overwrite first off bytes ++ second := by
  rw [overwrite, List.mapIdx_append, overwrite]
  congr 1
  refine List.ext_getElem? fun i => ?_
  rw [List.getElem?_mapIdx]
  have past : bytes[i + first.length - off]? = none := List.getElem?_eq_none (by omega)
  cases second[i]? <;> simp [past]

theorem overwrite_overwrite (array : List α) (off : Nat) (left right : List α) :
    overwrite (overwrite array off left) (off + left.length) right = overwrite array off (left ++ right) := by
  refine List.ext_getElem? fun i => ?_
  simp only [overwrite, List.getElem?_mapIdx, Option.map_map]
  congr 1
  funext old
  change (if off + left.length ≤ i then right[i - (off + left.length)]?.getD
    (if off ≤ i then left[i - off]?.getD old else old) else if off ≤ i then left[i - off]?.getD old else old) = _
  by_cases behind : off ≤ i
  · by_cases second : off + left.length ≤ i
    · rw [if_pos second, if_pos behind, if_pos behind, List.getElem?_append_right (by omega),
        List.getElem?_eq_none (by omega : left.length ≤ i - off), Nat.sub_add_eq]
      rfl
    · rw [if_neg second, if_pos behind, if_pos behind, List.getElem?_append_left (by omega)]
  · rw [if_neg (by omega), if_neg behind, if_neg behind]

theorem overwrite_nil (array : List α) (off : Nat) : overwrite array off [] = array := by
  refine List.ext_getElem? fun i => ?_
  rw [overwrite, List.getElem?_mapIdx]
  cases array[i]? <;> simp

/-- Write `bytes` at `off` into a list that is extended with blanks as far as needed. -/
def splice (blank : α) (content : List α) (off : Nat) (bytes : List α) : List α :=
  overwrite (content ++ List.replicate (off + bytes.length - content.length) blank) off bytes

@[simp] theorem length_splice (content : List α) (off : Nat) (bytes : List α) :
    (splice blank content off bytes).length = max content.length (off + bytes.length) := by
  rw [splice, length_overwrite, List.length_append, List.length_replicate]
  omega

theorem splice_nil_zero (bytes : List α) : splice blank [] 0 bytes = bytes := by
  have starts : Holds (splice blank [] 0 bytes) 0 bytes := holds_overwrite (by simp)
  refine ((holds_zero_iff.mp starts).eq_of_length ?_).symm
  simp

theorem overwrite_replicate {bytes : List α} {n : Nat} (room : bytes.length ≤ n) :
    overwrite (List.replicate n blank) 0 bytes = bytes ++ List.replicate (n - bytes.length) blank := by
  have parts : List.replicate n blank = List.replicate bytes.length blank ++
      List.replicate (n - bytes.length) blank := by
    rw [List.replicate_append_replicate]
    congr 1
    omega
  have whole : overwrite (List.replicate bytes.length blank) 0 bytes = bytes := by
    have starts : Holds (overwrite (List.replicate bytes.length blank) 0 bytes) 0 bytes := holds_overwrite (by simp)
    exact ((holds_zero_iff.mp starts).eq_of_length (by simp)).symm
  rw [parts, overwrite_append (by simp), whole]

/-- The array starts with `content`, and blanks fill the rest of it. -/
def Padded (blank : α) (array content : List α) : Prop := ∃ rest, array = content ++ List.replicate rest blank

theorem padded_replicate (n : Nat) : Padded blank (List.replicate n blank) [] := ⟨n, rfl⟩

theorem Padded.extend {array content : List α} (padded : Padded blank array content) (more : Nat) :
    Padded blank (array ++ List.replicate more blank) content := by
  obtain ⟨rest, rfl⟩ := padded
  refine ⟨rest + more, ?_⟩
  rw [List.append_assoc, List.replicate_append_replicate]

theorem Padded.overwrite {array content bytes : List α} {off : Nat} (padded : Padded blank array content)
    (room : off + bytes.length ≤ array.length) :
    Padded blank (overwrite array off bytes) (splice blank content off bytes) := by
  obtain ⟨rest, rfl⟩ := padded
  rw [List.length_append, List.length_replicate] at room
  refine ⟨rest - (off + bytes.length - content.length), ?_⟩
  have parts : List.replicate rest blank = List.replicate (off + bytes.length - content.length) blank ++
      List.replicate (rest - (off + bytes.length - content.length)) blank := by
    rw [List.replicate_append_replicate]
    congr 1
    omega
  rw [parts, ← List.append_assoc, overwrite_append, splice]
  rw [List.length_append, List.length_replicate]
  omega

theorem Padded.take {array content : List α} (padded : Padded blank array content) :
    array.take content.length = content := by
  obtain ⟨rest, rfl⟩ := padded
  simp

end Bytes
