import Mathlib

/-- A ring of slots, written at `head` and read at `tail`. One slot stays free, so that `head = tail` means empty. -/
structure RingQueue (S : Type*) where
  slots : Nat → S
  head : Nat
  tail : Nat
  capacity : Nat
  head_lt : head < capacity
  tail_lt : tail < capacity

namespace RingQueue

variable {S : Type*} (ring : RingQueue S)

def position (i : Nat) : Nat := (ring.tail + i) % ring.capacity

def size : Nat := if ring.tail ≤ ring.head then ring.head - ring.tail else ring.capacity - ring.tail + ring.head

def contents : List S := (List.range ring.size).map fun i => ring.slots (ring.position i)

def IsFull : Prop := (ring.head + 1) % ring.capacity = ring.tail

instance : Decidable ring.IsFull := inferInstanceAs (Decidable (_ = _))

def push (slot : S) : RingQueue S :=
  { ring with
    slots := Function.update ring.slots ring.head slot
    head := (ring.head + 1) % ring.capacity
    head_lt := Nat.mod_lt _ (Nat.zero_lt_of_lt ring.head_lt) }

def pop (blank : S) : RingQueue S :=
  { ring with
    slots := Function.update ring.slots ring.tail blank
    tail := (ring.tail + 1) % ring.capacity
    tail_lt := Nat.mod_lt _ (Nat.zero_lt_of_lt ring.tail_lt) }

def write (index : Nat) (slot : S) : RingQueue S := { ring with slots := Function.update ring.slots index slot }

/-- An index runs past the end of the array at most once. -/
theorem wrap_eq {index capacity : Nat} (inside : index < 2 * capacity) :
    index % capacity = if index < capacity then index else index - capacity := by
  split
  · exact Nat.mod_eq_of_lt ‹_›
  · rw [Nat.mod_eq_sub_mod (by omega), Nat.mod_eq_of_lt (by omega)]

theorem size_lt : ring.size < ring.capacity := by
  have head := ring.head_lt
  have tail := ring.tail_lt
  unfold size
  split <;> omega

theorem position_eq {i : Nat} (inside : i < ring.capacity) :
    ring.position i = if ring.tail + i < ring.capacity then ring.tail + i else ring.tail + i - ring.capacity := by
  have tail := ring.tail_lt
  exact wrap_eq (by omega)

theorem position_size : ring.position ring.size = ring.head := by
  have head := ring.head_lt
  have tail := ring.tail_lt
  rw [position_eq _ ring.size_lt]
  unfold size
  split <;> split <;> omega

theorem position_injective {i j : Nat} (left : i < ring.capacity) (right : j < ring.capacity)
    (same : ring.position i = ring.position j) : i = j := by
  have tail := ring.tail_lt
  rw [position_eq _ left, position_eq _ right] at same
  split at same <;> split at same <;> omega

theorem isFull_iff : ring.IsFull ↔ ring.size + 1 = ring.capacity := by
  have head := ring.head_lt
  have tail := ring.tail_lt
  unfold IsFull size
  rw [wrap_eq (by omega)]
  split <;> split <;> omega

theorem size_eq_zero_iff : ring.size = 0 ↔ ring.tail = ring.head := by
  have head := ring.head_lt
  have tail := ring.tail_lt
  unfold size
  split <;> omega

theorem size_push (slot : S) (room : ¬ ring.IsFull) : (ring.push slot).size = ring.size + 1 := by
  have head := ring.head_lt
  have tail := ring.tail_lt
  have sameTail : (ring.push slot).tail = ring.tail := rfl
  have sameCapacity : (ring.push slot).capacity = ring.capacity := rfl
  have moved : (ring.push slot).head = if ring.head + 1 < ring.capacity then ring.head + 1
      else ring.head + 1 - ring.capacity :=
    wrap_eq (by omega)
  have apart : (ring.push slot).head ≠ ring.tail := room
  unfold size
  split at moved <;> split <;> split <;> omega

theorem size_pop (blank : S) (nonempty : 0 < ring.size) : ring.size = (ring.pop blank).size + 1 := by
  have head := ring.head_lt
  have tail := ring.tail_lt
  have sameHead : (ring.pop blank).head = ring.head := rfl
  have sameCapacity : (ring.pop blank).capacity = ring.capacity := rfl
  have moved : (ring.pop blank).tail = if ring.tail + 1 < ring.capacity then ring.tail + 1
      else ring.tail + 1 - ring.capacity :=
    wrap_eq (by omega)
  unfold size at nonempty ⊢
  split at moved <;> split at nonempty <;> split <;> split <;> omega

@[simp] theorem length_contents : ring.contents.length = ring.size := by
  simp [contents]

theorem getElem?_contents {i : Nat} (inside : i < ring.size) :
    ring.contents[i]? = some (ring.slots (ring.position i)) := by
  simp [contents, inside]

theorem mem_contents {slot : S} : slot ∈ ring.contents ↔ ∃ i < ring.size, ring.slots (ring.position i) = slot := by
  simp [contents]

theorem position_push (slot : S) (i : Nat) : (ring.push slot).position i = ring.position i := rfl

theorem contents_push (slot : S) (room : ¬ ring.IsFull) : (ring.push slot).contents = ring.contents ++ [slot] := by
  have small := ring.size_lt
  unfold contents
  rw [size_push _ _ room, List.range_succ, List.map_append]
  congr 1
  · refine List.map_congr_left fun i member => ?_
    rw [List.mem_range] at member
    have apart : ring.position i ≠ ring.head := by
      rw [← position_size]
      intro same
      have equal := ring.position_injective (by omega) small same
      omega
    rw [position_push]
    exact Function.update_of_ne apart _ _
  · rw [List.map_singleton, position_push, position_size]
    exact congrArg (fun value => [value]) (Function.update_self _ _ _)

theorem position_pop (blank : S) (i : Nat) : (ring.pop blank).position i = ring.position (i + 1) := by
  have moved : (ring.pop blank).position i = ((ring.tail + 1) % ring.capacity + i) % ring.capacity := rfl
  rw [moved, Nat.mod_add_mod, position, Nat.add_assoc, Nat.add_comm 1 i]

theorem contents_pop (blank : S) (nonempty : 0 < ring.size) :
    ring.contents = ring.slots ring.tail :: (ring.pop blank).contents := by
  have small := ring.size_lt
  have size := ring.size_pop blank nonempty
  have first : ring.position 0 = ring.tail := Nat.mod_eq_of_lt ring.tail_lt
  unfold contents
  rw [size, List.range_succ_eq_map, List.map_cons, first, List.map_map]
  congr 1
  refine List.map_congr_left fun i member => ?_
  rw [List.mem_range] at member
  have apart : ring.position (i + 1) ≠ ring.tail := by
    rw [← first]
    intro same
    have equal := ring.position_injective (by omega) (by omega) same
    omega
  rw [Function.comp_apply, position_pop]
  exact (Function.update_of_ne apart _ _).symm

theorem contents_write {i : Nat} (inside : i < ring.size) (slot : S) :
    (ring.write (ring.position i) slot).contents = ring.contents.set i slot := by
  have small := ring.size_lt
  refine List.ext_getElem? fun j => ?_
  by_cases member : j < ring.size
  · have written := (ring.write (ring.position i) slot).getElem?_contents (i := j) member
    rw [written, List.getElem?_set]
    by_cases same : i = j
    · subst same
      simp [write, inside, position]
    · have apart : ring.position j ≠ ring.position i := fun equal =>
        same (ring.position_injective (by omega) (by omega) equal).symm
      have kept : (ring.write (ring.position i) slot).slots ((ring.write (ring.position i) slot).position j) =
          ring.slots (ring.position j) := Function.update_of_ne apart _ _
      rw [kept, if_neg same, getElem?_contents _ member]
  · have outside : ring.contents.length ≤ j := by
      rw [length_contents]
      omega
    rw [List.getElem?_eq_none (by simpa [write, size] using outside), List.getElem?_eq_none (by simpa using outside)]

end RingQueue
