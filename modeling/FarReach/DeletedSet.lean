import FarReach.Key
import FarReach.OrderedMap

namespace FarReach

/-- `DeletedSet`: the tombstones of recently deleted keys, indexed by key and by sequence number. -/
structure DeletedSet where
  recordsSortedBykey : Std.ExtTreeMap Key Nat
  recordsSortedByseq : Std.ExtTreeMap Nat Key
  maxSize : Nat

namespace DeletedSet

/-- A fresh set; `max_size` is `CAPACITY_FACTOR * c * rtt`. -/
def new (c rtt : Nat) : DeletedSet := ⟨∅, ∅, 10 * c * rtt⟩

def clear (set : DeletedSet) : DeletedSet :=
  { set with recordsSortedBykey := ∅, recordsSortedByseq := ∅ }

/-- `operator=` copies the two indexes and leaves the capacity of the target alone. -/
def assign (set other : DeletedSet) : DeletedSet :=
  { set with
    recordsSortedBykey := other.recordsSortedBykey
    recordsSortedByseq := other.recordsSortedByseq }

def size (set : DeletedSet) : Nat := set.recordsSortedBykey.size

def tombstone (set : DeletedSet) (key : Key) : Option Nat := set.recordsSortedBykey[key]?

/-- Over capacity, the tombstone at the front of the by-seq index is dropped from both indexes. -/
def evictMinseq (set : DeletedSet) : DeletedSet :=
  match set.recordsSortedByseq.minEntry? with
  | some (minseq, minseqKey) =>
    { set with
      recordsSortedByseq := set.recordsSortedByseq.erase minseq
      recordsSortedBykey := set.recordsSortedBykey.erase minseqKey }
  | none => set

def add (set : DeletedSet) (key : Key) (seq : Nat) : DeletedSet :=
  match set.recordsSortedBykey[key]? with
  | none =>
    let inserted :=
      { set with
        recordsSortedBykey := set.recordsSortedBykey.insert key seq
        recordsSortedByseq := set.recordsSortedByseq.insertIfNew seq key }
    if inserted.recordsSortedBykey.size > set.maxSize then inserted.evictMinseq else inserted
  | some oldseq =>
    if oldseq < seq then
      { set with
        recordsSortedBykey := set.recordsSortedBykey.insert key seq
        recordsSortedByseq := (set.recordsSortedByseq.erase oldseq).insertIfNew seq key }
    else set

/-- `check_and_remove`: the flag, the value left in `*deleted_seq_ptr`, and the new set. -/
def checkAndRemove (set : DeletedSet) (key : Key) (seq deletedSeq : Nat) : Bool × Nat × DeletedSet :=
  match set.recordsSortedBykey[key]? with
  | none => (false, deletedSeq, set)
  | some oldseq =>
    if oldseq ≤ seq then
      (false, oldseq,
        { set with
          recordsSortedBykey := set.recordsSortedBykey.erase key
          recordsSortedByseq := set.recordsSortedByseq.erase oldseq })
    else (true, oldseq, set)

def store (set : DeletedSet) : List (Key × Nat) := set.recordsSortedBykey.toList

/-- `load`: the pairs are inserted into both indexes of a cleared set; the capacity is not checked. -/
def load (set : DeletedSet) (pairs : List (Key × Nat)) : DeletedSet :=
  pairs.foldl (fun set pair =>
    { set with
      recordsSortedBykey := set.recordsSortedBykey.insertIfNew pair.1 pair.2
      recordsSortedByseq := set.recordsSortedByseq.insertIfNew pair.2 pair.1 }) set.clear

@[simp] theorem maxSize_evictMinseq (set : DeletedSet) : set.evictMinseq.maxSize = set.maxSize := by
  unfold evictMinseq
  split <;> rfl

@[simp] theorem maxSize_add (set : DeletedSet) (key : Key) (seq : Nat) :
    (set.add key seq).maxSize = set.maxSize := by
  unfold add
  split
  · dsimp only
    split <;> simp
  · split <;> rfl

@[simp] theorem maxSize_checkAndRemove (set : DeletedSet) (key : Key) (seq deletedSeq : Nat) :
    (set.checkAndRemove key seq deletedSeq).2.2.maxSize = set.maxSize := by
  unfold checkAndRemove
  split
  · rfl
  · split <;> rfl

/-- An eviction removes at most one tombstone and adds none. -/
theorem tombstone_evictMinseq (set : DeletedSet) (key : Key) :
    set.evictMinseq.tombstone key = set.tombstone key ∨ set.evictMinseq.tombstone key = none := by
  unfold evictMinseq tombstone
  split
  · rename_i minseq minseqKey front
    rw [OrderedMap.lookup_erase]
    split
    · exact Or.inr rfl
    · exact Or.inl rfl
  · exact Or.inl rfl

/-- What `check_and_remove` does to the tombstone of every key: only its own key, only when the
tombstone is not newer. -/
theorem tombstone_checkAndRemove (set : DeletedSet) (key other : Key) (seq deletedSeq : Nat) :
    (set.checkAndRemove key seq deletedSeq).2.2.tombstone other =
      if other = key then (set.tombstone key).filter (fun oldseq => seq < oldseq)
      else set.tombstone other := by
  unfold checkAndRemove tombstone
  by_cases same : other = key
  · subst same
    cases found : set.recordsSortedBykey[other]? with
    | none => simp [found]
    | some oldseq =>
      by_cases older : oldseq ≤ seq
      · simp [older, Option.filter]
      · simp [found, older, Option.filter]
  · cases found : set.recordsSortedBykey[key]? with
    | none => simp [same]
    | some oldseq =>
      by_cases older : oldseq ≤ seq
      · simp [older, same, OrderedMap.lookup_erase]
      · simp [older, same]

/-- `check_and_remove` leaves the set alone when its key has no tombstone, or a newer one. -/
theorem checkAndRemove_eq_self_iff (set : DeletedSet) (key : Key) (seq deletedSeq : Nat) :
    (set.checkAndRemove key seq deletedSeq).2.2 = set ↔ ∀ oldseq, set.tombstone key = some oldseq → seq < oldseq := by
  constructor
  · intro same oldseq found
    have left := tombstone_checkAndRemove set key key seq deletedSeq
    rw [same, if_pos rfl, found] at left
    by_contra older
    simp [Option.filter, older] at left
  · intro newer
    unfold checkAndRemove
    cases found : set.recordsSortedBykey[key]? with
    | none => rfl
    | some oldseq =>
      have above := newer oldseq found
      simp only [if_neg (Nat.not_le.mpr above)]

/-- The flag is raised exactly by a newer tombstone, and then the out-parameter holds its number. -/
theorem checkAndRemove_newer (set : DeletedSet) (key : Key) (seq : Nat) :
    ((set.checkAndRemove key seq 0).1 && decide ((set.checkAndRemove key seq 0).2.1 > seq)) =
      (set.tombstone key).any (fun oldseq => seq < oldseq) := by
  unfold checkAndRemove tombstone
  cases set.recordsSortedBykey[key]? with
  | none => rfl
  | some oldseq =>
    by_cases older : oldseq ≤ seq
    · simp [older]
    · simp [older, Nat.lt_of_not_le older]

def raised (old : Option Nat) (seq : Nat) : Option Nat := some (old.elim seq (max seq))

/-- `add` raises the tombstone of its own key; over capacity, any tombstone may go missing. -/
theorem tombstone_add (set : DeletedSet) (key other : Key) (seq : Nat) :
    (set.add key seq).tombstone other =
        (if other = key then raised (set.tombstone key) seq else set.tombstone other) ∨
      (set.add key seq).tombstone other = none := by
  unfold add
  cases found : set.recordsSortedBykey[key]? with
  | none =>
    have inserted : ({ set with
        recordsSortedBykey := set.recordsSortedBykey.insert key seq
        recordsSortedByseq := set.recordsSortedByseq.insertIfNew seq key } : DeletedSet).tombstone other =
        if other = key then raised (set.tombstone key) seq else set.tombstone other := by
      simp only [tombstone, found, OrderedMap.lookup_insert, raised, Option.elim_none]
    dsimp only
    split
    · rw [← inserted]
      exact tombstone_evictMinseq _ other
    · exact Or.inl inserted
  | some oldseq =>
    left
    dsimp only
    split
    · simp only [tombstone, found, OrderedMap.lookup_insert, raised, Option.elim_some]
      grind
    · simp only [tombstone, raised]
      grind

theorem tombstone_add_of_room (set : DeletedSet) (key other : Key) (seq : Nat)
    (room : set.size < set.maxSize) :
    (set.add key seq).tombstone other =
      if other = key then raised (set.tombstone key) seq else set.tombstone other := by
  unfold add
  cases found : set.recordsSortedBykey[key]? with
  | none =>
    have small : ¬ (set.recordsSortedBykey.insert key seq).size > set.maxSize := by
      have bound := Std.ExtTreeMap.size_insert_le (t := set.recordsSortedBykey) (k := key) (v := seq)
      unfold size at room
      omega
    simp only [tombstone, found, small, if_false, OrderedMap.lookup_insert, raised, Option.elim_none]
  | some oldseq =>
    dsimp only
    split
    · simp only [tombstone, found, OrderedMap.lookup_insert, raised, Option.elim_some]
      grind
    · simp only [tombstone, raised]
      grind

theorem size_evictMinseq_le (set : DeletedSet) : set.evictMinseq.size ≤ set.size := by
  unfold evictMinseq size
  split
  · exact Std.ExtTreeMap.size_erase_le
  · exact Nat.le_refl _

theorem size_add_le (set : DeletedSet) (key : Key) (seq : Nat) :
    (set.add key seq).size ≤ set.size + 1 := by
  have bound := Std.ExtTreeMap.size_insert_le (t := set.recordsSortedBykey) (k := key) (v := seq)
  unfold add
  split
  · dsimp only
    split
    · exact (size_evictMinseq_le _).trans bound
    · exact bound
  · split
    · exact bound
    · exact Nat.le_succ _

theorem size_checkAndRemove_le (set : DeletedSet) (key : Key) (seq deletedSeq : Nat) :
    (set.checkAndRemove key seq deletedSeq).2.2.size ≤ set.size := by
  unfold checkAndRemove
  split
  · exact Nat.le_refl _
  · split
    · exact Std.ExtTreeMap.size_erase_le
    · exact Nat.le_refl _

theorem recordsSortedBykey_load (set : DeletedSet) (pairs : List (Key × Nat)) :
    (set.load pairs).recordsSortedBykey =
      pairs.foldl (fun map pair => map.insertIfNew pair.1 pair.2) ∅ := by
  unfold load
  generalize cleared : set.clear = start
  have same : start.recordsSortedBykey = ∅ := by rw [← cleared]; rfl
  rw [← same]
  clear cleared same
  induction pairs generalizing start with
  | nil => rfl
  | cons pair rest ih => exact ih _

/-- Loading what was stored brings back the tombstone of every key. -/
theorem recordsSortedBykey_load_store (set other : DeletedSet) :
    (set.load other.store).recordsSortedBykey = other.recordsSortedBykey := by
  rw [recordsSortedBykey_load]
  exact OrderedMap.foldl_insertIfNew_toList other.recordsSortedBykey

end DeletedSet

end FarReach
