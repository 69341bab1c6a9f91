import FarReach.DeletedSet
import FarReach.Runs

namespace FarReach

open OrderedMap

namespace DeletedSet

inductive Operation where
  | add (key : Key) (seq : Nat)
  | checkAndRemove (key : Key) (seq : Nat)

def operate (set : DeletedSet) : Operation → DeletedSet
  | .add key seq => set.add key seq
  | .checkAndRemove key seq => (set.checkAndRemove key seq 0).2.2

def Agree (set : DeletedSet) : Prop :=
  ∀ (key : Key) (seq : Nat),
    set.recordsSortedBykey[key]? = some seq ↔ set.recordsSortedByseq[seq]? = some key

def withTombstone (set : DeletedSet) (key : Key) (seq : Nat) (other : Key) : Option Nat :=
  if other = key then some seq else set.tombstone other

/-- An `add` of a new key over the capacity loses one tombstone, which has the smallest number of the
old tombstones and the new one, and keeps all the others. -/
def DropsSmallest (set : DeletedSet) (key : Key) (seq : Nat) : Prop :=
  set.tombstone key = none → set.maxSize < set.size + 1 →
    ∃ victim minseq, set.withTombstone key seq victim = some minseq ∧
      (∀ other otherseq, set.withTombstone key seq other = some otherseq → minseq ≤ otherseq) ∧
      ∀ other, (set.add key seq).tombstone other =
        if other = victim then none else set.withTombstone key seq other

structure Bookkeeping (set : DeletedSet) : Prop where
  agree : set.Agree
  size : set.size ≤ set.maxSize
  drops : ∀ key seq, set.DropsSmallest key seq

/-- An `add` that takes effect brings a number no other key of the set carries. -/
def OwnSeq (set : DeletedSet) : Operation → Prop
  | .add key seq =>
    (∃ oldseq, set.tombstone key = some oldseq ∧ seq ≤ oldseq) ∨
      ∀ other, set.tombstone other = some seq → other = key
  | .checkAndRemove _ _ => True

def inserted (set : DeletedSet) (key : Key) (seq : Nat) : DeletedSet :=
  { set with
    recordsSortedBykey := set.recordsSortedBykey.insert key seq
    recordsSortedByseq := set.recordsSortedByseq.insertIfNew seq key }

variable {key : Key} {set : DeletedSet} {seq : Nat}

theorem add_new (seq : Nat) (fresh : set.tombstone key = none) :
    set.add key seq =
      if set.maxSize < set.size + 1 then (set.inserted key seq).evictMinseq else set.inserted key seq := by
  have absent : set.recordsSortedBykey[key]? = none := fresh
  have grown : (set.recordsSortedBykey.insert key seq).size = set.size + 1 := by
    rw [size_insert, absent]
    rfl
  unfold add
  rw [absent]
  simp only [grown, gt_iff_lt]
  rfl

theorem add_known {oldseq : Nat} (seq : Nat) (known : set.tombstone key = some oldseq) :
    set.add key seq =
      if oldseq < seq then
        { set with
          recordsSortedBykey := set.recordsSortedBykey.insert key seq
          recordsSortedByseq := (set.recordsSortedByseq.erase oldseq).insertIfNew seq key }
      else set := by
  have found : set.recordsSortedBykey[key]? = some oldseq := known
  unfold add
  rw [found]

theorem agree_new (c rtt : Nat) : (new c rtt).Agree := by
  intro key seq
  simp [new]

theorem Agree.byseq_none (agree : set.Agree) (unused : ∀ key, set.tombstone key ≠ some seq) :
    set.recordsSortedByseq[seq]? = none := by
  cases found : set.recordsSortedByseq[seq]? with
  | none => rfl
  | some key => exact absurd ((agree key seq).mpr found) (unused key)

/-- A new key under a number of its own goes into both indexes. -/
theorem Agree.inserted {set : DeletedSet} (agree : set.Agree) {key : Key} {seq : Nat}
    (fresh : set.tombstone key = none) (unused : ∀ other, set.tombstone other ≠ some seq) :
    (set.inserted key seq).Agree := by
  have free := agree.byseq_none unused
  intro other otherseq
  simp only [DeletedSet.inserted, lookup_insert, lookup_insertIfNew, free,
    Option.none_or]
  have pair := agree other otherseq
  have old := agree key otherseq
  have taken := unused other
  unfold tombstone at fresh taken
  grind

/-- What the eviction drops: a pair of the by-seq index, at its smallest number. -/
theorem evictMinseq_cases (set : DeletedSet) :
    (set.evictMinseq = set ∧ ∀ seq : Nat, set.recordsSortedByseq[seq]? = none) ∨
      ∃ (minseq : Nat) (victim : Key), set.recordsSortedByseq[minseq]? = some victim ∧
        (∀ (seq : Nat) (key : Key), set.recordsSortedByseq[seq]? = some key → minseq ≤ seq) ∧
        set.evictMinseq =
          { set with
            recordsSortedByseq := set.recordsSortedByseq.erase minseq
            recordsSortedBykey := set.recordsSortedBykey.erase victim } := by
  unfold evictMinseq
  cases front : set.recordsSortedByseq.minEntry? with
  | none => exact Or.inl ⟨rfl, minEntry?_eq_none _ front⟩
  | some entry =>
    obtain ⟨minseq, victim⟩ := entry
    obtain ⟨here, least⟩ := minEntry?_eq_some _ front
    refine Or.inr ⟨minseq, victim, here, ?_, rfl⟩
    intro seq key found
    rcases least seq key found with same | below
    · exact Nat.le_of_eq same.symm
    · exact Nat.le_of_lt (Nat.compare_eq_lt.mp below)

theorem Agree.erase (agree : set.Agree) (pair : set.recordsSortedBykey[key]? = some seq) :
    Agree { set with
      recordsSortedBykey := set.recordsSortedBykey.erase key
      recordsSortedByseq := set.recordsSortedByseq.erase seq } := by
  intro other otherseq
  simp only [lookup_erase]
  have forth := agree other otherseq
  have back := agree key otherseq
  have same := agree other seq
  have own := agree key seq
  grind

theorem Agree.evictMinseq (agree : set.Agree) : set.evictMinseq.Agree := by
  rcases evictMinseq_cases set with ⟨same, _⟩ | ⟨minseq, victim, front, _, dropped⟩
  · rwa [same]
  · rw [dropped]
    exact agree.erase ((agree victim minseq).mpr front)

theorem Agree.size_evictMinseq (agree : set.Agree) :
    set.evictMinseq.size ≤ set.size - 1 := by
  rcases evictMinseq_cases set with ⟨same, empty⟩ | ⟨minseq, victim, front, _, dropped⟩
  · have none : set.recordsSortedBykey = ∅ := by
      refine Std.ExtTreeMap.ext_getElem? fun key => ?_
      cases found : set.recordsSortedBykey[key]? with
      | none => simp
      | some seq =>
        have listed := (agree key seq).mp found
        rw [empty] at listed
        cases listed
    rw [same]
    simp [size, none]
  · rw [dropped]
    show (set.recordsSortedBykey.erase victim).size ≤ set.recordsSortedBykey.size - 1
    rw [size_erase, (agree victim minseq).mpr front]
    exact Nat.le_refl _

/-- The by-seq index of the inserted set has an entry for every number of the set, also when the new
key shares its number with another one: the front is a smallest tombstone either way. -/
theorem Agree.dropsSmallest (agree : set.Agree) (key : Key) (seq : Nat) :
    set.DropsSmallest key seq := by
  intro fresh full
  rw [add_new seq fresh, if_pos full]
  have byseq : ∀ otherseq, (set.inserted key seq).recordsSortedByseq[otherseq]? =
      if otherseq = seq then set.recordsSortedByseq[seq]?.or (some key)
      else set.recordsSortedByseq[otherseq]? := by
    intro otherseq
    exact lookup_insertIfNew _ _ _ _
  have bykey : ∀ other, (set.inserted key seq).recordsSortedBykey[other]? = set.withTombstone key seq other := by
    intro other
    exact lookup_insert _ _ _ _
  have listed : ∀ other otherseq, set.withTombstone key seq other = some otherseq →
      (set.inserted key seq).recordsSortedByseq[otherseq]?.isSome := by
    intro other otherseq held
    rw [byseq]
    unfold withTombstone at held
    split
    · simp
    · split at held
      · simp_all
      · rw [(agree other otherseq).mp held]
        rfl
  have held : ∀ otherseq other, (set.inserted key seq).recordsSortedByseq[otherseq]? = some other →
      set.withTombstone key seq other = some otherseq := by
    intro otherseq other found
    rw [byseq] at found
    have pair := agree other otherseq
    have new := agree key otherseq
    unfold tombstone at fresh
    unfold withTombstone tombstone
    grind
  rcases evictMinseq_cases (set.inserted key seq) with ⟨_, empty⟩ | ⟨minseq, victim, front, least, dropped⟩
  · have some := listed key seq (by simp [withTombstone])
    rw [empty] at some
    cases some
  · refine ⟨victim, minseq, held minseq victim front, ?_, ?_⟩
    · intro other otherseq found
      obtain ⟨holder, entry⟩ := Option.isSome_iff_exists.mp (listed other otherseq found)
      exact least otherseq holder entry
    · intro other
      rw [dropped]
      unfold tombstone
      rw [lookup_erase, bykey]

theorem Agree.checkAndRemove (agree : set.Agree) (key : Key) (seq deletedSeq : Nat) :
    (set.checkAndRemove key seq deletedSeq).2.2.Agree := by
  unfold DeletedSet.checkAndRemove
  cases found : set.recordsSortedBykey[key]? with
  | none => exact agree
  | some oldseq =>
    dsimp only
    split
    · exact agree.erase found
    · exact agree

theorem OwnSeq.unused (own : set.OwnSeq (.add key seq)) (fresh : set.tombstone key = none) (other : Key) :
    set.tombstone other ≠ some seq := by
  intro held
  rcases own with ⟨oldseq, old, _⟩ | own
  · rw [fresh] at old
    cases old
  · rw [own other held, fresh] at held
    cases held

theorem Agree.add (agree : set.Agree) (own : set.OwnSeq (.add key seq)) : (set.add key seq).Agree := by
  cases known : set.tombstone key with
  | none =>
    have both := agree.inserted known (own.unused known)
    rw [add_new seq known]
    split
    · exact both.evictMinseq
    · exact both
  | some oldseq =>
    rw [add_known seq known]
    split
    · rename_i newer
      have own : ∀ other, set.tombstone other = some seq → other = key := by
        rcases own with ⟨held, old, ignored⟩ | own
        · rw [known, Option.some.injEq] at old
          omega
        · exact own
      -- the key is taken out under its old number and comes back under the new one
      have without := agree.erase known
      have unused : ∀ other, ({ set with
          recordsSortedBykey := set.recordsSortedBykey.erase key
          recordsSortedByseq := set.recordsSortedByseq.erase oldseq } : DeletedSet).tombstone other ≠ some seq := by
        intro other held
        unfold tombstone at held
        rw [lookup_erase] at held
        split at held
        · cases held
        · rename_i different
          exact different (own other held)
      have back := @Agree.inserted _ without key _ (by simp [tombstone]) unused
      intro other otherseq
      have pair := back other otherseq
      simp only [DeletedSet.inserted, lookup_insert, lookup_erase] at pair
      rw [← pair]
      simp only [lookup_insert]
      grind
    · exact agree

theorem Agree.size_add_le (agree : set.Agree) (own : set.OwnSeq (.add key seq)) (small : set.size ≤ set.maxSize) :
    (set.add key seq).size ≤ set.maxSize := by
  cases known : set.tombstone key with
  | none =>
    have grown := DeletedSet.size_add_le set key seq
    by_cases full : set.maxSize < set.size + 1
    · have evicted := (agree.inserted known (own.unused known)).size_evictMinseq
      have larger : (set.inserted key seq).size ≤ set.size + 1 := Std.ExtTreeMap.size_insert_le
      rw [add_new seq known, if_pos full]
      omega
    · omega
  | some oldseq =>
    have found : set.recordsSortedBykey[key]? = some oldseq := known
    rw [add_known seq known]
    split
    · show (set.recordsSortedBykey.insert key seq).size ≤ set.maxSize
      rw [size_insert, found]
      exact small
    · exact small

/-- A number that another key carries already leaves the new key out of the by-seq index, whether or not
something is evicted behind the insertion. -/
theorem Agree.ownSeq_of_add (agree : set.Agree) (after : (set.add key seq).Agree) : set.OwnSeq (.add key seq) := by
  by_contra clash
  unfold OwnSeq at clash
  push Not at clash
  obtain ⟨effective, other, held, different⟩ := clash
  have taken : set.recordsSortedByseq[seq]? = some other := (agree other seq).mp held
  have pair := after key seq
  cases known : set.tombstone key with
  | none =>
    have absent : set.recordsSortedBykey[key]? = none := known
    have bykey : (set.inserted key seq).recordsSortedBykey[key]? = some seq := by
      simp [DeletedSet.inserted]
    have byseq : ∀ otherseq : Nat, (set.inserted key seq).recordsSortedByseq[otherseq]? ≠ some key := by
      intro otherseq
      have unheld := agree key otherseq
      simp only [DeletedSet.inserted, lookup_insertIfNew, taken]
      grind
    rw [add_new seq known] at pair
    split at pair
    · rcases evictMinseq_cases (set.inserted key seq) with ⟨same, _⟩ | ⟨minseq, victim, front, _, dropped⟩
      · rw [same] at pair
        exact byseq seq (pair.mp bykey)
      · have stays : key ≠ victim := by
          intro same
          exact byseq minseq (same ▸ front)
        rw [dropped] at pair
        simp only [lookup_erase, if_neg stays] at pair
        have entry := pair.mp bykey
        split at entry
        · cases entry
        · exact byseq seq entry
    · exact byseq seq (pair.mp bykey)
  | some oldseq =>
    have newer := effective oldseq known
    rw [add_known seq known, if_pos newer] at pair
    have elsewhere : seq ≠ oldseq := Nat.ne_of_gt newer
    simp only [lookup_insert, lookup_insertIfNew, lookup_erase, taken,
      if_true, if_neg elsewhere, Option.some_or, Option.some.injEq, true_iff] at pair
    exact different pair

/-- Over every sequence of operations on a fresh set the bookkeeping is right in every state exactly if
no effective `add` repeats the number of another key. -/
theorem bookkeeping_iff_ownSeq (c rtt : Nat) (operations : List Operation) :
    Runs.Always operate Bookkeeping (new c rtt) operations ↔
      Runs.AllAllowed operate OwnSeq (new c rtt) operations := by
  let Inv : DeletedSet → Prop := fun set => set.Agree ∧ set.size ≤ set.maxSize
  refine @Runs.always_iff_allAllowed _ _ _ _ _ Inv _ ?_ ?_ ?_ operations ?_
  · intro set ⟨agree, small⟩
    exact ⟨agree, small, agree.dropsSmallest⟩
  · intro set operation ⟨agree, small⟩ own
    cases operation with
    | add key seq =>
      refine ⟨agree.add own, ?_⟩
      have bound := agree.size_add_le own small
      simpa [operate] using bound
    | checkAndRemove key seq =>
      refine ⟨agree.checkAndRemove key seq 0, ?_⟩
      have bound := size_checkAndRemove_le set key seq 0
      simp only [operate, maxSize_checkAndRemove]
      omega
  · intro set operation ⟨agree, small⟩ holds
    cases operation with
    | add key seq => exact agree.ownSeq_of_add holds.agree
    | checkAndRemove key seq => trivial
  · exact ⟨agree_new c rtt, by simp [new, size]⟩

/-- Two keys deleted under one number: the second one is missing in the by-seq index. -/
theorem not_agree_shared_seq :
    ¬ Agree (((new 1 1).add ⟨0, 0, 0, 1⟩ 5).add ⟨0, 0, 0, 2⟩ 5) := by
  intro agree
  have held : ∀ key : Key, ((new 1 1).add ⟨0, 0, 0, 1⟩ 5).tombstone key =
      if key = ⟨0, 0, 0, 1⟩ then some 5 else none := by
    intro key
    rw [tombstone_add_of_room _ _ _ _ (by simp [new, size])]
    simp [tombstone, new, raised]
  have first : ((new 1 1).add ⟨0, 0, 0, 1⟩ 5).Agree :=
    (agree_new 1 1).add (Or.inr (by simp [tombstone, new]))
  rcases first.ownSeq_of_add agree with ⟨oldseq, old, _⟩ | own
  · simp [held] at old
  · have same := own ⟨0, 0, 0, 1⟩ (by simp [held])
    simp at same

end DeletedSet

end FarReach
