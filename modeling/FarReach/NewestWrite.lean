import FarReach.History

namespace FarReach

open Versioned

def Write.entry : Write → Entry Val
  | put _ val seq _ => .live val seq
  | remove _ seq _ => .deleted seq

def Write.checkseq : Write → Bool
  | put _ _ _ checkseq => checkseq
  | remove _ _ checkseq => checkseq

/-- What a client of the server may ask for. -/
inductive ServerOp where
  | write (write : Write)
  | get (key : Key)

def ServerOp.apply (kv : KvStore) : ServerOp → KvStore
  | .write update => update.apply kv
  | .get key => (kv.get key).2

def ServerOp.version (key : Key) : ServerOp → Option (Entry Val)
  | .write update => if update.key = key then some update.entry else none
  | .get _ => none

def versions (key : Key) (ops : List ServerOp) : List (Entry Val) := ops.filterMap (ServerOp.version key)

/-- The record that stands for the newest version of a key; a key without versions reads as deleted. -/
def recordOf : Option (Entry Val) → SnapshotRecord
  | some (.live val seq) => ⟨val, seq, true⟩
  | some (.deleted seq) => ⟨[], seq, false⟩
  | none => ⟨[], 0, false⟩

/-- A write without a check is newer than everything before it on its key. -/
def Arrival (ops : List ServerOp) : Prop :=
  ∀ done write, done ++ [.write write] <+: ops → write.checkseq = false →
    ∀ earlier ∈ versions write.key done, earlier.seq < write.entry.seq

def BelowCapacity (kv : KvStore) (ops : List ServerOp) : Prop :=
  ∀ done, done <+: ops →
    (done.foldl ServerOp.apply kv).deletedSet.size < (done.foldl ServerOp.apply kv).deletedSet.maxSize

theorem record_get (kv : KvStore) (key : Key) : (kv.get key).1 = recordOf (kv.cell key).held := by
  unfold KvStore.get KvStore.cell Cell.held
  cases kv.db[key]? with
  | some version => rfl
  | none =>
    unfold DeletedSet.checkAndRemove DeletedSet.tombstone
    cases kv.deletedSet.recordsSortedBykey[key]? with
    | none => rfl
    | some oldseq =>
      dsimp only
      by_cases zero : oldseq ≤ 0
      · rw [if_pos zero]
        have same : oldseq = 0 := Nat.le_zero.mp zero
        simp [same, recordOf]
      · rw [if_neg zero]
        simp [Nat.pos_of_ne_zero fun same => zero (Nat.le_zero.mpr same), recordOf]

/-- `get` changes no cell, except that it drops a tombstone of sequence number zero. -/
theorem cell_get (kv : KvStore) (key other : Key) :
    (kv.get key).2.cell other = kv.cell other ∨
      kv.cell other = ⟨none, some 0⟩ ∧ (kv.get key).2.cell other = ⟨none, none⟩ := by
  unfold KvStore.get
  cases found : kv.db[key]? with
  | some version => exact Or.inl rfl
  | none =>
    dsimp only
    unfold KvStore.cell
    dsimp only
    rw [DeletedSet.tombstone_checkAndRemove]
    split
    · rename_i same
      subst same
      rw [found]
      cases kv.deletedSet.tombstone other with
      | none => exact Or.inl rfl
      | some oldseq =>
        by_cases zero : oldseq = 0
        · exact Or.inr (by simp [zero])
        · exact Or.inl (by simp [Option.filter, Nat.pos_of_ne_zero zero])
    · exact Or.inl rfl

/-- The cell of a key holds the newest version, or has forgotten a deletion of sequence number zero. -/
def Knows (cell : Cell Val) (newest : Option (Entry Val)) : Prop :=
  cell.Exclusive ∧ (cell.held = newest ∨ newest = some (.deleted 0) ∧ cell = ⟨none, none⟩)

variable {cell : Cell Val} {newest : Option (Entry Val)}

theorem Knows.recordOf (knows : Knows cell newest) :
    recordOf cell.held = recordOf newest := by
  rcases knows.2 with holds | ⟨zero, forgotten⟩
  · rw [holds]
  · rw [zero, forgotten]
    rfl

/-- What a cell remembers is the version it holds. -/
theorem eq_of_mem_entries {entry : Entry Val} (exclusive : cell.Exclusive) (member : entry ∈ cell.entries) :
    cell.held = some entry := by
  obtain ⟨stored, tombstone⟩ := cell
  rcases exclusive with absent | absent <;> dsimp only at absent <;> subst absent
  · cases tombstone <;> simp_all [Cell.entries, Cell.held]
  · cases stored <;> simp_all [Cell.entries, Cell.held]

/-- Applying a version keeps the newest one, if only checked versions are old. -/
theorem Knows.apply {applied : List (Entry Val)} (knows : Knows cell newest) (isNewest : IsNewest newest applied)
    (entry : Entry Val) (checkseq : Bool) (arrival : checkseq = false → ∀ earlier ∈ applied,
      earlier.seq < entry.seq) :
    ∃ newest', Knows (cell.apply entry checkseq) newest' ∧ IsNewest newest' (applied ++ [entry]) := by
  have exclusive := knows.1.apply entry checkseq
  by_cases older : ∃ current, newest = some current ∧ entry.seq < current.seq
  · obtain ⟨current, rfl, older⟩ := older
    have checked : checkseq = true := by
      by_contra unchecked
      have newer := arrival (Bool.eq_false_iff.mpr unchecked) current isNewest.1
      omega
    subst checked
    have holds : cell.held = some current := by
      rcases knows.2 with holds | ⟨zero, -⟩
      · exact holds
      · cases zero
        exact absurd older (Nat.not_lt_zero _)
    refine ⟨some current, ⟨exclusive, Or.inl (Cell.held_apply_of_older holds older)⟩, ?_⟩
    refine ⟨List.mem_append_left _ isNewest.1, fun other member => ?_⟩
    rcases List.mem_append.mp member with earlier | last
    · exact isNewest.2 other earlier
    · rw [List.mem_singleton.mp last]
      exact older.le
  · have newer : ∀ other ∈ applied, other.seq ≤ entry.seq := by
      intro other member
      cases newest with
      | none =>
        rw [show applied = [] from isNewest] at member
        cases member
      | some current =>
        by_contra above
        exact older ⟨current, rfl, (Nat.not_le.mp above).trans_le (isNewest.2 other member)⟩
    have taken : cell.apply entry checkseq = Cell.ofEntry entry := by
      refine Cell.apply_of_newest checkseq fun old member => ?_
      have holds := eq_of_mem_entries knows.1 member
      rcases knows.2 with same | ⟨-, forgotten⟩
      · rw [← same, holds] at isNewest
        exact newer old isNewest.1
      · rw [forgotten] at member
        cases member
    rw [taken] at exclusive ⊢
    refine ⟨some entry, ⟨exclusive, Or.inl (Cell.held_ofEntry entry)⟩, List.mem_append_right _ List.mem_cons_self, ?_⟩
    intro other member
    rcases List.mem_append.mp member with earlier | last
    · exact newer other earlier
    · rw [List.mem_singleton.mp last]

theorem cell_write_of_room (kv : KvStore) (write : Write) (key : Key)
    (room : kv.deletedSet.size < kv.deletedSet.maxSize) :
    (write.apply kv).cell key =
      if key = write.key then (kv.cell write.key).apply write.entry write.checkseq else kv.cell key := by
  cases write with
  | put writeKey val seq checkseq => exact KvStore.cell_put kv writeKey key val seq checkseq
  | remove writeKey seq checkseq => exact KvStore.cell_remove_of_room kv writeKey key seq checkseq room

/-- After any operations the cell of every key knows its newest version. -/
theorem knows_newest {kv : KvStore} (empty : ∀ key, kv.cell key = ⟨none, none⟩) (ops : List ServerOp)
    (arrival : Arrival ops) (room : BelowCapacity kv ops) (key : Key) :
    ∃ newest, Knows ((ops.foldl ServerOp.apply kv).cell key) newest ∧ IsNewest newest (versions key ops) := by
  induction ops using List.reverseRecOn with
  | nil =>
    refine ⟨none, ?_, rfl⟩
    rw [List.foldl_nil, empty key]
    exact ⟨Or.inl rfl, Or.inl rfl⟩
  | append_singleton ops op ih =>
    have earlier : ops <+: ops ++ [op] := List.prefix_append ops [op]
    obtain ⟨newest, knows, isNewest⟩ := ih (fun done write within => arrival done write (within.trans earlier))
      (fun done within => room done (within.trans earlier))
    rw [List.foldl_append, List.foldl_cons, List.foldl_nil]
    unfold versions at isNewest ⊢
    rw [List.filterMap_append]
    generalize state : ops.foldl ServerOp.apply kv = before at knows
    cases op with
    | write write =>
      have below := room ops earlier
      rw [state] at below
      have stepped := cell_write_of_room before write key below
      by_cases own : write.key = key
      · have applied : [ServerOp.write write].filterMap (ServerOp.version key) = [write.entry] := by
          simp [ServerOp.version, own]
        rw [if_pos own.symm, own] at stepped
        rw [applied]
        unfold ServerOp.apply
        rw [stepped]
        refine knows.apply isNewest write.entry write.checkseq fun unchecked => ?_
        subst own
        exact arrival ops write (List.prefix_refl _) unchecked
      · have applied : [ServerOp.write write].filterMap (ServerOp.version key) = [] := by
          simp [ServerOp.version, own]
        rw [if_neg (Ne.symm own)] at stepped
        rw [applied, List.append_nil]
        unfold ServerOp.apply
        rw [stepped]
        exact ⟨newest, knows, isNewest⟩
    | get other =>
      have applied : [ServerOp.get other].filterMap (ServerOp.version key) = [] := rfl
      rw [applied, List.append_nil]
      refine ⟨newest, ?_, isNewest⟩
      unfold ServerOp.apply
      rcases cell_get before other key with same | ⟨zero, dropped⟩
      · rw [same]
        exact knows
      · rw [dropped]
        refine ⟨Or.inl rfl, Or.inr ⟨?_, rfl⟩⟩
        rcases knows.2 with holds | ⟨newestZero, -⟩
        · rw [← holds, zero]
          rfl
        · exact newestZero

/-- Newest write wins: after any operations, `get` returns the version with the largest sequence number
that was applied to the key. -/
theorem newest_write_wins {kv : KvStore} (empty : ∀ key, kv.cell key = ⟨none, none⟩) (ops : List ServerOp)
    (arrival : Arrival ops) (room : BelowCapacity kv ops) (key : Key) :
    ∃ newest, IsNewest newest (versions key ops) ∧
      ((ops.foldl ServerOp.apply kv).get key).1 = recordOf newest := by
  obtain ⟨newest, knows, isNewest⟩ := knows_newest empty ops arrival room key
  refine ⟨newest, isNewest, ?_⟩
  rw [record_get, knows.recordOf]

theorem arrival_of_take {ops : List ServerOp}
    (newer : ∀ k write, ops[k]? = some (.write write) → write.checkseq = false →
      ∀ earlier ∈ versions write.key (ops.take k), earlier.seq < write.entry.seq) : Arrival ops := by
  rintro done write ⟨later, rfl⟩
  have found : (done ++ [.write write] ++ later)[done.length]? = some (.write write) := by simp
  simpa using newer done.length write found

def KvStore.blank : KvStore := { db := ∅, dbseq := 0, deletedSet := .new 3 1, maxseq := 0 }

/-- A key is put and deleted, an older version of it is replayed, then a newer one and, once more, an older
deletion; the other key has a version with the same sequence number. -/
def replayedOps : List ServerOp :=
  let key : Key := ⟨1, 0, 0, 0⟩
  let other : Key := ⟨2, 0, 0, 0⟩
  [.write (.put key [7] 5 false), .write (.put other [9] 5 false), .write (.remove key 8 false), .get key,
    .write (.put key [6] 6 true), .write (.remove other 8 true), .write (.put key [4] 10 true),
    .write (.remove key 9 true), .write (.put other [3] 12 false)]

theorem newest_write_wins_replayed :
    ∃ newest, IsNewest newest (versions ⟨1, 0, 0, 0⟩ replayedOps) ∧
      ((replayedOps.foldl ServerOp.apply KvStore.blank).get ⟨1, 0, 0, 0⟩).1 = recordOf newest := by
  refine newest_write_wins (fun _ => rfl) replayedOps (arrival_of_take ?_) ?_ _
  · intro k write found
    have inside : k < 9 := (List.getElem?_eq_some_iff.mp found).1
    interval_cases k <;> cases found <;> decide +kernel
  · have every : ∀ done ∈ replayedOps.inits, (done.foldl ServerOp.apply KvStore.blank).deletedSet.size <
        (done.foldl ServerOp.apply KvStore.blank).deletedSet.maxSize := by decide +kernel
    exact fun done within => every done (List.mem_inits done replayedOps |>.mpr within)

end FarReach
