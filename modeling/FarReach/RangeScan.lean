import FarReach.RocksdbWrapper

namespace FarReach

open OrderedMap

/-- `Key::get_scanrecordcnt`: the 32-bit difference of the low words, read as a signed count, must be
between 1 and 1000. -/
def Key.getScanrecordcnt (startkey endkey : Key) : Option Nat :=
  let scanrecordcnt := (endkey.keylolo - startkey.keylolo).toNat
  if 0 < scanrecordcnt ∧ scanrecordcnt ≤ 1000 then some scanrecordcnt else none

def keepsRecord (needExist : Bool) (entry : Key × SnapshotRecord) : Bool := !needExist || entry.2.stat

/-- The merge loop; the fuel counts the records left. Equal keys abort unless `need_exist`. -/
def mergeLoop (needExist : Bool) : Nat → List (Key × SnapshotRecord) → List (Key × SnapshotRecord) →
    Option (List (Key × SnapshotRecord))
  | _, [], vecb => some (vecb.filter (keepsRecord needExist))
  | _, veca, [] => some (veca.filter (keepsRecord needExist))
  | 0, _ :: _, _ :: _ => none
  | fuel + 1, a :: veca, b :: vecb =>
    if a.1.lt b.1 then
      (mergeLoop needExist fuel veca (b :: vecb)).map ([a].filter (keepsRecord needExist) ++ ·)
    else if b.1.lt a.1 then
      (mergeLoop needExist fuel (a :: veca) vecb).map ([b].filter (keepsRecord needExist) ++ ·)
    else if needExist then
      (mergeLoop needExist fuel veca vecb).map
        ([if a.2.seq ≥ b.2.seq then a else b].filter (keepsRecord needExist) ++ ·)
    else none

def mergeSort (veca vecb : List (Key × SnapshotRecord)) (needExist : Bool) :
    Option (List (Key × SnapshotRecord)) :=
  mergeLoop needExist (veca.length + vecb.length) veca vecb

def liveRecord (entry : Key × Val × Nat) : Key × SnapshotRecord := (entry.1, ⟨entry.2.1, entry.2.2, true⟩)

def deletedRecord (entry : Key × Nat) : Key × SnapshotRecord := (entry.1, ⟨[], entry.2, false⟩)

def scanSnapshot (db : Database) (deletedSet : Std.ExtTreeMap Key Nat)
    (inswitchSnapshot : Std.ExtTreeMap Key SnapshotRecord) (startkey endkey : Key) :
    Option (List (Key × SnapshotRecord)) := do
  let scanrecordcnt ← startkey.getScanrecordcnt endkey
  let dbResults := ((entriesFrom db startkey).take scanrecordcnt).map liveRecord
  let deletedResults := ((entriesFrom deletedSet startkey).take scanrecordcnt).map deletedRecord
  let inswitchResults := (entriesFrom inswitchSnapshot startkey).take scanrecordcnt
  let serversideResults ← mergeSort dbResults deletedResults false
  let results ← mergeSort serversideResults inswitchResults true
  pure (results.take scanrecordcnt)

/-- `range_scan`: the database snapshot is preferred to the checkpoint. -/
def RocksdbWrapper.rangeScan (wrapper : RocksdbWrapper) (startkey endkey : Key) :
    Option (List (Key × SnapshotRecord)) := do
  let db ← wrapper.spPtr.or wrapper.snapshotdbPtr
  scanSnapshot db wrapper.snapshotDeletedSet.recordsSortedBykey wrapper.inswitchSnapshot startkey endkey

def Key.next (key : Key) : Key := { key with keylolo := key.keylolo + 1 }

theorem Key.getScanrecordcnt_next (key : Key) : key.getScanrecordcnt key.next = some 1 := by
  have one : key.keylolo + 1 - key.keylolo = 1 := by
    rw [UInt32.add_comm]
    exact UInt32.add_sub_cancel 1 key.keylolo
  simp [getScanrecordcnt, next, one]

theorem mergeSort_single (entry : Key × Val × Nat) (tombstone : Key × Nat) (apart : entry.1 ≠ tombstone.1) :
    ∃ merged, mergeSort [liveRecord entry] [deletedRecord tombstone] false = some merged ∧
      mergeSort merged [] true = some [liveRecord entry] := by
  by_cases before : entry.1.lt tombstone.1 = true
  · refine ⟨[liveRecord entry, deletedRecord tombstone], ?_, ?_⟩
    · simp [mergeSort, mergeLoop, liveRecord, deletedRecord, before, keepsRecord]
    · simp [mergeSort, mergeLoop, liveRecord, deletedRecord, keepsRecord]
  · have after := Key.lt_of_ne_of_not_lt apart before
    refine ⟨[deletedRecord tombstone, liveRecord entry], ?_, ?_⟩
    · simp [mergeSort, mergeLoop, liveRecord, deletedRecord, before, after, keepsRecord]
    · simp [mergeSort, mergeLoop, liveRecord, deletedRecord, keepsRecord]

/-- A scan for one record without an in-switch snapshot returns the first database record from the key
on; it aborts if the first tombstone has the same key. -/
theorem scanSnapshot_next (db : Database) (deletedSet : Std.ExtTreeMap Key Nat) (key : Key) :
    scanSnapshot db deletedSet ∅ key key.next =
        some ((entriesFrom db key).head?.toList.map liveRecord) ∨
      (scanSnapshot db deletedSet ∅ key key.next = none ∧
        ∃ entry tombstone, (entriesFrom db key).head? = some entry ∧
          (entriesFrom deletedSet key).head? = some tombstone ∧ entry.1 = tombstone.1) := by
  unfold scanSnapshot
  simp only [Key.getScanrecordcnt_next, Option.bind_eq_bind, Option.bind_some, List.take_one]
  have noInswitch : (entriesFrom (∅ : Std.ExtTreeMap Key SnapshotRecord) key).head?.toList = [] := by
    simp [entriesFrom]
  rw [noInswitch]
  cases first : (entriesFrom db key).head? with
  | none =>
    left
    cases (entriesFrom deletedSet key).head? <;>
      simp [mergeSort, mergeLoop, keepsRecord, deletedRecord]
  | some entry =>
    cases dead : (entriesFrom deletedSet key).head? with
    | none =>
      left
      simp [mergeSort, mergeLoop, keepsRecord, liveRecord]
    | some tombstone =>
      by_cases same : entry.1 = tombstone.1
      · right
        refine ⟨?_, entry, tombstone, rfl, rfl, same⟩
        simp [mergeSort, mergeLoop, liveRecord, deletedRecord, same, Key.lt_irrefl]
      · left
        obtain ⟨merged, serverside, results⟩ := mergeSort_single entry tombstone same
        simp only [Option.toList_some, List.map_cons, List.map_nil, serverside, Option.bind_some, results]
        rfl

/-- Without an in-switch snapshot, scans tell two databases apart, provided no key of the first one has
a tombstone. -/
theorem eq_of_scanSnapshot_eq {first second : Database} {deletedSet : Std.ExtTreeMap Key Nat}
    (disjoint : ∀ key : Key, first[key]? = none ∨ deletedSet[key]? = none)
    (same : ∀ startkey endkey, scanSnapshot first deletedSet ∅ startkey endkey =
      scanSnapshot second deletedSet ∅ startkey endkey) : first = second := by
  have heads : ∀ key, (entriesFrom first key).head? = (entriesFrom second key).head? := by
    intro key
    have scans := same key key.next
    rcases scanSnapshot_next first deletedSet key
      with firstScan | ⟨_, entry, tombstone, atEntry, atTombstone, collide⟩
    · rcases scanSnapshot_next second deletedSet key with secondScan | ⟨secondScan, _⟩
      · rw [firstScan, secondScan] at scans
        have lists := Option.some.inj scans
        cases left : (entriesFrom first key).head? <;>
          cases right : (entriesFrom second key).head? <;>
          simp_all [liveRecord, Prod.ext_iff]
      · rw [firstScan, secondScan] at scans
        cases scans
    · have live := Std.ExtTreeMap.mem_toList_iff_getElem?_eq_some.mp
        (List.mem_filter.mp (List.mem_of_mem_head? (Option.mem_def.mpr atEntry))).1
      have dead := Std.ExtTreeMap.mem_toList_iff_getElem?_eq_some.mp
        (List.mem_filter.mp (List.mem_of_mem_head? (Option.mem_def.mpr atTombstone))).1
      rw [← collide] at dead
      rcases disjoint entry.1 with gone | gone
      · rw [gone] at live
        cases live
      · rw [gone] at dead
        cases dead
  apply Std.ExtTreeMap.ext_getElem?
  intro key
  apply Option.ext
  intro version
  rw [← head?_entriesFrom, ← head?_entriesFrom, heads key]

end FarReach
