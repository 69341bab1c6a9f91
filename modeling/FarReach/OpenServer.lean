import FarReach.SnapshotCalls

namespace FarReach

open Crash Crash.Program RocksdbWrapper

variable {disk : ServerDisk} {pairs : List (Key × Nat)} {post : Unit → RocksdbWrapper → ServerDisk → Prop}
    {records : List (Key × SnapshotRecord)} {wrapper : RocksdbWrapper} {db : Database} {dbseq maxseq : Nat}

theorem runs_loadSnapshotFiles {id : Int} (dbseq : (disk (.snapshotdbseq id)).exists = true)
    (deletedset : disk (.snapshotdeletedset id) = .holds pairs) (maxseq : (disk (.snapshotmaxseq id)).exists = true)
    (inswitch : disk (.inswitchsnapshot id) = .holds records)
    (after : ∀ seq : Nat, post ()
      { wrapper with
        maxseq := seq
        spPtr := none
        snapshotdbPtr := some wrapper.db
        snapshotDeletedSet := wrapper.snapshotDeletedSet.load pairs
        inswitchSnapshot := records.foldl (fun map record => map.insertIfNew record.1 record.2) ∅ } disk) :
    Runs (loadSnapshotFiles id) wrapper disk post := by
  unfold loadSnapshotFiles loadServersideSnapshotFiles createSnapshotdbCheckpoint loadInswitchSnapshot
  simp only [runs_bind, runs_getDisk, runs_check, runs_getMemory, runs_modifyMemory, runs_pure, dbseq,
    deletedset, File.exists_holds, loadDeletedSet, true_and]
  unfold loadMaxseq
  cases found : disk (.snapshotmaxseq id) with
  | missing => simp [found] at maxseq
  | empty =>
    rw [runs_pure, inswitch]
    simpa using after wrapper.maxseq
  | holds seq =>
    rw [runs_modifyMemory, inswitch]
    simpa using after seq

/-- The runtime tombstones after `open`: those of the file, or none. -/
def reopenedDeletedSet (file : File (List (Key × Nat))) : DeletedSet :=
  match file with
  | .holds pairs => (DeletedSet.new 10 100).load pairs
  | _ => (DeletedSet.new 10 100).clear

theorem runs_openDeletedSet (written : disk .deletedset ≠ .empty)
    (after : post () { fresh db dbseq maxseq with deletedSet := reopenedDeletedSet (disk .deletedset) } disk) :
    Runs (openDeletedSet true) (fresh db dbseq maxseq) disk post := by
  unfold openDeletedSet
  rw [runs_bind, runs_getDisk]
  cases found : disk .deletedset with
  | missing =>
    rw [found] at after
    simp only [File.exists_missing, Bool.and_false, Bool.false_eq_true, if_false, runs_modifyMemory]
    exact after
  | empty => exact absurd found written
  | holds pairs =>
    rw [found] at after
    simp only [File.exists_holds, Bool.and_true, if_true, loadDeletedSet, runs_modifyMemory]
    exact after

theorem runs_openMaxseq (after : ∀ seq : Nat, post () { wrapper with maxseq := seq } disk) :
    Runs openMaxseq wrapper disk post := by
  unfold openMaxseq
  simp only [runs_bind, runs_getDisk, runs_modifyMemory]
  exact after _

theorem runs_openServer_of_missing (written : disk .deletedset ≠ .empty) (missing : disk .snapshotid = .missing)
    (db : Database) (dbseq maxseq : Nat) :
    Runs (openServer true) (fresh db dbseq maxseq) disk fun _ wrapper disk' => disk' = disk ∧
      wrapper.db = db ∧ wrapper.deletedSet = reopenedDeletedSet (disk .deletedset) ∧
      wrapper.snapshotid = -1 ∧ wrapper.latestSpPtr = none := by
  unfold openServer openSnapshot
  simp only [runs_bind]
  refine runs_openDeletedSet written ?_
  simp only [runs_getDisk, runs_getMemory, runs_ite, missing, File.exists_missing, Bool.false_eq_true, if_false,
    runs_modifyMemory]
  refine runs_openMaxseq fun seq => ?_
  rw [runs_pure]
  exact ⟨rfl, rfl, rfl, rfl, rfl⟩

/-- `open` with a complete id file: the snapshot comes back from its four files, with the database as
it is now in place of the one the snapshot froze. -/
theorem runs_openServer_of_named {id : Int} (written : disk .deletedset ≠ .empty)
    (named : disk .snapshotid = .holds id) (nonneg : 0 ≤ id) (dbseqFile : (disk (.snapshotdbseq id)).exists = true)
    (deletedset : disk (.snapshotdeletedset id) = .holds pairs)
    (maxseqFile : (disk (.snapshotmaxseq id)).exists = true) (inswitch : disk (.inswitchsnapshot id) = .holds records)
    (db : Database) (dbseq maxseq : Nat) :
    Runs (openServer true) (fresh db dbseq maxseq) disk fun _ wrapper disk' => disk' = disk ∧
      wrapper.db = db ∧ wrapper.deletedSet = reopenedDeletedSet (disk .deletedset) ∧
      wrapper.snapshotid = id ∧ wrapper.latestSpPtr = none ∧ wrapper.spPtr = none ∧
      wrapper.snapshotdbPtr = some db ∧
      wrapper.snapshotDeletedSet = (DeletedSet.new 10 100).load pairs ∧
      wrapper.inswitchSnapshot = records.foldl (fun map record => map.insertIfNew record.1 record.2) ∅ := by
  unfold openServer openSnapshot
  simp only [runs_bind]
  refine runs_openDeletedSet written ?_
  simp only [runs_getDisk, runs_getMemory, runs_ite, named, File.exists_holds, if_true, runs_bind, runs_check,
    runs_modifyMemory]
  refine ⟨by simpa using nonneg, ?_⟩
  refine runs_loadSnapshotFiles dbseqFile deletedset maxseqFile inswitch fun seq => ?_
  refine runs_openMaxseq fun seq => ?_
  rw [runs_pure]
  exact ⟨rfl, rfl, rfl, rfl, rfl, rfl, rfl, rfl, rfl⟩

/-- On a sound disk `open` gets through, and the server it yields is consistent. -/
theorem runs_openServer (sound : Sound disk) (db : Database) (dbseq maxseq : Nat) :
    Runs (openServer true) (fresh db dbseq maxseq) disk fun _ => Consistent := by
  obtain ⟨id, written, missing | ⟨named, nonneg, ⟨dbseqFile, ⟨pairs, deletedset⟩, maxseqFile⟩, records, inswitch⟩⟩ :=
    sound
  · refine (runs_openServer_of_missing written missing db dbseq maxseq).mono ?_
    rintro _ wrapper _ ⟨rfl, _, _, sameId, noLatest⟩
    exact ⟨by omega, ⟨written, Or.inl missing⟩, by simp [noLatest]⟩
  · refine (runs_openServer_of_named written named nonneg dbseqFile deletedset maxseqFile inswitch db dbseq
      maxseq).mono ?_
    rintro _ wrapper _ ⟨rfl, _, _, rfl, noLatest, _⟩
    refine ⟨by omega, ⟨written, Or.inr ⟨named, nonneg, ?_⟩⟩, by simp [noLatest]⟩
    exact ⟨⟨dbseqFile, ⟨pairs, deletedset⟩, maxseqFile⟩, records, inswitch⟩

theorem wp_openDeletedSet {crash : ServerDisk → Prop}
    (after : post () { fresh db dbseq maxseq with deletedSet := reopenedDeletedSet (disk .deletedset) } disk) :
    wp (openDeletedSet true) (fresh db dbseq maxseq) disk post crash := by
  unfold openDeletedSet loadDeletedSet
  rw [wp_bind, wp_getDisk]
  cases found : disk .deletedset with
  | missing =>
    rw [found] at after
    simp only [File.exists_missing, Bool.and_false, Bool.false_eq_true, if_false, wp_modifyMemory]
    exact after
  | empty => simp
  | holds pairs =>
    rw [found] at after
    simp only [File.exists_holds, Bool.and_true, if_true, wp_modifyMemory]
    exact after

/-- `open` on a torn id file aborts: the member keeps the `-1` of the constructor. -/
theorem openServer_torn {existing : Bool} {disk' : ServerDisk} (torn : disk .snapshotid = .empty)
    (opened : (openServer true (fresh db dbseq maxseq) disk).result = some (existing, wrapper, disk')) : False := by
  have spec : wp (openServer true) (fresh db dbseq maxseq) disk (fun _ _ _ => False) (fun _ => True) := by
    unfold openServer
    rw [wp_bind]
    refine wp_openDeletedSet ?_
    unfold openSnapshot
    simp [torn, fresh]
  exact spec.2 existing wrapper disk' opened

end FarReach
