import FarReach.ServerRecover
import FarReach.OpenServer
import FarReach.History

namespace FarReach

open Versioned Crash Crash.Program RocksdbWrapper

/-- The sequence number of the latest operation on a key, if that operation is a remove. -/
def latestRemove (history : List Write) (key : Key) : Option Nat :=
  match (history.filter fun write => write.key = key).getLast? with
  | some (.remove _ seq _) => some seq
  | _ => none

/-- After a history on `kv`, a crash, an `open` that yields `opened` and the replay of `backups`: no
key whose latest operation was a remove is made live again by an older put. -/
def NoResurrection (kv : KvStore) (history : List Write) (opened : KvStore) (backups : BackupMap) : Prop :=
  ∀ key removed, latestRemove history key = some removed → (history.foldl Write.apply kv).db[key]? = none →
    ∀ val seq, ((runServerRecover backups opened).cell key).stored = some (val, seq) → removed ≤ seq

/-- Each older put that is replayed for a removed key is covered by a tombstone of the file. -/
def TombstonesCover (kv : KvStore) (history : List Write) (disk : ServerDisk) (backups : BackupMap) : Prop :=
  ∀ key removed record, latestRemove history key = some removed →
    (history.foldl Write.apply kv).db[key]? = none → backups[key]? = some record → record.stat = true →
    record.seq < removed →
    ∃ persisted, (reopenedDeletedSet (disk .deletedset)).tombstone key = some persisted ∧ record.seq < persisted

/-- Whatever `open` loads, the database is the one that survived, and the tombstones are those of the
last clean shutdown. -/
theorem wp_openServer (disk : ServerDisk) (db : Database) (dbseq maxseq : Nat) (crash : ServerDisk → Prop) :
    wp (openServer true) (fresh db dbseq maxseq) disk
      (fun _ wrapper _ => wrapper.db = db ∧ wrapper.deletedSet = reopenedDeletedSet (disk .deletedset)) crash := by
  unfold openServer openSnapshot openMaxseq
  rw [wp_bind]
  refine wp_openDeletedSet ?_
  simp only [wp_bind, wp_getDisk, wp_getMemory, wp_ite]
  split
  · simp only [wp_check, wp_modifyMemory]
    intro _
    refine wp_loadSnapshotFiles fun wrapper'' reloads => ?_
    simp only [wp_pure]
    exact ⟨reloads.db, reloads.deletedSet⟩
  · rw [wp_modifyMemory, wp_modifyMemory, wp_pure]
    exact ⟨rfl, rfl⟩

/-- A key that is not in the database: the replay leaves it live exactly when its backup is a put that
no loaded tombstone is newer than. -/
theorem stored_runServerRecover {opened : KvStore} {backups : BackupMap} {key : Key} {val : Val} {seq : Nat}
    (fits : Fits opened backups.toList) (absent : opened.db[key]? = none) :
    ((runServerRecover backups opened).cell key).stored = some (val, seq) ↔
      backups[key]? = some ⟨val, seq, true⟩ ∧ ∀ persisted, opened.deletedSet.tombstone key = some persisted →
        persisted ≤ seq := by
  rw [cell_runServerRecover_of_fits backups opened key fits]
  have stored : (opened.cell key).stored = none := absent
  cases found : backups[key]? with
  | none => simp [stored]
  | some record =>
    rw [Option.elim_some, Cell.stored_apply_of_absent stored]
    refine and_congr_left fun _ => ?_
    obtain ⟨recordVal, recordSeq, recordStat⟩ := record
    cases recordStat <;> simp [SnapshotRecord.entry]

/-- Crash recovery resurrects no deleted key exactly when each older put it replays is covered by a
tombstone that a clean shutdown had written; tombstones added since are lost. -/
theorem crash_recovery_keeps_deletes {kv : KvStore} {history : List Write} {disk disk' : ServerDisk}
    {backups : BackupMap} {maxseq : Nat} {existing : Bool} {wrapper : RocksdbWrapper}
    (opened : (openServer true (fresh (history.foldl Write.apply kv).db (history.foldl Write.apply kv).dbseq maxseq)
      disk).result = some (existing, wrapper, disk'))
    (fits : Fits wrapper.toKvStore backups.toList) :
    NoResurrection kv history wrapper.toKvStore backups ↔ TombstonesCover kv history disk backups := by
  obtain ⟨sameDb, sameDeletedSet⟩ := (wp_openServer disk _ _ maxseq fun _ => True).2 existing wrapper disk' opened
  have gone : ∀ key : Key, (history.foldl Write.apply kv).db[key]? = none → wrapper.db[key]? = none := by
    intro key absent
    rw [sameDb]
    exact absent
  constructor
  · intro noResurrection key removed record latest absent found live older
    by_contra uncovered
    have resurrected : ((runServerRecover backups wrapper.toKvStore).cell key).stored =
        some (record.val, record.seq) := by
      refine (stored_runServerRecover fits (gone key absent)).mpr ⟨by rw [found]; cases record; simp_all, ?_⟩
      intro persisted tombstone
      by_contra newer
      exact uncovered ⟨persisted, by rwa [← sameDeletedSet], Nat.lt_of_not_le newer⟩
    exact absurd (noResurrection key removed latest absent _ _ resurrected) (Nat.not_le.mpr older)
  · intro covered key removed latest absent val seq live
    obtain ⟨found, admitted⟩ := (stored_runServerRecover fits (gone key absent)).mp live
    by_contra older
    obtain ⟨persisted, tombstone, newer⟩ :=
      covered key removed _ latest absent found rfl (Nat.lt_of_not_le older)
    exact absurd newer (Nat.not_lt.mpr (admitted persisted (by rwa [sameDeletedSet])))

def emptyStore : KvStore := ⟨∅, 0, DeletedSet.new 10 100, 0⟩

def cleanDisk : ServerDisk := Function.update (fun _ => .missing) .deletedset (.holds [(⟨1, 0, 0, 0⟩, 5)])

def putBackup : BackupMap := (∅ : BackupMap).insert ⟨1, 0, 0, 0⟩ ⟨[7], 1, true⟩

/-- A second remove is lost in the crash, but the tombstone of the first one was written. -/
theorem crash_recovery_keeps_covered_delete :
    Runs (openServer true) (fresh ([Write.remove ⟨1, 0, 0, 0⟩ 8 false].foldl Write.apply emptyStore).db 1 0) cleanDisk
      fun _ wrapper _ =>
        NoResurrection emptyStore [.remove ⟨1, 0, 0, 0⟩ 8 false] wrapper.toKvStore putBackup := by
  obtain ⟨existing, wrapper, disk, opened, _, _, sameDeletedSet, _⟩ :=
    runs_openServer_of_missing (show cleanDisk .deletedset ≠ .empty by simp [cleanDisk]) (by simp [cleanDisk])
      ([Write.remove ⟨1, 0, 0, 0⟩ 8 false].foldl Write.apply emptyStore).db 1 0
  refine ⟨existing, wrapper, disk, opened, ?_⟩
  have fits : Fits wrapper.toKvStore putBackup.toList := by
    unfold Fits
    rw [sameDeletedSet]
    decide
  refine (crash_recovery_keeps_deletes opened fits).mpr ?_
  intro key removed record latest _ found _ _
  have same : key = ⟨1, 0, 0, 0⟩ := by
    by_contra other
    simp [putBackup, OrderedMap.lookup_insert, other] at found
  subst same
  have record_eq : record = ⟨[7], 1, true⟩ := by simpa [putBackup] using found.symm
  subst record_eq
  exact ⟨5, by decide, by decide⟩

/-- A put and a remove, with the put still in a client's backup. -/
def putThenRemove : List Write := [.put ⟨1, 0, 0, 0⟩ [7] 1 false, .remove ⟨1, 0, 0, 0⟩ 2 false]

/-- After a remove that no clean shutdown followed, the crashed server replays the older put and has the
key live again. -/
theorem crash_recovery_resurrects :
    Runs (openServer true) (fresh (putThenRemove.foldl Write.apply emptyStore).db 0 0) (fun _ => .missing)
      fun _ wrapper _ => ¬ NoResurrection emptyStore putThenRemove wrapper.toKvStore putBackup := by
  refine (runs_openServer_of_missing (by simp) rfl _ 0 0).mono ?_
  rintro _ wrapper _ ⟨_, sameDb, sameDeletedSet, _⟩ noResurrection
  have fits : Fits wrapper.toKvStore putBackup.toList := by
    unfold Fits
    rw [sameDeletedSet]
    decide
  have live : ((runServerRecover putBackup wrapper.toKvStore).cell ⟨1, 0, 0, 0⟩).stored = some ([7], 1) := by
    refine (stored_runServerRecover fits ?_).mpr ⟨by decide, ?_⟩
    · rw [sameDb]
      decide
    · rw [sameDeletedSet]
      simp [reopenedDeletedSet, DeletedSet.tombstone, DeletedSet.clear]
  have bound := noResurrection ⟨1, 0, 0, 0⟩ 2 (by decide) (by decide) [7] 1 live
  omega

end FarReach
