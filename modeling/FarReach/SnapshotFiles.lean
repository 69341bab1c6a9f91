import FarReach.RocksdbWrapper

namespace FarReach

open Crash Crash.Program RocksdbWrapper Function

def Path.owner : Path → Option Int
  | deletedset => none
  | latestmaxseq => none
  | snapshotid => none
  | snapshotdbseq id => some id
  | snapshotdeletedset id => some id
  | snapshotmaxseq id => some id
  | inswitchsnapshot id => some id

/-- The files of the server side of a snapshot are there, the tombstones completely written. -/
structure Serverside (disk : ServerDisk) (id : Int) : Prop where
  dbseq : (disk (.snapshotdbseq id)).exists = true
  deletedset : ∃ pairs, disk (.snapshotdeletedset id) = .holds pairs
  maxseq : (disk (.snapshotmaxseq id)).exists = true

/-- All four files of a snapshot are there. -/
structure Backed (disk : ServerDisk) (id : Int) : Prop extends Serverside disk id where
  inswitch : ∃ records, disk (.inswitchsnapshot id) = .holds records

/-- The snapshot id file is not there, or names `id`, whose files are there. -/
structure Keeps (disk : ServerDisk) (id : Int) : Prop where
  runtime : disk .deletedset ≠ .empty
  current : disk .snapshotid = .missing ∨ (disk .snapshotid = .holds id ∧ 0 ≤ id ∧ Backed disk id)

theorem Serverside.update {disk : ServerDisk} {id other : Int} {path : Path} (serverside : Serverside disk id)
    (file : File path.Content) (owned : path.owner = some other) (apart : other ≠ id) :
    Serverside (update disk path file) id := by
  obtain ⟨dbseq, deletedset, maxseq⟩ := serverside
  have away : ∀ kept : Path, kept.owner = some id → kept ≠ path := by
    rintro kept keptOwner rfl
    exact apart (Option.some.inj (owned.symm.trans keptOwner))
  refine ⟨?_, ?_, ?_⟩
  · rwa [update_of_ne (away (.snapshotdbseq id) rfl)]
  · rwa [update_of_ne (away (.snapshotdeletedset id) rfl)]
  · rwa [update_of_ne (away (.snapshotmaxseq id) rfl)]

theorem Backed.update {disk : ServerDisk} {id other : Int} {path : Path} (backed : Backed disk id)
    (file : File path.Content) (owned : path.owner = some other) (apart : other ≠ id) :
    Backed (update disk path file) id := by
  refine ⟨backed.toServerside.update file owned apart, ?_⟩
  have away : Path.inswitchsnapshot id ≠ path := by
    rintro rfl
    exact apart (Option.some.inj owned.symm)
  rw [update_of_ne away]
  exact backed.inswitch

theorem Keeps.update {disk : ServerDisk} {id other : Int} {path : Path} (keeps : Keeps disk id)
    (file : File path.Content) (owned : path.owner = some other) (apart : other ≠ id) :
    Keeps (update disk path file) id := by
  have runtimeApart : Path.deletedset ≠ path := by
    rintro rfl
    cases owned
  have idApart : Path.snapshotid ≠ path := by
    rintro rfl
    cases owned
  refine ⟨by rw [update_of_ne runtimeApart]; exact keeps.runtime, ?_⟩
  rw [update_of_ne idApart]
  rcases keeps.current with missing | ⟨named, nonneg, backed⟩
  · exact Or.inl missing
  · exact Or.inr ⟨named, nonneg, backed.update file owned apart⟩

/-- A negative id is never named, so the id file is not there. -/
theorem Keeps.of_neg {disk : ServerDisk} {id : Int} (keeps : Keeps disk id) (negative : id < 0) (other : Int) :
    Keeps disk other := by
  refine ⟨keeps.runtime, Or.inl ?_⟩
  rcases keeps.current with missing | ⟨_, nonneg, _⟩
  · exact missing
  · omega

/-- A disk the next `open` can work with: the id file is complete, and so are the files it names. -/
def Sound (disk : ServerDisk) : Prop := ∃ id, Keeps disk id

/-- What a crash may leave behind: unless it tore the id file, the disk is sound. -/
def Survives (disk : ServerDisk) : Prop := disk .snapshotid ≠ .empty → Sound disk

theorem Keeps.survives {disk : ServerDisk} {id : Int} (keeps : Keeps disk id) : Survives disk :=
  fun _ => ⟨id, keeps⟩

/-- What loading snapshot files leaves alone: everything but the snapshot in use and `maxseq`. -/
structure RocksdbWrapper.Reloads (later earlier : RocksdbWrapper) : Prop where
  db : later.db = earlier.db
  dbseq : later.dbseq = earlier.dbseq
  deletedSet : later.deletedSet = earlier.deletedSet
  snapshotid : later.snapshotid = earlier.snapshotid
  latestSpPtr : later.latestSpPtr = earlier.latestSpPtr

section Writes

variable {A : Type} {wrapper : RocksdbWrapper} {disk : ServerDisk} {id other : Int} {path : Path}

variable {content : path.Content} {post : Unit → RocksdbWrapper → ServerDisk → Prop} {crash : ServerDisk → Prop}

theorem wp_store_keeps (keeps : Keeps disk id) (owned : path.owner = some other) (apart : other ≠ id)
    (after : Keeps (update disk path (.holds content)) id →
      post () wrapper (update disk path (.holds content))) :
    wp (store path content) wrapper disk post Survives := by
  rw [wp_store]
  have written := keeps.update (.holds content) owned apart
  exact ⟨(keeps.update .empty owned apart).survives, written.survives, after written⟩

theorem wp_recreate_keeps (keeps : Keeps disk id) (owned : path.owner = some other) (apart : other ≠ id)
    (after : Keeps (update disk path (.holds content)) id →
      post () wrapper (update disk path (.holds content))) :
    wp (recreate path content) wrapper disk post Survives := by
  rw [wp_recreate]
  have written := keeps.update (.holds content) owned apart
  exact ⟨fun _ => (keeps.update .missing owned apart).survives, (keeps.update .empty owned apart).survives,
    written.survives, after written⟩

theorem wp_remove_keeps (keeps : Keeps disk id) (owned : path.owner = some other) (apart : other ≠ id)
    (after : Keeps (update disk path .missing) id → post () wrapper (update disk path .missing)) :
    wp (Program.remove path) wrapper disk post Survives := by
  rw [wp_remove]
  have removed := keeps.update .missing owned apart
  exact ⟨removed.survives, after removed⟩

theorem wp_removeSnapshotFiles_keeps (keeps : Keeps disk id) (apart : other ≠ id)
    (after : ∀ disk', Keeps disk' id → post () wrapper disk') :
    wp (removeSnapshotFiles other) wrapper disk post Survives := by
  unfold removeSnapshotFiles
  rw [wp_bind]
  refine wp_remove_keeps keeps rfl apart fun keeps => ?_
  rw [wp_bind]
  refine wp_remove_keeps keeps rfl apart fun keeps => ?_
  rw [wp_bind]
  refine wp_remove_keeps keeps rfl apart fun keeps => ?_
  exact wp_remove_keeps keeps rfl apart fun keeps => after _ keeps

/-- A server-side load reads only; if it gets through, the files were there. -/
theorem wp_loadServersideSnapshotFiles
    (after : ∀ wrapper' : RocksdbWrapper, Serverside disk id → wrapper'.Reloads wrapper → post () wrapper' disk) :
    wp (loadServersideSnapshotFiles id) wrapper disk post crash := by
  unfold loadServersideSnapshotFiles createSnapshotdbCheckpoint
  simp only [wp_bind, wp_getDisk, wp_check, wp_getMemory, wp_modifyMemory, wp_pure]
  intro dbseq _
  unfold loadDeletedSet loadMaxseq
  cases deletedset : disk (.snapshotdeletedset id) with
  | missing => simp
  | empty => simp
  | holds pairs =>
    simp only [wp_modifyMemory]
    cases maxseq : disk (.snapshotmaxseq id) with
    | missing => simp
    | empty =>
      simp only [wp_pure]
      exact after _ ⟨dbseq, ⟨pairs, deletedset⟩, by rw [maxseq]; rfl⟩ ⟨rfl, rfl, rfl, rfl, rfl⟩
    | holds seq =>
      simp only [wp_modifyMemory]
      exact after _ ⟨dbseq, ⟨pairs, deletedset⟩, by rw [maxseq]; rfl⟩ ⟨rfl, rfl, rfl, rfl, rfl⟩

theorem wp_loadSnapshotFiles (after : ∀ wrapper' : RocksdbWrapper, wrapper'.Reloads wrapper → post () wrapper' disk) :
    wp (loadSnapshotFiles id) wrapper disk post crash := by
  unfold loadSnapshotFiles loadInswitchSnapshot
  rw [wp_bind]
  refine wp_loadServersideSnapshotFiles fun wrapper' _ reloads => ?_
  rw [wp_bind, wp_getDisk]
  cases disk (.inswitchsnapshot id) with
  | missing =>
    rw [wp_pure]
    exact after wrapper' reloads
  | empty => simp
  | holds records =>
    rw [wp_modifyMemory]
    exact after _ ⟨reloads.db, reloads.dbseq, reloads.deletedSet, reloads.snapshotid, reloads.latestSpPtr⟩

end Writes

end FarReach
