import FarReach.OpenServer
import FarReach.RangeScan
import FarReach.History

namespace FarReach

open Crash Crash.Program RocksdbWrapper Write

def applyWrites (writes : List Write) : ServerM Unit :=
  modifyMemory fun wrapper => { wrapper with toKvStore := writes.foldl apply wrapper.toKvStore }

/-- A snapshot period of a server: writes, the cut, more writes, and the in-switch snapshot. -/
def snapshotPeriod (before after : List Write) (map : Std.ExtTreeMap Key SnapshotRecord) : ServerM Unit := do
  let wrapper ← getMemory
  applyWrites before
  let _ ← makeSnapshot (wrapper.snapshotid + 1)
  applyWrites after
  updateSnapshot map (wrapper.snapshotid + 1)

/-- Two servers show the same snapshot. -/
structure SameView (left right : RocksdbWrapper) : Prop where
  snapshotid : left.snapshotid = right.snapshotid
  deletedSet : left.snapshotDeletedSet.recordsSortedBykey = right.snapshotDeletedSet.recordsSortedBykey
  inswitch : left.inswitchSnapshot = right.inswitchSnapshot
  scans : ∀ startkey endkey, left.rangeScan startkey endkey = right.rangeScan startkey endkey

/-- The server goes through a snapshot period, is closed and opened again, and shows the same snapshot. -/
def RestartKeepsView (wrapper : RocksdbWrapper) (disk : ServerDisk) (before after : List Write)
    (map : Std.ExtTreeMap Key SnapshotRecord) (maxseq : Nat) : Prop :=
  Runs (snapshotPeriod before after map) wrapper disk fun _ updated disk =>
    Runs close updated disk fun _ _ disk =>
      Runs (openServer true) (fresh updated.db updated.dbseq maxseq) disk fun _ reopened _ =>
        SameView reopened updated

/-- A server between two snapshot periods. -/
structure Ready (wrapper : RocksdbWrapper) : Prop where
  started : 0 ≤ wrapper.snapshotid
  idle : wrapper.isSnapshot = false
  disjoint : wrapper.toKvStore.Disjoint

/-- The tombstones at the cut are those of the snapshot in use before it, and the writes after the cut
leave the database as it was. -/
def CutPersisted (wrapper : RocksdbWrapper) (before after : List Write) : Prop :=
  (before.foldl apply wrapper.toKvStore).deletedSet.recordsSortedBykey =
      wrapper.snapshotDeletedSet.recordsSortedBykey ∧
    (after.foldl apply (before.foldl apply wrapper.toKvStore)).db =
      (before.foldl apply wrapper.toKvStore).db

variable {disk : ServerDisk} {post : Unit → RocksdbWrapper → ServerDisk → Prop} {wrapper : RocksdbWrapper}
    {map : Std.ExtTreeMap Key SnapshotRecord}

theorem runs_makeSnapshot (wrapper : RocksdbWrapper) (started : 0 ≤ wrapper.snapshotid)
    (idle : wrapper.isSnapshot = false) {post : Bool → RocksdbWrapper → ServerDisk → Prop}
    (after : ∀ disk', Serverside disk' (wrapper.snapshotid + 1) →
      disk' (.snapshotdeletedset (wrapper.snapshotid + 1)) = .holds wrapper.snapshotDeletedSet.store →
      post true
        { wrapper with
          isSnapshot := true
          latestSpPtr := some wrapper.db
          latestSnapshotDeletedSet := wrapper.latestSnapshotDeletedSet.assign wrapper.deletedSet } disk') :
    Runs (makeSnapshot (wrapper.snapshotid + 1)) wrapper disk post := by
  unfold makeSnapshot claimSnapshot takeSnapshot
  have notUnstarted : wrapper.snapshotid ≠ -1 := by omega
  simp only [runs_bind, runs_check, runs_getMemory, runs_ite, notUnstarted, if_false, if_true, idle,
    Bool.false_eq_true, runs_modifyMemory, runs_store, runs_recreate, runs_pure]
  refine ⟨by simp; omega, after _ ⟨?_, ⟨wrapper.snapshotDeletedSet.store, ?_⟩, ?_⟩ ?_⟩ <;> simp [Function.update]

theorem runs_removeSnapshotFiles {id : Int}
    (after : ∀ disk', (∀ path : Path, path.owner ≠ some id → disk' path = disk path) → post () wrapper disk') :
    Runs (removeSnapshotFiles id) wrapper disk post := by
  unfold removeSnapshotFiles
  simp only [runs_bind, runs_remove]
  refine after _ fun path apart => ?_
  cases path <;> simp_all [Path.owner, Function.update]

/-- `update_snapshot` after `make_snapshot`: the in-memory snapshot of the cut is taken over, and the id
file names the files. -/
theorem runs_updateSnapshot (wrapper : RocksdbWrapper) {frozen : Database} {pairs : List (Key × Nat)}
    (latest : wrapper.latestSpPtr = some frozen) (serverside : Serverside disk (wrapper.snapshotid + 1))
    (deletedset : disk (.snapshotdeletedset (wrapper.snapshotid + 1)) = .holds pairs)
    (after : ∀ (updated : RocksdbWrapper) (disk' : ServerDisk), updated.toKvStore = wrapper.toKvStore →
      updated.snapshotid = wrapper.snapshotid + 1 → updated.spPtr = some frozen →
      updated.snapshotDeletedSet.recordsSortedBykey = wrapper.latestSnapshotDeletedSet.recordsSortedBykey →
      updated.inswitchSnapshot = map → Serverside disk' (wrapper.snapshotid + 1) →
      disk' (.snapshotdeletedset (wrapper.snapshotid + 1)) = .holds pairs →
      disk' (.inswitchsnapshot (wrapper.snapshotid + 1)) = .holds map.toList →
      disk' .snapshotid = .holds (wrapper.snapshotid + 1) → post () updated disk') :
    Runs (updateSnapshot map (wrapper.snapshotid + 1)) wrapper disk post := by
  obtain ⟨dbseq, _, maxseq⟩ := serverside
  unfold updateSnapshot adoptServerside storeInswitchSnapshot
  simp only [runs_bind, runs_check, runs_getMemory, runs_modifyMemory, beq_self_eq_true, true_and, latest,
    runs_store, runs_ite]
  -- the files of the new snapshot, and the id file, are not touched by the removal that may follow
  have finish : ∀ disk' : ServerDisk, (∀ path : Path,
      path.owner = some (wrapper.snapshotid + 1) ∨ path.owner = none →
        disk' path = Function.update (Function.update disk (.inswitchsnapshot (wrapper.snapshotid + 1))
          (.holds map.toList)) .snapshotid (.holds (wrapper.snapshotid + 1)) path) →
      Serverside disk' (wrapper.snapshotid + 1) ∧
        disk' (.snapshotdeletedset (wrapper.snapshotid + 1)) = .holds pairs ∧
        disk' (.inswitchsnapshot (wrapper.snapshotid + 1)) = .holds map.toList ∧
        disk' .snapshotid = .holds (wrapper.snapshotid + 1) := by
    intro disk' same
    have dbseqFile := same (.snapshotdbseq (wrapper.snapshotid + 1)) (Or.inl rfl)
    have deletedsetFile := same (.snapshotdeletedset (wrapper.snapshotid + 1)) (Or.inl rfl)
    have maxseqFile := same (.snapshotmaxseq (wrapper.snapshotid + 1)) (Or.inl rfl)
    have inswitchFile := same (.inswitchsnapshot (wrapper.snapshotid + 1)) (Or.inl rfl)
    have idFile := same .snapshotid (Or.inr rfl)
    simp [Function.update] at dbseqFile deletedsetFile maxseqFile inswitchFile idFile
    rw [deletedset] at deletedsetFile
    exact ⟨⟨by rwa [dbseqFile], ⟨pairs, deletedsetFile⟩, by rwa [maxseqFile]⟩, deletedsetFile, inswitchFile, idFile⟩
  split
  · refine runs_removeSnapshotFiles fun disk' unchanged => ?_
    obtain ⟨serverside, pairsFile, inswitchFile, idFile⟩ := finish disk' fun path own => unchanged path (by
      rintro stale
      rcases own with own | unowned
      · have same := Option.some.inj (own.symm.trans stale)
        omega
      · rw [unowned] at stale
        cases stale)
    exact after _ disk' rfl rfl rfl rfl rfl serverside pairsFile inswitchFile idFile
  · rw [runs_pure]
    obtain ⟨serverside, pairsFile, inswitchFile, idFile⟩ := finish _ fun _ _ => rfl
    exact after _ _ rfl rfl rfl rfl rfl serverside pairsFile inswitchFile idFile

/-- What a snapshot period leaves in memory and on disk. -/
structure PeriodDone (wrapper : RocksdbWrapper) (before after : List Write)
    (map : Std.ExtTreeMap Key SnapshotRecord) (updated : RocksdbWrapper) (disk : ServerDisk) : Prop where
  kv : updated.toKvStore = after.foldl apply (before.foldl apply wrapper.toKvStore)
  snapshotid : updated.snapshotid = wrapper.snapshotid + 1
  spPtr : updated.spPtr = some (before.foldl apply wrapper.toKvStore).db
  deletedSet : updated.snapshotDeletedSet.recordsSortedBykey =
    (before.foldl apply wrapper.toKvStore).deletedSet.recordsSortedBykey
  inswitch : updated.inswitchSnapshot = map
  serverside : Serverside disk (wrapper.snapshotid + 1)
  deletedsetFile : disk (.snapshotdeletedset (wrapper.snapshotid + 1)) = .holds wrapper.snapshotDeletedSet.store
  inswitchFile : disk (.inswitchsnapshot (wrapper.snapshotid + 1)) = .holds map.toList
  idFile : disk .snapshotid = .holds (wrapper.snapshotid + 1)

theorem runs_snapshotPeriod (ready : Ready wrapper) (disk : ServerDisk) (before after : List Write)
    (map : Std.ExtTreeMap Key SnapshotRecord) :
    Runs (snapshotPeriod before after map) wrapper disk fun _ => PeriodDone wrapper before after map := by
  unfold snapshotPeriod applyWrites
  simp only [runs_bind, runs_getMemory, runs_modifyMemory]
  refine runs_makeSnapshot { wrapper with toKvStore := before.foldl apply wrapper.toKvStore }
    ready.started ready.idle fun disk' serverside deletedset => ?_
  refine runs_updateSnapshot
    { wrapper with
      toKvStore := after.foldl apply (before.foldl apply wrapper.toKvStore)
      isSnapshot := true
      latestSpPtr := some (before.foldl apply wrapper.toKvStore).db
      latestSnapshotDeletedSet := wrapper.latestSnapshotDeletedSet.assign
        (before.foldl apply wrapper.toKvStore).deletedSet } rfl serverside deletedset
          fun updated disk'' kv id spPtr deletedSet inswitch serverside
    deletedsetFile inswitchFile idFile => ?_
  exact ⟨kv, id, spPtr, deletedSet, inswitch, serverside, deletedsetFile, inswitchFile, idFile⟩

theorem runs_close (wrapper : RocksdbWrapper) (disk : ServerDisk) :
    Runs close wrapper disk fun _ _ disk' => disk' .deletedset = .holds wrapper.deletedSet.store ∧
      ∀ path : Path, path ≠ .deletedset → path ≠ .latestmaxseq → disk' path = disk path := by
  unfold close flushLatestmaxseq
  simp only [runs_bind, runs_getMemory, runs_store, runs_modifyMemory, runs_remove, runs_recreate]
  refine ⟨by simp, fun path notDeletedset notMaxseq => ?_⟩
  simp [Function.update, notDeletedset, notMaxseq]

/-- What `open` brings back after a snapshot period and a clean shutdown. -/
theorem runs_reopen {updated : RocksdbWrapper} {closed : ServerDisk} {before after : List Write}
    (started : 0 ≤ wrapper.snapshotid) (done : PeriodDone wrapper before after map updated disk)
    (deletedset : closed .deletedset = .holds updated.deletedSet.store)
    (unchanged : ∀ path : Path, path ≠ .deletedset → path ≠ .latestmaxseq → closed path = disk path) (maxseq : Nat) :
    Runs (openServer true) (fresh updated.db updated.dbseq maxseq) closed fun _ reopened _ =>
      reopened.snapshotid = wrapper.snapshotid + 1 ∧ reopened.spPtr = none ∧
        reopened.snapshotdbPtr = some (after.foldl apply (before.foldl apply wrapper.toKvStore)).db ∧
        reopened.snapshotDeletedSet.recordsSortedBykey = wrapper.snapshotDeletedSet.recordsSortedBykey ∧
        reopened.inswitchSnapshot = map := by
  have idFile := (unchanged .snapshotid (by decide) (by decide)).trans done.idFile
  have dbseqFile := unchanged (.snapshotdbseq (wrapper.snapshotid + 1)) (by simp) (by simp)
  have maxseqFile := unchanged (.snapshotmaxseq (wrapper.snapshotid + 1)) (by simp) (by simp)
  have deletedsetFile :=
    (unchanged (.snapshotdeletedset (wrapper.snapshotid + 1)) (by simp) (by simp)).trans done.deletedsetFile
  have inswitchFile :=
    (unchanged (.inswitchsnapshot (wrapper.snapshotid + 1)) (by simp) (by simp)).trans done.inswitchFile
  refine (runs_openServer_of_named (by simp [deletedset]) idFile (by omega)
    (by rw [dbseqFile]; exact done.serverside.dbseq) deletedsetFile (by rw [maxseqFile]; exact done.serverside.maxseq)
    inswitchFile updated.db updated.dbseq maxseq).mono ?_
  rintro _ reopened _ ⟨_, _, _, id, _, spPtr, snapshotdbPtr, deletedSet, inswitch⟩
  refine ⟨id, spPtr, ?_, ?_, ?_⟩
  · rw [snapshotdbPtr, done.kv]
  · rw [deletedSet]
    exact DeletedSet.recordsSortedBykey_load_store _ _
  · rw [inswitch]
    exact OrderedMap.foldl_insertIfNew_toList map

/-- What a server that went through a snapshot period shows before and after a restart: the cut is
compared with the tombstones of the previous snapshot and with the database as it is by then. -/
theorem restartKeepsView_iff (ready : Ready wrapper) (disk : ServerDisk) (before after : List Write)
    (map : Std.ExtTreeMap Key SnapshotRecord) (maxseq : Nat) :
    RestartKeepsView wrapper disk before after map maxseq ↔
      wrapper.snapshotDeletedSet.recordsSortedBykey =
          (before.foldl apply wrapper.toKvStore).deletedSet.recordsSortedBykey ∧
        ∀ startkey endkey,
          scanSnapshot (after.foldl apply (before.foldl apply wrapper.toKvStore)).db
              wrapper.snapshotDeletedSet.recordsSortedBykey map startkey endkey =
            scanSnapshot (before.foldl apply wrapper.toKvStore).db
              (before.foldl apply wrapper.toKvStore).deletedSet.recordsSortedBykey map startkey endkey := by
  unfold RestartKeepsView
  refine runs_iff_of_runs (runs_snapshotPeriod ready disk before after map) fun _ updated disk done => ?_
  refine runs_iff_of_runs (runs_close updated disk) fun _ _ closed closing => ?_
  refine runs_iff_of_runs (runs_reopen ready.started done closing.1 closing.2 maxseq) ?_
  rintro _ reopened _ ⟨id, spPtr, snapshotdbPtr, deletedSet, inswitch⟩
  constructor
  · rintro ⟨_, sameDeletedSet, _, scans⟩
    refine ⟨by rw [← deletedSet, ← done.deletedSet, sameDeletedSet], fun startkey endkey => ?_⟩
    have scan := scans startkey endkey
    simpa [rangeScan, spPtr, snapshotdbPtr, deletedSet, inswitch, done.spPtr, done.deletedSet, done.inswitch]
      using scan
  · rintro ⟨sameDeletedSet, scans⟩
    refine ⟨by rw [id, done.snapshotid], by rw [deletedSet, done.deletedSet, sameDeletedSet],
      by rw [inswitch, done.inswitch], fun startkey endkey => ?_⟩
    simpa [rangeScan, spPtr, snapshotdbPtr, deletedSet, inswitch, done.spPtr, done.deletedSet, done.inswitch]
      using scans startkey endkey

/-- A restart keeps the snapshot view, whatever the in-switch snapshot, exactly when the tombstones at
the cut are those of the previous snapshot and the writes after the cut leave the database unchanged. -/
theorem restart_keeps_snapshot_view {wrapper : RocksdbWrapper} (ready : Ready wrapper) (disk : ServerDisk)
    (before after : List Write) (maxseq : Nat) :
    (∀ map, RestartKeepsView wrapper disk before after map maxseq) ↔ CutPersisted wrapper before after := by
  have disjoint := ready.disjoint.history before
  constructor
  · intro keeps
    obtain ⟨tombstones, scans⟩ := (restartKeepsView_iff ready disk before after ∅ maxseq).mp (keeps ∅)
    rw [tombstones] at scans
    refine ⟨tombstones.symm, (eq_of_scanSnapshot_eq disjoint fun startkey endkey => ?_).symm⟩
    exact (scans startkey endkey).symm
  · rintro ⟨tombstones, database⟩ map
    refine (restartKeepsView_iff ready disk before after map maxseq).mpr ⟨tombstones.symm, fun startkey endkey => ?_⟩
    rw [database, tombstones]

def initialised : RocksdbWrapper := { fresh ∅ 0 0 with snapshotid := 0, spPtr := some ∅ }

theorem initialised_ready : Ready initialised := ⟨by decide, rfl, fun _ => Or.inr (by simp [KvStore.cell,
  initialised, fresh, DeletedSet.tombstone, DeletedSet.new])⟩

theorem restart_keeps_view_after_put :
    RestartKeepsView initialised (fun _ => .missing) [.put ⟨1, 0, 0, 0⟩ [7] 1 false] [] ∅ 0 :=
  (restart_keeps_snapshot_view initialised_ready (fun _ => .missing) [.put ⟨1, 0, 0, 0⟩ [7] 1 false] [] 0).mpr
    ⟨rfl, rfl⟩ ∅

/-- A key is deleted before the cut. The file of the new snapshot gets the empty tombstone set of the
old one, so the restart loses the tombstone. -/
theorem restart_loses_tombstone :
    ¬ RestartKeepsView initialised (fun _ => .missing) [.remove ⟨1, 0, 0, 0⟩ 2 false] [] ∅ 0 := by
  intro keeps
  have tombstones := ((restartKeepsView_iff initialised_ready _ _ _ ∅ 0).mp keeps).1
  have lookup := congrArg (fun set : Std.ExtTreeMap Key Nat => set[(⟨1, 0, 0, 0⟩ : Key)]?) tombstones
  revert lookup
  decide

end FarReach
