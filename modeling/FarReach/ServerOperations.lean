import FarReach.SnapshotCrash
import FarReach.History

namespace FarReach

open Crash Crash.Program Versioned Function

/-- `force_put`: the loading phase writes with sequence number 0 and looks at no tombstone. -/
def KvStore.forcePut (kv : KvStore) (key : Key) (val : Val) : KvStore :=
  { kv with db := kv.db.insert key (val, 0), dbseq := kv.dbseq + 1 }

def KvStore.forceMultiput (kv : KvStore) (pairs : List (Key × Val)) : KvStore :=
  pairs.foldl (fun kv pair => kv.forcePut pair.1 pair.2) kv

namespace RocksdbWrapper

def forcePut (key : Key) (val : Val) : ServerM Bool := do
  modifyMemory fun wrapper => { wrapper with toKvStore := wrapper.toKvStore.forcePut key val }
  pure true

def forceMultiput (pairs : List (Key × Val)) : ServerM Bool := do
  modifyMemory fun wrapper => { wrapper with toKvStore := wrapper.toKvStore.forceMultiput pairs }
  pure true

def get (key : Key) : ServerM SnapshotRecord := do
  let wrapper ← getMemory
  modifyMemory fun wrapper => { wrapper with toKvStore := (wrapper.toKvStore.get key).2 }
  pure (wrapper.toKvStore.get key).1

def reopen (maxseq : Nat) : ServerM Bool := do
  close
  modifyMemory fun wrapper => fresh wrapper.db wrapper.dbseq maxseq
  openServer true

end RocksdbWrapper

/-- What a server process is asked to do over its life. `maxseq` is what the constructor of the new
process finds in the uninitialised member. -/
inductive Operation where
  | forcePut (key : Key) (val : Val)
  | forceMultiput (pairs : List (Key × Val))
  | get (key : Key)
  | call (request : Call)
  | flushLatestmaxseq
  | reopen (maxseq : Nat)

def Operation.run : Operation → ServerM Unit
  | forcePut key val => do
    let _ ← RocksdbWrapper.forcePut key val
    pure ()
  | forceMultiput pairs => do
    let _ ← RocksdbWrapper.forceMultiput pairs
    pure ()
  | get key => do
    let _ ← RocksdbWrapper.get key
    pure ()
  | call request => request.run
  | flushLatestmaxseq => RocksdbWrapper.flushLatestmaxseq
  | reopen maxseq => do
    let _ ← RocksdbWrapper.reopen maxseq
    pure ()

/-- The server behind an operation; a failed assertion ends the process. -/
def Server.perform (server : Server) (operation : Operation) : Option Server :=
  (operation.run server.wrapper server.disk).result.map fun final => ⟨final.2.1, final.2.2⟩

/-- The current snapshot as `clean_snapshot` sees it, having called `init_snapshot` first. -/
def Server.startedId (server : Server) : Int :=
  if server.wrapper.snapshotid = -1 ∧ server.wrapper.isSnapshot = false then 0 else server.wrapper.snapshotid

/-- The snapshot whose files a call reloads: a rollback the one before the current snapshot, an update
that finds no latest snapshot in memory the new one. -/
def Server.reloadedByCall (server : Server) : Call → Option Int
  | .cleanSnapshot tmpsnapshotid =>
    if tmpsnapshotid = server.startedId then some (server.startedId - 1) else none
  | .updateSnapshot _ _ =>
    if server.wrapper.latestSpPtr.isNone then some (server.wrapper.snapshotid + 1) else none
  | _ => none

/-- The snapshot whose files an operation reloads; a reopened server reloads the one its id file
names. -/
def Server.reloadedId (server : Server) : Operation → Option Int
  | .call request => server.reloadedByCall request
  | .reopen _ =>
    match server.disk .snapshotid with
    | .holds id => some id
    | _ => none
  | _ => none

theorem Server.perform_of_wp {server after : Server} {operation : Operation}
    {post : RocksdbWrapper → ServerDisk → Prop} (spec : wp operation.run server.wrapper server.disk (fun _ => post)
      (fun _ => True))
    (performed : server.perform operation = some after) : post after.wrapper after.disk := by
  unfold Server.perform at performed
  obtain ⟨⟨value, wrapper, disk⟩, ran, rfl⟩ := Option.map_eq_some_iff.mp performed
  exact spec.2 value wrapper disk ran

namespace RocksdbWrapper

/-- The value `load_maxseq` leaves in the member. -/
def LoadsMaxseq (file : File Nat) (before after : Nat) : Prop :=
  file = .holds after ∨ (file = .empty ∧ after = before)

def reloaded (wrapper : RocksdbWrapper) (pairs : List (Key × Nat)) (maxseq : Nat) : RocksdbWrapper :=
  { wrapper with
    maxseq := maxseq
    spPtr := none
    snapshotdbPtr := some wrapper.db
    snapshotDeletedSet := wrapper.snapshotDeletedSet.load pairs }

section Specs

variable {wrapper : RocksdbWrapper} {disk : ServerDisk} {post : Unit → RocksdbWrapper → ServerDisk → Prop}

theorem wp_reload_serverside {id : Int}
    (after : ∀ pairs maxseq, disk (.snapshotdeletedset id) = .holds pairs →
      LoadsMaxseq (disk (.snapshotmaxseq id)) wrapper.maxseq maxseq → post () (wrapper.reloaded pairs maxseq) disk) :
    wp (loadServersideSnapshotFiles id) wrapper disk post (fun _ => True) := by
  unfold loadServersideSnapshotFiles createSnapshotdbCheckpoint
  simp only [wp_bind, wp_getDisk, wp_check, wp_getMemory, wp_modifyMemory, wp_pure]
  intro _ _
  unfold loadDeletedSet loadMaxseq
  cases deletedset : disk (.snapshotdeletedset id) with
  | missing => simp
  | empty => simp
  | holds pairs =>
    simp only [wp_modifyMemory]
    cases found : disk (.snapshotmaxseq id) with
    | missing => simp
    | empty =>
      rw [wp_pure]
      exact after pairs wrapper.maxseq deletedset (Or.inr ⟨found, rfl⟩)
    | holds maxseq =>
      rw [wp_modifyMemory]
      exact after pairs maxseq deletedset (Or.inl found)

theorem wp_reload {id : Int}
    (after : ∀ pairs maxseq inswitchSnapshot, disk (.snapshotdeletedset id) = .holds pairs →
      LoadsMaxseq (disk (.snapshotmaxseq id)) wrapper.maxseq maxseq →
      post () { wrapper.reloaded pairs maxseq with inswitchSnapshot := inswitchSnapshot } disk) :
    wp (loadSnapshotFiles id) wrapper disk post (fun _ => True) := by
  unfold loadSnapshotFiles loadInswitchSnapshot
  rw [wp_bind]
  refine wp_reload_serverside fun pairs maxseq deletedset loads => ?_
  rw [wp_bind, wp_getDisk]
  cases disk (.inswitchsnapshot id) with
  | missing =>
    rw [wp_pure]
    exact after pairs maxseq wrapper.inswitchSnapshot deletedset loads
  | empty => simp
  | holds records =>
    rw [wp_modifyMemory]
    exact after pairs maxseq _ deletedset loads

def initialDisk (wrapper : RocksdbWrapper) (disk : ServerDisk) : ServerDisk :=
  update
    (update
      (update (update disk (.snapshotdbseq 0) (.holds wrapper.dbseq)) (.snapshotdeletedset 0)
        (.holds wrapper.snapshotDeletedSet.store))
      (.snapshotmaxseq 0) (.holds wrapper.maxseq))
    (.inswitchsnapshot 0) (.holds wrapper.inswitchSnapshot.toList)

/-- `init_snapshot` does nothing, or takes the first snapshot with no tombstones at all. -/
theorem wp_init (idle : wrapper.snapshotid ≠ -1 ∨ wrapper.isSnapshot = true → post () wrapper disk)
    (starts : wrapper.snapshotid = -1 → wrapper.isSnapshot = false → wrapper.snapshotDeletedSet.size = 0 →
      wrapper.latestSpPtr = none →
      post () { wrapper with isSnapshot := false, spPtr := some wrapper.db, snapshotid := 0 }
        (initialDisk wrapper disk)) :
    wp initSnapshot wrapper disk post (fun _ => True) := by
  unfold initSnapshot storeInswitchSnapshot
  rw [wp_bind, wp_getMemory, wp_ite]
  split
  · rename_i started
    rw [wp_pure]
    exact idle (Or.inl started)
  · rename_i unstarted
    rw [wp_ite]
    split
    · rename_i busy
      rw [wp_pure]
      exact idle (Or.inr busy)
    · rename_i free
      simp only [wp_bind, wp_modifyMemory, wp_check, wp_store, wp_recreate, wp_getMemory, implies_true, true_and]
      intro _ noTombstones _ noLatest _
      exact starts (by simpa using unstarted) (by simpa using free) (by simpa using noTombstones)
        (by simpa using noLatest)

def withoutSnapshot (disk : ServerDisk) (id : Int) : ServerDisk :=
  update
    (update (update (update disk (.snapshotdbseq id) .missing) (.snapshotdeletedset id)
      .missing) (.snapshotmaxseq id) .missing)
    (.inswitchsnapshot id) .missing

theorem wp_withoutSnapshot {id : Int} (after : post () wrapper (withoutSnapshot disk id)) :
    wp (removeSnapshotFiles id) wrapper disk post (fun _ => True) := by
  unfold removeSnapshotFiles
  simp only [wp_bind, wp_remove, true_and]
  exact after

/-- `clean_snapshot` of the next snapshot forgets the latest one; of the current snapshot, it reloads
the one before. -/
theorem wp_cleaned {tmpsnapshotid : Int}
    (forgets : tmpsnapshotid = wrapper.snapshotid + 1 →
      post () { wrapper with latestSpPtr := none, latestSnapshotDeletedSet := wrapper.latestSnapshotDeletedSet.clear }
        (withoutSnapshot disk tmpsnapshotid))
    (rollsBack : tmpsnapshotid = wrapper.snapshotid → ∀ pairs maxseq inswitchSnapshot,
      disk (.snapshotdeletedset (wrapper.snapshotid - 1)) = .holds pairs →
      LoadsMaxseq (disk (.snapshotmaxseq (wrapper.snapshotid - 1))) wrapper.maxseq maxseq →
      post () { wrapper with
          maxseq := maxseq
          spPtr := none
          snapshotdbPtr := some wrapper.db
          snapshotDeletedSet := wrapper.snapshotDeletedSet.clear.load pairs
          inswitchSnapshot := inswitchSnapshot
          latestSpPtr := none
          latestSnapshotDeletedSet := wrapper.latestSnapshotDeletedSet.clear
          snapshotid := wrapper.snapshotid - 1 }
        (withoutSnapshot disk tmpsnapshotid)) :
    wp (cleanStarted tmpsnapshotid) wrapper disk post (fun _ => True) := by
  unfold cleanStarted rollBack
  simp only [wp_bind, wp_getMemory, wp_check]
  intro named
  refine wp_withoutSnapshot ?_
  rw [wp_modifyMemory, wp_ite]
  split
  · rename_i current
    simp only [wp_bind, wp_getMemory, wp_modifyMemory]
    refine wp_reload fun pairs maxseq inswitchSnapshot deletedset loads => ?_
    have apart : wrapper.snapshotid - 1 ≠ tmpsnapshotid := by omega
    simp only [withoutSnapshot, update, Path.snapshotdeletedset.injEq, Path.snapshotmaxseq.injEq, apart,
      reduceCtorEq, dite_false] at deletedset loads
    exact rollsBack current pairs maxseq inswitchSnapshot deletedset loads
  · rename_i other
    rw [wp_pure]
    refine forgets ?_
    simpa [other] using named

/-- `clean_snapshot` starts the first snapshot if there is none. -/
theorem wp_clean {tmpsnapshotid : Int}
    (started : Server.startedId ⟨wrapper, disk⟩ = wrapper.snapshotid →
      wp (cleanStarted tmpsnapshotid) wrapper disk post (fun _ => True))
    (starts : Server.startedId ⟨wrapper, disk⟩ = 0 → wrapper.snapshotDeletedSet.size = 0 →
      wp (cleanStarted tmpsnapshotid)
        { wrapper with isSnapshot := false, spPtr := some wrapper.db, snapshotid := 0 } (initialDisk wrapper disk)
        post (fun _ => True)) :
    wp (cleanSnapshot tmpsnapshotid) wrapper disk post (fun _ => True) := by
  unfold cleanSnapshot
  rw [wp_bind, wp_getMemory, wp_bind, wp_ite]
  split
  · rename_i unstarted
    refine wp_init ?_ ?_
    · intro busy
      have notIdle : ¬ (wrapper.snapshotid = -1 ∧ wrapper.isSnapshot = false) := by grind
      exact started (if_neg notIdle)
    · intro _ idle noTombstones _
      exact starts (if_pos ⟨unstarted, idle⟩) noTombstones
  · rename_i running
    rw [wp_pure]
    exact started (if_neg fun both => running both.1)

def madeDisk (wrapper : RocksdbWrapper) (disk : ServerDisk) : ServerDisk :=
  update
    (update (update disk (.snapshotdbseq (wrapper.snapshotid + 1)) (.holds wrapper.dbseq))
      (.snapshotdeletedset (wrapper.snapshotid + 1)) (.holds wrapper.snapshotDeletedSet.store))
    (.snapshotmaxseq (wrapper.snapshotid + 1)) (.holds wrapper.maxseq)

theorem wp_made {tmpsnapshotid : Int} {post : Bool → RocksdbWrapper → ServerDisk → Prop}
    (idle : post false wrapper disk)
    (makes : post true { wrapper with
        isSnapshot := true
        latestSpPtr := some wrapper.db
        latestSnapshotDeletedSet := wrapper.latestSnapshotDeletedSet.assign wrapper.deletedSet }
      (madeDisk wrapper disk)) :
    wp (makeSnapshot tmpsnapshotid) wrapper disk post (fun _ => True) := by
  unfold makeSnapshot claimSnapshot takeSnapshot
  simp only [wp_bind, wp_check, wp_getMemory, wp_ite, wp_pure, wp_modifyMemory, wp_store, wp_recreate, implies_true,
    true_and, Bool.false_eq_true, if_false, if_true]
  intro _
  split
  · exact idle
  · split
    · exact idle
    · exact makes

/-- What `update_snapshot` writes: the in-switch part and the id of the new snapshot; the files of the
snapshot before the previous one go. -/
def updatedDisk (disk : ServerDisk) (records : List (Key × SnapshotRecord)) (id : Int) : ServerDisk :=
  let stored := update (update disk (.inswitchsnapshot id) (.holds records)) .snapshotid (.holds id)
  if id ≥ 2 then withoutSnapshot stored (id - 2) else stored

def updated (wrapper : RocksdbWrapper) (tmpInswitchSnapshot : Std.ExtTreeMap Key SnapshotRecord) (id : Int) :
    RocksdbWrapper :=
  { wrapper with
    latestSpPtr := none
    latestSnapshotDeletedSet := wrapper.latestSnapshotDeletedSet.clear
    inswitchSnapshot := tmpInswitchSnapshot
    snapshotid := id }

/-- `update_snapshot` takes over the latest snapshot, or reloads it from its files. -/
theorem wp_updated {map : Std.ExtTreeMap Key SnapshotRecord} {tmpsnapshotid : Int}
    (adopts : ∀ latest, wrapper.latestSpPtr = some latest →
      post () (updated { wrapper with
          spPtr := some latest
          snapshotDeletedSet := wrapper.snapshotDeletedSet.clear.assign wrapper.latestSnapshotDeletedSet }
          map (wrapper.snapshotid + 1))
        (updatedDisk disk map.toList (wrapper.snapshotid + 1)))
    (reloads : wrapper.latestSpPtr = none → ∀ pairs maxseq,
      disk (.snapshotdeletedset (wrapper.snapshotid + 1)) = .holds pairs →
      LoadsMaxseq (disk (.snapshotmaxseq (wrapper.snapshotid + 1))) wrapper.maxseq maxseq →
      post () (updated { wrapper with
          maxseq := maxseq
          spPtr := none
          snapshotdbPtr := some wrapper.db
          snapshotDeletedSet := wrapper.snapshotDeletedSet.clear.load pairs } map (wrapper.snapshotid + 1))
        (updatedDisk disk map.toList (wrapper.snapshotid + 1))) :
    wp (updateSnapshot map tmpsnapshotid) wrapper disk post (fun _ => True) := by
  have stores : ∀ wrapper' : RocksdbWrapper,
      post () (updated wrapper' map (wrapper.snapshotid + 1))
        (updatedDisk disk map.toList (wrapper.snapshotid + 1)) → wrapper'.snapshotid = wrapper.snapshotid →
      wp (do
        modifyMemory fun wrapper =>
          { wrapper with
            latestSpPtr := none
            latestSnapshotDeletedSet := wrapper.latestSnapshotDeletedSet.clear
            inswitchSnapshot := map
            snapshotid := wrapper.snapshotid + 1 }
        storeInswitchSnapshot (wrapper.snapshotid + 1)
        store .snapshotid (wrapper.snapshotid + 1)
        if wrapper.snapshotid + 1 ≥ 2 then removeSnapshotFiles (wrapper.snapshotid + 1 - 2)
          else pure () : ServerM Unit)
        wrapper' disk post (fun _ => True) := by
    intro wrapper' after sameId
    unfold storeInswitchSnapshot
    simp only [wp_bind, wp_modifyMemory, wp_getMemory, wp_store, true_and, wp_ite, wp_pure, sameId]
    unfold updatedDisk at after
    dsimp only at after
    split
    · rename_i later
      rw [if_pos later] at after
      exact wp_withoutSnapshot after
    · rename_i early
      rw [if_neg early] at after
      exact after
  unfold updateSnapshot
  rw [wp_bind, wp_getMemory, wp_bind, wp_check]
  intro _
  rw [wp_bind, wp_modifyMemory, wp_bind]
  unfold adoptServerside
  rw [wp_bind, wp_getMemory]
  cases made : wrapper.latestSpPtr with
  | some latest =>
    dsimp only
    rw [wp_modifyMemory]
    exact stores _ (adopts latest made) rfl
  | none =>
    refine wp_reload_serverside fun pairs maxseq deletedset loads => ?_
    exact stores _ (reloads made pairs maxseq deletedset loads) rfl

end Specs

def closedDisk (wrapper : RocksdbWrapper) (disk : ServerDisk) : ServerDisk :=
  update (update (update disk .latestmaxseq (.holds wrapper.maxseq)) .deletedset .missing)
    .deletedset (.holds wrapper.deletedSet.store)

def flushedMaxseq (disk : ServerDisk) : Nat :=
  match disk .latestmaxseq with
  | .holds maxseq => maxseq
  | _ => 0

/-- `open` leaves the disk alone, keeps the database, and takes over the tombstones of the last clean
shutdown. Without an id file there is no snapshot; with one, that snapshot is reloaded. -/
theorem wp_open {db : Database} {dbseq maxseq : Nat} {disk : ServerDisk}
    {post : Bool → RocksdbWrapper → ServerDisk → Prop}
    (unnamed : disk .snapshotid = .missing → ∀ wrapper : RocksdbWrapper, wrapper.db = db →
      wrapper.deletedSet = reopenedDeletedSet (disk .deletedset) → wrapper.spPtr = none →
      wrapper.snapshotdbPtr = none → wrapper.latestSpPtr = none →
      wrapper.maxseq = max (flushedMaxseq disk) maxseq → post true wrapper disk)
    (named : ∀ id pairs loaded, disk .snapshotid = .holds id → disk (.snapshotdeletedset id) = .holds pairs →
      LoadsMaxseq (disk (.snapshotmaxseq id)) maxseq loaded → ∀ wrapper : RocksdbWrapper, wrapper.db = db →
      wrapper.deletedSet = reopenedDeletedSet (disk .deletedset) → wrapper.spPtr = none →
      wrapper.snapshotdbPtr = some db → wrapper.snapshotDeletedSet = (DeletedSet.new 10 100).load pairs →
      wrapper.latestSpPtr = none → wrapper.maxseq = max (flushedMaxseq disk) loaded → post true wrapper disk) :
    wp (openServer true) (fresh db dbseq maxseq) disk post (fun _ => True) := by
  have raises : ∀ value : Nat,
      (if (match disk .latestmaxseq with | .holds maxseq => maxseq | _ => 0) > value then
        (match disk .latestmaxseq with | .holds maxseq => maxseq | _ => 0) else value) =
      max (flushedMaxseq disk) value := by
    intro value
    change (if flushedMaxseq disk > value then flushedMaxseq disk else value) = _
    split <;> omega
  unfold openServer openSnapshot openMaxseq
  rw [wp_bind]
  refine wp_openDeletedSet ?_
  simp only [wp_bind, wp_getDisk, wp_getMemory, wp_ite]
  cases idFile : disk .snapshotid with
  | missing =>
    simp only [File.exists_missing, Bool.false_eq_true, if_false, wp_modifyMemory, wp_pure]
    exact unnamed idFile _ rfl rfl rfl rfl rfl (raises maxseq)
  | empty =>
    simp only [File.exists_empty, if_true, wp_check]
    intro nonneg
    simp [fresh] at nonneg
  | holds id =>
    simp only [File.exists_holds, if_true, wp_check, wp_modifyMemory]
    intro _
    refine wp_reload fun pairs loaded inswitchSnapshot deletedset loads => ?_
    simp only [wp_pure]
    exact named id pairs loaded idFile deletedset loads _ rfl rfl rfl rfl rfl rfl (raises loaded)

end RocksdbWrapper

end FarReach
