import FarReach.KvStore
import FarReach.CrashProgram

namespace FarReach

open Crash Crash.Program

/-- The files one server keeps, without the method and worker parts of their names. -/
inductive Path where
  | deletedset
  | latestmaxseq
  | snapshotid
  | snapshotdbseq (id : Int)
  | snapshotdeletedset (id : Int)
  | snapshotmaxseq (id : Int)
  | inswitchsnapshot (id : Int)
  deriving DecidableEq, Repr

/-- What each file holds, as the records its reader decodes. -/
@[reducible] def Path.Content : Path → Type
  | deletedset => List (Key × Nat)
  | latestmaxseq => Nat
  | snapshotid => Int
  | snapshotdbseq _ => Nat
  | snapshotdeletedset _ => List (Key × Nat)
  | snapshotmaxseq _ => Nat
  | inswitchsnapshot _ => List (Key × SnapshotRecord)

abbrev ServerDisk := Disk Path Path.Content

/-- `RocksdbWrapper`. A RocksDB snapshot or checkpoint is the database contents it froze. -/
structure RocksdbWrapper extends KvStore where
  snapshotid : Int
  spPtr : Option Database
  snapshotdbPtr : Option Database
  snapshotDeletedSet : DeletedSet
  inswitchSnapshot : Std.ExtTreeMap Key SnapshotRecord
  isSnapshot : Bool
  latestSpPtr : Option Database
  latestSnapshotDeletedSet : DeletedSet

abbrev ServerM := Program RocksdbWrapper ServerDisk

namespace RocksdbWrapper

/-- A constructed wrapper over the contents of the database directory. `maxseq` is not initialised. -/
def fresh (db : Database) (dbseq maxseq : Nat) : RocksdbWrapper where
  db := db
  dbseq := dbseq
  deletedSet := DeletedSet.new 10 100
  maxseq := maxseq
  snapshotid := -1
  spPtr := none
  snapshotdbPtr := none
  snapshotDeletedSet := DeletedSet.new 10 100
  inswitchSnapshot := ∅
  isSnapshot := false
  latestSpPtr := none
  latestSnapshotDeletedSet := DeletedSet.new 10 100

def put (key : Key) (val : Val) (seq : Nat) (checkseq : Bool) : ServerM Unit :=
  modifyMemory fun wrapper => { wrapper with toKvStore := (wrapper.toKvStore.put key val seq checkseq).2 }

def remove (key : Key) (seq : Nat) (checkseq : Bool) : ServerM Unit :=
  modifyMemory fun wrapper => { wrapper with toKvStore := (wrapper.toKvStore.remove key seq checkseq).2 }

def storeInswitchSnapshot (id : Int) : ServerM Unit := do
  let wrapper ← getMemory
  store (.inswitchsnapshot id) wrapper.inswitchSnapshot.toList

def removeSnapshotFiles (id : Int) : ServerM Unit := do
  Program.remove (.snapshotdbseq id)
  Program.remove (.snapshotdeletedset id)
  Program.remove (.snapshotmaxseq id)
  Program.remove (.inswitchsnapshot id)

/-- `create_snapshotdb_checkpoint`: the checkpoint copies the database as it is now. The sequence
number passed in is only overwritten with the one the checkpoint reports, which is returned here. -/
def createSnapshotdbCheckpoint (_snapshotdbseq : Nat) : ServerM Nat := do
  let wrapper ← getMemory
  modifyMemory fun wrapper => { wrapper with snapshotdbPtr := some wrapper.db }
  pure wrapper.dbseq

/-- `DeletedSet::load` of a file that exists; an empty file fails the check on its size. -/
def loadDeletedSet (file : File (List (Key × Nat))) (install : List (Key × Nat) → RocksdbWrapper → RocksdbWrapper) :
    ServerM Unit :=
  match file with
  | .holds pairs => modifyMemory (install pairs)
  | _ => abort

/-- `load_maxseq`: reading a missing file crashes, reading an empty one leaves the member alone. -/
def loadMaxseq (file : File Nat) : ServerM Unit :=
  match file with
  | .missing => abort
  | .empty => pure ()
  | .holds maxseq => modifyMemory fun wrapper => { wrapper with maxseq := maxseq }

def loadServersideSnapshotFiles (id : Int) : ServerM Unit := do
  let disk ← getDisk
  check (disk (.snapshotdbseq id)).exists
  let snapshotdbseq : Nat := match disk (.snapshotdbseq id) with
    | .holds dbseq => dbseq
    | _ => 0
  let _ ← createSnapshotdbCheckpoint snapshotdbseq
  modifyMemory fun wrapper => { wrapper with spPtr := none }
  check (disk (.snapshotdeletedset id)).exists
  loadDeletedSet (disk (.snapshotdeletedset id)) fun pairs wrapper =>
    { wrapper with snapshotDeletedSet := wrapper.snapshotDeletedSet.load pairs }
  loadMaxseq (disk (.snapshotmaxseq id))

/-- `load_inswitch_snapshot`: a missing file is reported and skipped, an empty one cannot be mapped. -/
def loadInswitchSnapshot (id : Int) : ServerM Unit := do
  let disk ← getDisk
  match disk (.inswitchsnapshot id) with
  | .missing => pure ()
  | .empty => abort
  | .holds records => modifyMemory fun wrapper =>
    { wrapper with
      inswitchSnapshot := records.foldl (fun map record => map.insertIfNew record.1 record.2) ∅ }

def loadSnapshotFiles (id : Int) : ServerM Unit := do
  loadServersideSnapshotFiles id
  loadInswitchSnapshot id

def initSnapshot : ServerM Unit := do
  let wrapper ← getMemory
  if wrapper.snapshotid ≠ -1 then pure ()
  else if wrapper.isSnapshot then pure ()
  else do
    modifyMemory fun wrapper => { wrapper with isSnapshot := true, spPtr := some wrapper.db }
    check wrapper.snapshotdbPtr.isNone
    check (wrapper.snapshotDeletedSet.size == 0)
    check (wrapper.inswitchSnapshot.size == 0)
    check wrapper.latestSpPtr.isNone
    check (wrapper.latestSnapshotDeletedSet.size == 0)
    modifyMemory fun wrapper => { wrapper with snapshotid := 0 }
    store (.snapshotdbseq 0) wrapper.dbseq
    recreate (.snapshotdeletedset 0) wrapper.snapshotDeletedSet.store
    store (.snapshotmaxseq 0) wrapper.maxseq
    storeInswitchSnapshot 0
    modifyMemory fun wrapper => { wrapper with isSnapshot := false }

/-- The rare case of `clean_snapshot`: back to the snapshot before the current one. -/
def rollBack : ServerM Unit := do
  let wrapper ← getMemory
  modifyMemory fun wrapper =>
    { wrapper with
      spPtr := none
      snapshotDeletedSet := wrapper.snapshotDeletedSet.clear
      inswitchSnapshot := ∅ }
  loadSnapshotFiles (wrapper.snapshotid - 1)
  modifyMemory fun wrapper => { wrapper with snapshotid := wrapper.snapshotid - 1 }

/-- `clean_snapshot` once there is a snapshot id. -/
def cleanStarted (tmpsnapshotid : Int) : ServerM Unit := do
  let wrapper ← getMemory
  check (tmpsnapshotid == wrapper.snapshotid || tmpsnapshotid == wrapper.snapshotid + 1)
  removeSnapshotFiles tmpsnapshotid
  modifyMemory fun wrapper =>
    { wrapper with
      latestSpPtr := none
      latestSnapshotDeletedSet := wrapper.latestSnapshotDeletedSet.clear }
  if tmpsnapshotid = wrapper.snapshotid then rollBack else pure ()

def cleanSnapshot (tmpsnapshotid : Int) : ServerM Unit := do
  let wrapper ← getMemory
  (if wrapper.snapshotid = -1 then initSnapshot else pure ())
  cleanStarted tmpsnapshotid

/-- `make_snapshot` up to its `test_and_set`, which no lock protects. -/
def claimSnapshot (tmpsnapshotid : Int) : ServerM Bool := do
  check (0 ≤ tmpsnapshotid)
  let wrapper ← getMemory
  if wrapper.snapshotid = -1 then pure false
  else if wrapper.isSnapshot then pure false
  else do
    modifyMemory fun wrapper => { wrapper with isSnapshot := true }
    pure true

/-- The rest of `make_snapshot`: `GetSnapshot` and the copy of the deleted set under the lock, then the files. The
file of the new snapshot id gets `snapshot_deleted_set`. -/
def takeSnapshot : ServerM Unit := do
  let wrapper ← getMemory
  modifyMemory fun wrapper =>
    { wrapper with
      latestSpPtr := some wrapper.db
      latestSnapshotDeletedSet := wrapper.latestSnapshotDeletedSet.assign wrapper.deletedSet }
  store (.snapshotdbseq (wrapper.snapshotid + 1)) wrapper.dbseq
  recreate (.snapshotdeletedset (wrapper.snapshotid + 1)) wrapper.snapshotDeletedSet.store
  store (.snapshotmaxseq (wrapper.snapshotid + 1)) wrapper.maxseq

def makeSnapshot (tmpsnapshotid : Int) : ServerM Bool := do
  let claimed ← claimSnapshot tmpsnapshotid
  if claimed then do
    takeSnapshot
    pure true
  else pure false

/-- `update_snapshot` takes over the latest server-side snapshot, or reloads it from its files. -/
def adoptServerside : ServerM Unit := do
  let wrapper ← getMemory
  match wrapper.latestSpPtr with
  | some latest => modifyMemory fun wrapper =>
    { wrapper with
      spPtr := some latest
      snapshotDeletedSet := wrapper.snapshotDeletedSet.assign wrapper.latestSnapshotDeletedSet }
  | none => loadServersideSnapshotFiles (wrapper.snapshotid + 1)

def updateSnapshot (tmpInswitchSnapshot : Std.ExtTreeMap Key SnapshotRecord) (tmpsnapshotid : Int) :
    ServerM Unit := do
  let wrapper ← getMemory
  check (tmpsnapshotid == wrapper.snapshotid + 1)
  modifyMemory fun wrapper =>
    { wrapper with
      spPtr := none
      snapshotDeletedSet := wrapper.snapshotDeletedSet.clear
      inswitchSnapshot := ∅ }
  adoptServerside
  modifyMemory fun wrapper =>
    { wrapper with
      latestSpPtr := none
      latestSnapshotDeletedSet := wrapper.latestSnapshotDeletedSet.clear
      inswitchSnapshot := tmpInswitchSnapshot
      snapshotid := wrapper.snapshotid + 1 }
  storeInswitchSnapshot (wrapper.snapshotid + 1)
  store .snapshotid (wrapper.snapshotid + 1)
  if wrapper.snapshotid + 1 ≥ 2 then removeSnapshotFiles (wrapper.snapshotid + 1 - 2) else pure ()

def stopSnapshot : ServerM Unit := modifyMemory fun wrapper => { wrapper with isSnapshot := false }

def flushLatestmaxseq : ServerM Unit := do
  let wrapper ← getMemory
  store .latestmaxseq wrapper.maxseq

/-- The first part of `open`: the runtime tombstones of the last clean shutdown. -/
def openDeletedSet (isRuntimeExisting : Bool) : ServerM Unit := do
  let disk ← getDisk
  if isRuntimeExisting && (disk .deletedset).exists then
    loadDeletedSet (disk .deletedset) fun pairs wrapper =>
      { wrapper with deletedSet := wrapper.deletedSet.load pairs }
  else modifyMemory fun wrapper => { wrapper with deletedSet := wrapper.deletedSet.clear }

/-- The second part of `open`: the snapshot the id file names. -/
def openSnapshot : ServerM Unit := do
  let disk ← getDisk
  let wrapper ← getMemory
  if (disk .snapshotid).exists then do
    -- `fread` of an empty file leaves the member as the constructor set it
    let snapshotid : Int := match disk .snapshotid with
      | .holds id => id
      | _ => wrapper.snapshotid
    check (0 ≤ snapshotid)
    modifyMemory fun wrapper => { wrapper with snapshotid := snapshotid }
    loadSnapshotFiles snapshotid
    modifyMemory fun wrapper => { wrapper with latestSpPtr := none }
  else modifyMemory fun wrapper =>
    { wrapper with
      snapshotid := -1
      snapshotdbPtr := none
      snapshotDeletedSet := wrapper.snapshotDeletedSet.clear
      inswitchSnapshot := ∅
      spPtr := none
      latestSpPtr := none
      latestSnapshotDeletedSet := wrapper.latestSnapshotDeletedSet.clear }

/-- The last part of `open`: `maxseq` is raised to the flushed one. -/
def openMaxseq : ServerM Unit := do
  let disk ← getDisk
  let tmpmaxseq : Nat := match disk .latestmaxseq with
    | .holds maxseq => maxseq
    | _ => 0
  modifyMemory fun wrapper =>
    { wrapper with maxseq := if tmpmaxseq > wrapper.maxseq then tmpmaxseq else wrapper.maxseq }

/-- `open`, once RocksDB has opened the database directory; `isRuntimeExisting` says that it was
already there. -/
def openServer (isRuntimeExisting : Bool) : ServerM Bool := do
  openDeletedSet isRuntimeExisting
  openSnapshot
  openMaxseq
  pure isRuntimeExisting

/-- The destructor: the clean shutdown of a server. -/
def close : ServerM Unit := do
  flushLatestmaxseq
  modifyMemory fun wrapper => { wrapper with spPtr := none, latestSpPtr := none }
  let wrapper ← getMemory
  Program.remove .deletedset
  recreate .deletedset wrapper.deletedSet.store
  modifyMemory fun wrapper => { wrapper with snapshotdbPtr := none }

end RocksdbWrapper

end FarReach
