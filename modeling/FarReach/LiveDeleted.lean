import FarReach.ServerOperations
import FarReach.RangeScanPrefix
import FarReach.Runs

namespace FarReach

open Crash Crash.Program RocksdbWrapper Versioned Server

def Apart (db : Database) (set : DeletedSet) : Prop := ∀ key, db[key]? = none ∨ set.tombstone key = none

/-- None of the tombstones in a file is for a key of the database. -/
def TombstonesAbsent (db : Database) (file : File (List (Key × Nat))) : Prop :=
  ∀ pairs, file = .holds pairs → ∀ pair ∈ pairs, db[pair.1]? = none

theorem lookup_foldl_insertIfNew_eq_none (pairs : List (Key × Nat)) (map : Std.ExtTreeMap Key Nat) (key : Key) :
    (pairs.foldl (fun map pair => map.insertIfNew pair.1 pair.2) map)[key]? = none ↔
      map[key]? = none ∧ ∀ pair ∈ pairs, pair.1 ≠ key := by
  induction pairs generalizing map with
  | nil => simp
  | cons pair rest ih =>
    rw [List.foldl_cons, ih, OrderedMap.lookup_insertIfNew, List.forall_mem_cons]
    by_cases same : key = pair.1
    · simp [same]
    · simp [same, Ne.symm same]

/-- The tombstones a set has after `load` are those of the file. -/
theorem apart_load_iff (db : Database) (set : DeletedSet) (pairs : List (Key × Nat)) :
    Apart db (set.load pairs) ↔ ∀ pair ∈ pairs, db[pair.1]? = none := by
  have loaded : ∀ key, (set.load pairs).tombstone key = none ↔ ∀ pair ∈ pairs, pair.1 ≠ key := by
    intro key
    unfold DeletedSet.tombstone
    rw [DeletedSet.recordsSortedBykey_load, lookup_foldl_insertIfNew_eq_none]
    simp
  constructor
  · intro apart pair member
    rcases apart pair.1 with absent | gone
    · exact absent
    · exact absurd rfl ((loaded pair.1).mp gone pair member)
  · intro absent key
    by_cases named : ∃ pair ∈ pairs, pair.1 = key
    · obtain ⟨pair, member, rfl⟩ := named
      exact Or.inl (absent pair member)
    · refine Or.inr ((loaded key).mpr fun pair member same => named ⟨pair, member, same⟩)

theorem tombstonesAbsent_iff {db : Database} {file : File (List (Key × Nat))} {pairs : List (Key × Nat)}
    (found : file = .holds pairs) (set : DeletedSet) : TombstonesAbsent db file ↔ Apart db (set.load pairs) := by
  rw [apart_load_iff]
  unfold TombstonesAbsent
  constructor
  · exact fun absent => absent pairs found
  · intro absent others same
    cases found.symm.trans same
    exact absent

theorem apart_of_size_zero (db : Database) {set : DeletedSet} (size : set.size = 0) : Apart db set := by
  intro key
  have empty : set.recordsSortedBykey = ∅ := Std.ExtTreeMap.eq_empty_iff_size_eq_zero.mpr size
  exact Or.inr (by simp [DeletedSet.tombstone, empty])

/-- A scan for the one record of a key that is live and deleted aborts, whatever the switches hold. -/
theorem scanSnapshot_collision {db : Database} {deletedSet : Std.ExtTreeMap Key Nat} {key : Key} {version : Val × Nat}
    {seq : Nat} (live : db[key]? = some version) (dead : deletedSet[key]? = some seq)
    (inswitchSnapshot : Std.ExtTreeMap Key SnapshotRecord) :
    scanSnapshot db deletedSet inswitchSnapshot key key.next = none := by
  have firstLive := (OrderedMap.head?_entriesFrom db key version).mpr live
  have firstDead := (OrderedMap.head?_entriesFrom deletedSet key seq).mpr dead
  unfold scanSnapshot
  simp only [Key.getScanrecordcnt_next, Option.bind_eq_bind, Option.bind_some, List.take_one, firstLive, firstDead]
  simp [mergeSort, mergeLoop, liveRecord, deletedRecord, Key.lt_irrefl]

/-- Every scan of a valid range gets through both merges. -/
def RocksdbWrapper.ScansThrough (wrapper : RocksdbWrapper) : Prop :=
  ∀ db startkey endkey count, wrapper.spPtr.or wrapper.snapshotdbPtr = some db →
    startkey.getScanrecordcnt endkey = some count → wrapper.rangeScan startkey endkey ≠ none

/-- The assertion of `merge_sort` never fails in a scan exactly when the two parts of the snapshot share
no key. -/
theorem scansThrough_iff (wrapper : RocksdbWrapper) :
    wrapper.ScansThrough ↔
      ∀ db, wrapper.spPtr.or wrapper.snapshotdbPtr = some db → Apart db wrapper.snapshotDeletedSet := by
  constructor
  · intro through db snapshot key
    cases live : db[key]? with
    | none => exact Or.inl rfl
    | some version =>
      cases dead : wrapper.snapshotDeletedSet.tombstone key with
      | none => exact Or.inr rfl
      | some seq =>
        have aborts : wrapper.rangeScan key key.next = none := by
          have collides := scanSnapshot_collision live dead wrapper.inswitchSnapshot
          simpa [rangeScan, snapshot] using collides
        exact absurd aborts (through db key key.next 1 snapshot (Key.getScanrecordcnt_next key))
  · intro apart db startkey endkey count snapshot counted
    obtain ⟨shown, scanned, _⟩ := scanSnapshot_enumerates
      ⟨db, wrapper.snapshotDeletedSet.recordsSortedBykey, wrapper.inswitchSnapshot⟩ startkey endkey counted
      (apart db snapshot)
    have through : wrapper.rangeScan startkey endkey = some (shown.take count) := by
      simpa [rangeScan, snapshot] using scanned
    rw [through]
    exact Option.some_ne_none _

/-- Live and deleted keys are disjoint: now, and in the pair `make_snapshot` froze. No scan runs into
the assertion that relies on it. -/
structure Server.LiveDeletedApart (server : Server) : Prop where
  runtime : Apart server.wrapper.db server.wrapper.deletedSet
  latest : ∀ frozen, server.wrapper.latestSpPtr = some frozen → Apart frozen server.wrapper.latestSnapshotDeletedSet
  scans : server.wrapper.ScansThrough

/-- What keeps live and deleted keys apart: keys loaded by force have no tombstone, and a snapshot that
is reloaded from its files has no tombstone for a key of the database. -/
def Server.Careful (server : Server) (operation : Operation) : Prop :=
  (match operation with
    | .forcePut key _ => server.wrapper.deletedSet.tombstone key = none
    | .forceMultiput pairs => ∀ pair ∈ pairs, server.wrapper.deletedSet.tombstone pair.1 = none
    | _ => True) ∧
  ∀ id, server.reloadedId operation = some id →
    TombstonesAbsent server.wrapper.db (server.disk (.snapshotdeletedset id))

/-- The three pairs of a database and a tombstone set. -/
structure PairsApart (wrapper : RocksdbWrapper) : Prop where
  runtime : Apart wrapper.db wrapper.deletedSet
  latest : ∀ frozen, wrapper.latestSpPtr = some frozen → Apart frozen wrapper.latestSnapshotDeletedSet
  current : ∀ db, wrapper.spPtr.or wrapper.snapshotdbPtr = some db → Apart db wrapper.snapshotDeletedSet

theorem liveDeletedApart_iff (server : Server) : server.LiveDeletedApart ↔ PairsApart server.wrapper := by
  constructor
  · intro apart
    exact ⟨apart.runtime, apart.latest, (scansThrough_iff _).mp apart.scans⟩
  · intro apart
    exact ⟨apart.runtime, apart.latest, (scansThrough_iff _).mpr apart.current⟩

section Writes

variable {kv : KvStore}

theorem apart_forcePut_iff (apart : Apart kv.db kv.deletedSet) (key : Key) (val : Val) :
    Apart (kv.forcePut key val).db (kv.forcePut key val).deletedSet ↔ kv.deletedSet.tombstone key = none := by
  unfold KvStore.forcePut Apart
  simp only [OrderedMap.lookup_insert]
  constructor
  · intro after
    simpa using after key
  · intro untouched other
    by_cases same : other = key
    · exact Or.inr (same ▸ untouched)
    · simpa [same] using apart other

/-- The loop of `force_multiput`; the tombstones stay as they are, so the keys are checked one by one. -/
theorem apart_forceMultiput_iff (apart : Apart kv.db kv.deletedSet) (pairs : List (Key × Val)) :
    Apart (kv.forceMultiput pairs).db (kv.forceMultiput pairs).deletedSet ↔
      ∀ pair ∈ pairs, kv.deletedSet.tombstone pair.1 = none := by
  have stays : ∀ (pairs : List (Key × Val)) (kv : KvStore) (key : Key),
      (kv.forceMultiput pairs).deletedSet = kv.deletedSet ∧
        ((kv.forceMultiput pairs).db[key]? = none ↔ kv.db[key]? = none ∧ ∀ pair ∈ pairs, pair.1 ≠ key) := by
    intro pairs
    induction pairs with
    | nil => simp [KvStore.forceMultiput]
    | cons pair rest ih =>
      intro kv key
      obtain ⟨sameSet, absent⟩ := ih (kv.forcePut pair.1 pair.2) key
      refine ⟨sameSet, ?_⟩
      change ((kv.forcePut pair.1 pair.2).forceMultiput rest).db[key]? = none ↔ _
      rw [absent, List.forall_mem_cons]
      simp only [KvStore.forcePut, OrderedMap.lookup_insert]
      by_cases same : key = pair.1
      · simp [same]
      · simp [same, Ne.symm same]
  constructor
  · intro after pair member
    obtain ⟨sameSet, absent⟩ := stays pairs kv pair.1
    rcases after pair.1 with gone | gone
    · exact absurd rfl ((absent.mp gone).2 pair member)
    · rwa [sameSet] at gone
  · intro untouched key
    obtain ⟨sameSet, absent⟩ := stays pairs kv key
    rw [sameSet]
    by_cases named : ∃ pair ∈ pairs, pair.1 = key
    · obtain ⟨pair, member, rfl⟩ := named
      exact Or.inr (untouched pair member)
    · refine (apart key).imp_left fun gone => absent.mpr ⟨gone, fun pair member same => named ⟨pair, member, same⟩⟩

theorem apart_get (apart : Apart kv.db kv.deletedSet) (key : Key) :
    Apart (kv.get key).2.db (kv.get key).2.deletedSet := by
  unfold KvStore.get
  split
  · exact apart
  · intro other
    refine (apart other).imp_right fun gone => ?_
    dsimp only
    rw [DeletedSet.tombstone_checkAndRemove]
    split
    · rename_i same
      rw [← same, gone]
      rfl
    · exact gone

theorem apart_write (apart : Apart kv.db kv.deletedSet) (write : Write) :
    Apart (write.apply kv).db (write.apply kv).deletedSet :=
  have disjoint : kv.Disjoint := apart
  disjoint.apply write

end Writes

section Steps

variable {wrapper : RocksdbWrapper} {disk : ServerDisk}

theorem PairsApart.withKv (apart : PairsApart wrapper) (kv : KvStore) :
    PairsApart { wrapper with toKvStore := kv } ↔ Apart kv.db kv.deletedSet :=
  ⟨fun after => after.runtime, fun runtime => ⟨runtime, apart.latest, apart.current⟩⟩

theorem PairsApart.init (apart : PairsApart wrapper) :
    wp RocksdbWrapper.initSnapshot wrapper disk (fun _ wrapper' _ => PairsApart wrapper') (fun _ => True) := by
  refine wp_init (fun _ => apart) ?_
  intro _ _ noTombstones _
  refine ⟨apart.runtime, apart.latest, fun db _ => apart_of_size_zero db noTombstones⟩

theorem PairsApart.cleaned (apart : PairsApart wrapper) (tmpsnapshotid : Int) :
    wp (cleanStarted tmpsnapshotid) wrapper disk (fun _ wrapper' _ => PairsApart wrapper' ↔
      (tmpsnapshotid = wrapper.snapshotid →
        TombstonesAbsent wrapper.db (disk (.snapshotdeletedset (wrapper.snapshotid - 1))))) (fun _ => True) := by
  refine wp_cleaned ?_ ?_
  · intro next
    refine ⟨fun _ current => by omega, fun _ => ⟨apart.runtime, by simp, apart.current⟩⟩
  · intro current pairs maxseq inswitchSnapshot found _
    rw [tombstonesAbsent_iff found wrapper.snapshotDeletedSet.clear]
    constructor
    · intro after _
      exact after.current wrapper.db rfl
    · intro absent
      refine ⟨apart.runtime, by simp, ?_⟩
      rintro _ ⟨rfl⟩
      exact absent current

theorem PairsApart.clean (apart : PairsApart wrapper) (tmpsnapshotid : Int) :
    wp (RocksdbWrapper.cleanSnapshot tmpsnapshotid) wrapper disk (fun _ wrapper' _ => PairsApart wrapper' ↔
      Careful ⟨wrapper, disk⟩ (.call (.cleanSnapshot tmpsnapshotid))) (fun _ => True) := by
  have reads : Careful ⟨wrapper, disk⟩ (.call (.cleanSnapshot tmpsnapshotid)) ↔
      (tmpsnapshotid = startedId ⟨wrapper, disk⟩ →
        TombstonesAbsent wrapper.db (disk (.snapshotdeletedset (startedId ⟨wrapper, disk⟩ - 1)))) := by
    unfold Careful reloadedId reloadedByCall
    dsimp only
    rw [true_and]
    constructor
    · exact fun absent current => absent _ (if_pos current)
    · intro absent id reloads
      split at reloads
      · rename_i current
        cases reloads
        exact absent current
      · cases reloads
  rw [reads]
  refine wp_clean ?_ ?_
  · intro sameId
    rw [sameId]
    exact apart.cleaned tmpsnapshotid
  · intro first noTombstones
    rw [first]
    have initial : PairsApart { wrapper with isSnapshot := false, spPtr := some wrapper.db, snapshotid := 0 } :=
      ⟨apart.runtime, apart.latest, fun db _ => apart_of_size_zero db noTombstones⟩
    have cleaned := @PairsApart.cleaned _ (initialDisk wrapper disk) initial tmpsnapshotid
    simpa [initialDisk, Function.update] using cleaned

theorem PairsApart.update (apart : PairsApart wrapper) (map : Std.ExtTreeMap Key SnapshotRecord)
    (tmpsnapshotid : Int) :
    wp (RocksdbWrapper.updateSnapshot map tmpsnapshotid) wrapper disk (fun _ wrapper' _ => PairsApart wrapper' ↔
      Careful ⟨wrapper, disk⟩ (.call (.updateSnapshot map tmpsnapshotid))) (fun _ => True) := by
  unfold Careful reloadedId reloadedByCall
  refine wp_updated ?_ ?_
  · intro latest made
    have assigned := apart.latest latest made
    refine iff_of_true ⟨apart.runtime, by simp [updated], ?_⟩ (by simp [made])
    rintro _ ⟨rfl⟩
    exact assigned
  · intro noLatest pairs maxseq found _
    simp only [noLatest, Option.isNone_none, if_true, Option.some.injEq, true_and, forall_eq']
    rw [tombstonesAbsent_iff found wrapper.snapshotDeletedSet.clear]
    constructor
    · exact fun after => after.current wrapper.db rfl
    · intro absent
      refine ⟨apart.runtime, by simp [updated], ?_⟩
      rintro _ ⟨rfl⟩
      exact absent

theorem PairsApart.reopen (apart : PairsApart wrapper) (maxseq : Nat) :
    wp (RocksdbWrapper.reopen maxseq) wrapper disk (fun _ wrapper' _ => PairsApart wrapper' ↔
      Careful ⟨wrapper, disk⟩ (.reopen maxseq)) (fun _ => True) := by
  have kept : Apart wrapper.db (reopenedDeletedSet (closedDisk wrapper disk .deletedset)) := by
    intro key
    refine (apart.runtime key).imp_right fun gone => ?_
    have loaded := DeletedSet.recordsSortedBykey_load_store (DeletedSet.new 10 100) wrapper.deletedSet
    simpa [closedDisk, reopenedDeletedSet, DeletedSet.tombstone, loaded] using gone
  have sameId : closedDisk wrapper disk .snapshotid = disk .snapshotid := by simp [closedDisk, Function.update]
  have sameSet : ∀ id, closedDisk wrapper disk (.snapshotdeletedset id) = disk (.snapshotdeletedset id) := by
    intro id
    simp [closedDisk, Function.update]
  unfold RocksdbWrapper.reopen RocksdbWrapper.close flushLatestmaxseq
  simp only [wp_bind, wp_getMemory, wp_store, wp_modifyMemory, wp_remove, wp_recreate, implies_true, true_and]
  change wp (openServer true) (fresh wrapper.db wrapper.dbseq maxseq) (closedDisk wrapper disk) _ _
  unfold Careful reloadedId
  refine wp_open ?_ ?_
  · intro missing opened sameDb sameDeleted noSnapshot noCheckpoint noLatest
    rw [sameId] at missing
    intro _
    refine iff_of_true ⟨by rwa [sameDb, sameDeleted], by simp [noLatest], by simp [noSnapshot, noCheckpoint]⟩ ?_
    simp [missing]
  · intro id pairs loaded named found _ opened sameDb sameDeleted noSnapshot checkpoint snapshotSet noLatest _
    rw [sameId] at named
    rw [sameSet] at found
    simp only [named, Option.some.injEq, true_and, forall_eq']
    rw [tombstonesAbsent_iff found (DeletedSet.new 10 100), ← snapshotSet]
    constructor
    · intro after
      exact after.current wrapper.db (by rw [noSnapshot, checkpoint]; rfl)
    · intro absent
      refine ⟨by rwa [sameDb, sameDeleted], by simp [noLatest], ?_⟩
      rw [noSnapshot, checkpoint]
      rintro _ ⟨rfl⟩
      exact absent

/-- One operation keeps live and deleted keys apart exactly when it is careful. -/
theorem PairsApart.operation (apart : PairsApart wrapper) (operation : Operation) :
    wp operation.run wrapper disk (fun _ wrapper' _ => PairsApart wrapper' ↔
      Careful ⟨wrapper, disk⟩ operation) (fun _ => True) := by
  have harmless : ∀ {operation : Operation}, reloadedId ⟨wrapper, disk⟩ operation = none →
      (∀ id, reloadedId ⟨wrapper, disk⟩ operation = some id →
        TombstonesAbsent wrapper.db (disk (.snapshotdeletedset id))) := by
    intro operation none id some
    rw [none] at some
    cases some
  cases operation with
  | forcePut key val =>
    unfold Operation.run RocksdbWrapper.forcePut
    simp only [wp_bind, wp_modifyMemory, wp_pure, apart.withKv]
    rw [apart_forcePut_iff apart.runtime]
    exact (and_iff_left (harmless rfl)).symm
  | forceMultiput pairs =>
    unfold Operation.run RocksdbWrapper.forceMultiput
    simp only [wp_bind, wp_modifyMemory, wp_pure, apart.withKv]
    rw [apart_forceMultiput_iff apart.runtime]
    exact (and_iff_left (harmless rfl)).symm
  | get key =>
    unfold Operation.run RocksdbWrapper.get
    simp only [wp_bind, wp_getMemory, wp_modifyMemory, wp_pure, apart.withKv]
    exact iff_of_true (apart_get apart.runtime key) ⟨trivial, harmless rfl⟩
  | flushLatestmaxseq =>
    unfold Operation.run RocksdbWrapper.flushLatestmaxseq
    simp only [wp_bind, wp_getMemory, wp_store, true_and]
    exact iff_of_true apart ⟨trivial, harmless rfl⟩
  | reopen maxseq =>
    unfold Operation.run
    rw [wp_bind]
    exact (apart.reopen maxseq).mono fun _ _ _ spec => (wp_pure ()).mpr spec
  | call request =>
    change wp request.run wrapper disk _ _
    cases request with
    | put key val seq checkseq =>
      unfold Call.run RocksdbWrapper.put
      rw [wp_modifyMemory, apart.withKv]
      exact iff_of_true (apart_write apart.runtime (.put key val seq checkseq)) ⟨trivial, harmless rfl⟩
    | remove key seq checkseq =>
      unfold Call.run RocksdbWrapper.remove
      rw [wp_modifyMemory, apart.withKv]
      exact iff_of_true (apart_write apart.runtime (.remove key seq checkseq)) ⟨trivial, harmless rfl⟩
    | initSnapshot => exact apart.init.mono fun _ _ _ kept => iff_of_true kept ⟨trivial, harmless rfl⟩
    | cleanSnapshot tmpsnapshotid => exact apart.clean tmpsnapshotid
    | makeSnapshot tmpsnapshotid =>
      unfold Call.run
      rw [wp_bind]
      refine wp_made ?_ ?_ <;> rw [wp_pure]
      · exact iff_of_true apart ⟨trivial, harmless rfl⟩
      · refine iff_of_true ⟨apart.runtime, ?_, apart.current⟩ ⟨trivial, harmless rfl⟩
        rintro _ ⟨rfl⟩
        exact apart.runtime
    | updateSnapshot map tmpsnapshotid => exact apart.update map tmpsnapshotid
    | stopSnapshot =>
      unfold Call.run RocksdbWrapper.stopSnapshot
      rw [wp_modifyMemory]
      exact iff_of_true ⟨apart.runtime, apart.latest, apart.current⟩ ⟨trivial, harmless rfl⟩

end Steps

/-- One operation of a run; a process that has failed an assertion stays down. -/
def Server.next : Option Server → Operation → Option Server
  | none, _ => none
  | some server, operation => server.perform operation

/-- Live and deleted keys are disjoint as long as there is a process. -/
def StaysApart (state : Option Server) : Prop := ∀ server, state = some server → server.LiveDeletedApart

def CarefulNext (state : Option Server) (operation : Operation) : Prop :=
  ∀ server, state = some server → (server.perform operation).isSome = true → server.Careful operation

theorem staysApart_next {server : Server} {operation : Operation} (apart : server.LiveDeletedApart) :
    StaysApart (Server.next (some server) operation) ↔ CarefulNext (some server) operation := by
  have spec := @PairsApart.operation _ server.disk ((liveDeletedApart_iff server).mp apart) operation
  unfold StaysApart CarefulNext Server.next
  cases performed : server.perform operation with
  | none => simp [performed]
  | some after =>
    have decides := perform_of_wp spec performed
    simp only [Option.some.injEq, forall_eq', liveDeletedApart_iff, Option.isSome_some, forall_const, performed]
    exact decides

/-- From any server whose live and deleted keys are disjoint: they stay so, in the runtime pair and in
every snapshot pair, and no scan fails, exactly along the runs whose operations are all careful. -/
theorem live_deleted_apart_iff {server : Server} (apart : server.LiveDeletedApart) (operations : List Operation) :
    Runs.Always Server.next StaysApart (some server) operations ↔
      Runs.AllAllowed Server.next CarefulNext (some server) operations := by
  have base : StaysApart (some server) := by
    rintro _ ⟨rfl⟩
    exact apart
  refine Runs.always_iff_allAllowed (fun _ stays => stays) ?_ ?_ operations base
  · intro state operation stays careful
    cases state with
    | none => rintro _ ⟨⟩
    | some server => exact (staysApart_next (stays server rfl)).mpr careful
  · intro state operation stays after
    cases state with
    | none => rintro _ ⟨⟩
    | some server => exact (staysApart_next (stays server rfl)).mp after

theorem loaded_apart : (Server.loaded ∅ 0 0).LiveDeletedApart := by
  refine (liveDeletedApart_iff _).mpr ⟨fun key => Or.inl (by simp [Server.loaded, fresh]), ?_, ?_⟩ <;>
    simp [Server.loaded, fresh]

/-- A key is removed, loaded again by its owner with a larger number, and read. -/
theorem live_deleted_apart_after_put :
    (Server.loaded ∅ 0 0).LiveDeletedApart ∧
      Runs.Always Server.next StaysApart (some (Server.loaded ∅ 0 0))
        [.call (.remove ⟨1, 0, 0, 0⟩ 1 false), .call (.put ⟨1, 0, 0, 0⟩ [7] 2 false), .get ⟨1, 0, 0, 0⟩] := by
  refine ⟨loaded_apart, (live_deleted_apart_iff loaded_apart _).mpr ?_⟩
  have trivially : ∀ (state : Option Server) (operation : Operation),
      (∀ server : Server, server.Careful operation) → CarefulNext state operation :=
    fun _ _ careful server _ _ => careful server
  refine ⟨trivially _ _ ?_, trivially _ _ ?_, trivially _ _ ?_, trivial⟩ <;>
    simp [Careful, reloadedId, reloadedByCall]

/-- Two snapshots, with a remove before the first one and a put of the same key before the second. -/
def removedThenPut : List Operation :=
  [.call .initSnapshot,
    .call (.remove ⟨1, 0, 0, 0⟩ 1 false), .call (.makeSnapshot 1), .call (.updateSnapshot ∅ 1), .call .stopSnapshot,
    .call (.put ⟨1, 0, 0, 0⟩ [7] 2 false), .call (.makeSnapshot 2), .call (.updateSnapshot ∅ 2), .call .stopSnapshot]

/-- A removed key that is loaded again is live and deleted at once. And without any loading, the server
of `removedThenPut` reopens with the tombstone of its first snapshot beside the live key: a scan that
went through before fails. -/
theorem live_deleted_overlap :
    ¬ Runs.Always Server.next StaysApart (some (Server.loaded ∅ 0 0))
        [.call (.remove ⟨1, 0, 0, 0⟩ 1 false), .forcePut ⟨1, 0, 0, 0⟩ [7]] ∧
      ((removedThenPut.foldl Server.next (some (Server.loaded ∅ 0 0))).map fun server =>
        (server.wrapper.rangeScan ⟨1, 0, 0, 0⟩ (Key.next ⟨1, 0, 0, 0⟩)).isSome) = some true ∧
      (((removedThenPut ++ [Operation.reopen 0]).foldl Server.next (some (Server.loaded ∅ 0 0))).map fun server =>
        (server.wrapper.rangeScan ⟨1, 0, 0, 0⟩ (Key.next ⟨1, 0, 0, 0⟩)).isSome) = some false := by
  refine ⟨fun always => ?_, by decide +kernel, by decide +kernel⟩
  have last := always.last
  have both : (([.call (.remove ⟨1, 0, 0, 0⟩ 1 false), .forcePut ⟨1, 0, 0, 0⟩ [7]] : List Operation).foldl Server.next
      (some (Server.loaded ∅ 0 0))).map (fun server => (server.wrapper.db[(⟨1, 0, 0, 0⟩ : Key)]?,
        server.wrapper.deletedSet.tombstone ⟨1, 0, 0, 0⟩)) = some (some ([7], 0), some 1) := by
    decide +kernel
  obtain ⟨server, reached, pair⟩ := Option.map_eq_some_iff.mp both
  obtain ⟨live, dead⟩ := Prod.mk.inj pair
  rcases (last server reached).runtime ⟨1, 0, 0, 0⟩ with gone | gone
  · rw [gone] at live
    cases live
  · rw [gone] at dead
    cases dead

end FarReach
