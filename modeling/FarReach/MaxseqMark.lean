import FarReach.ServerOperations
import FarReach.Runs

namespace FarReach

open Crash Crash.Program RocksdbWrapper

/-- The sequence number a file keeps as a maximum, if it is such a file. -/
def Path.storedMaxseq : (path : Path) → File path.Content → Option Nat
  | .latestmaxseq, .holds maxseq => some maxseq
  | .snapshotmaxseq _, .holds maxseq => some maxseq
  | _, _ => none

def StoredBelow (disk : ServerDisk) (bound : Nat) : Prop :=
  ∀ (path : Path) (maxseq : Nat), path.storedMaxseq (disk path) = some maxseq → maxseq ≤ bound

theorem StoredBelow.mono {disk : ServerDisk} {bound larger : Nat} (below : StoredBelow disk bound)
    (le : bound ≤ larger) : StoredBelow disk larger :=
  fun path maxseq stored => (below path maxseq stored).trans le

theorem StoredBelow.update {disk : ServerDisk} {bound : Nat} {path : Path} {file : File path.Content}
    (below : StoredBelow disk bound) (small : ∀ maxseq, path.storedMaxseq file = some maxseq → maxseq ≤ bound) :
    StoredBelow (Function.update disk path file) bound := by
  intro other maxseq stored
  by_cases same : other = path
  · subst same
    rw [Function.update_self] at stored
    exact small maxseq stored
  · rw [Function.update_of_ne same] at stored
    exact below other maxseq stored

section Disks

variable {wrapper : RocksdbWrapper} {disk : ServerDisk} {bound : Nat}

section

variable (below : StoredBelow disk bound)
include below

theorem StoredBelow.initialDisk (small : wrapper.maxseq ≤ bound) :
    StoredBelow (initialDisk wrapper disk) bound := by
  refine (((below.update ?_).update ?_).update ?_).update ?_ <;> simp [Path.storedMaxseq, small]

theorem StoredBelow.withoutSnapshot (id : Int) :
    StoredBelow (withoutSnapshot disk id) bound := by
  refine (((below.update ?_).update ?_).update ?_).update ?_ <;> simp [Path.storedMaxseq]

theorem StoredBelow.madeDisk (small : wrapper.maxseq ≤ bound) :
    StoredBelow (madeDisk wrapper disk) bound := by
  refine ((below.update ?_).update ?_).update ?_ <;> simp [Path.storedMaxseq, small]

theorem StoredBelow.updatedDisk (records : List (Key × SnapshotRecord)) (id : Int) :
    StoredBelow (updatedDisk disk records id) bound := by
  have stored :
      StoredBelow (Function.update (Function.update disk (.inswitchsnapshot id) (.holds records)) .snapshotid
      (.holds id)) bound := by
    refine (below.update ?_).update ?_ <;> simp [Path.storedMaxseq]
  unfold RocksdbWrapper.updatedDisk
  dsimp only
  split
  · exact stored.withoutSnapshot _
  · exact stored

theorem StoredBelow.closedDisk (small : wrapper.maxseq ≤ bound) :
    StoredBelow (closedDisk wrapper disk) bound := by
  refine ((below.update ?_).update ?_).update ?_ <;> simp [Path.storedMaxseq, small]

end

end Disks

def Operation.seq : Operation → Nat
  | .call (.put _ _ seq _) => seq
  | .call (.remove _ seq _) => seq
  | _ => 0

/-- `open` of a new process on whatever database it finds, whatever became of the one
before; `maxseq` is what its constructor left in the member. -/
inductive MaxseqEvent where
  | openServer (db : Database) (dbseq maxseq : Nat)
  | operation (operation : Operation)

/-- A server, if there is a process, with its disk. The mark is the largest number the server should
remember: what was passed to `put` or `remove`, and what `maxseq` has been. -/
structure MarkedServer where
  wrapper : Option RocksdbWrapper
  disk : ServerDisk
  mark : Nat

namespace MarkedServer

def known (state : MarkedServer) : Nat := max state.mark (state.wrapper.elim 0 fun wrapper => wrapper.maxseq)

def step (state : MarkedServer) : MaxseqEvent → MarkedServer
  | .openServer db dbseq maxseq =>
    let left := (openServer true (fresh db dbseq maxseq) state.disk).left state.disk
    ⟨left.1, left.2, state.known⟩
  | .operation operation =>
    match state.wrapper with
    | none => state
    | some wrapper =>
      let left := (operation.run wrapper state.disk).left state.disk
      ⟨left.1, left.2, max state.known operation.seq⟩

/-- `maxseq` is a high-water mark: not below any number it has been, any number passed to `put` or
`remove`, or any maximum on the disk. -/
def HighWater (state : MarkedServer) : Prop :=
  ∀ wrapper, state.wrapper = some wrapper → state.mark ≤ wrapper.maxseq ∧ StoredBelow state.disk wrapper.maxseq

end MarkedServer

/-- What `open` makes of the member: the maximum in the file of the snapshot that the id file names, raised to the one
in `latestmaxseq`. Without an id file or a file of that snapshot's maximum, what the constructor left stands in for
it; without `latestmaxseq`, zero. -/
def openedMaxseq (disk : ServerDisk) (maxseq : Nat) : Nat :=
  let loaded : Nat := match disk .snapshotid with
    | .holds id =>
      match disk (.snapshotmaxseq id) with
      | .holds stored => stored
      | _ => maxseq
    | _ => maxseq
  max (flushedMaxseq disk) loaded

theorem wp_openedMaxseq (db : Database) (dbseq maxseq : Nat) (disk : ServerDisk) :
    wp (openServer true) (fresh db dbseq maxseq) disk
      (fun _ wrapper disk' => wrapper.maxseq = openedMaxseq disk maxseq ∧ disk' = disk) (fun _ => True) := by
  refine wp_open ?_ ?_
  · intro missing wrapper _ _ _ _ _ sameMaxseq
    exact ⟨by simp [sameMaxseq, openedMaxseq, missing], rfl⟩
  · intro id pairs loaded named _ loads wrapper _ _ _ _ _ _ sameMaxseq
    refine ⟨?_, rfl⟩
    rcases loads with found | ⟨found, same⟩
    · simp [sameMaxseq, openedMaxseq, named, found]
    · simp [sameMaxseq, openedMaxseq, named, found, same]

/-- What keeps the mark: neither what is known nor a maximum on the disk is above what `open` makes of the member, and
a call that reloads a snapshot finds a maximum in the snapshot's file that is not below the member. -/
def MarkedServer.KeepsMark (state : MarkedServer) : MaxseqEvent → Prop
  | .openServer db dbseq maxseq =>
    (openServer true (fresh db dbseq maxseq) state.disk).result.isSome = true →
      state.known ≤ openedMaxseq state.disk maxseq ∧ StoredBelow state.disk (openedMaxseq state.disk maxseq)
  | .operation (.call request) =>
    ∀ wrapper id stored, state.wrapper = some wrapper → (request.run wrapper state.disk).result.isSome = true →
      Server.reloadedByCall ⟨wrapper, state.disk⟩ request = some id →
      state.disk (.snapshotmaxseq id) = .holds stored → wrapper.maxseq ≤ stored
  | .operation _ => True

section Steps

variable {wrapper : RocksdbWrapper} {disk : ServerDisk}

def Raised (wrapper : RocksdbWrapper) (seq : Nat) (wrapper' : RocksdbWrapper) (disk' : ServerDisk) : Prop :=
  max wrapper.maxseq seq ≤ wrapper'.maxseq ∧ StoredBelow disk' wrapper'.maxseq

theorem raised_of_loads {wrapper' : RocksdbWrapper} {disk' : ServerDisk} {file : File Nat}
    (below : StoredBelow disk' wrapper.maxseq) (loads : LoadsMaxseq file wrapper.maxseq wrapper'.maxseq) :
    Raised wrapper 0 wrapper' disk' ↔ ∀ stored, file = .holds stored → wrapper.maxseq ≤ stored := by
  unfold Raised
  rw [max_eq_left (Nat.zero_le _)]
  rcases loads with found | ⟨found, same⟩
  · constructor
    · rintro ⟨le, _⟩ stored holds
      cases found.symm.trans holds
      exact le
    · intro enough
      have le := enough _ found
      exact ⟨le, below.mono le⟩
  · rw [same]
    refine iff_of_true ⟨Nat.le_refl _, below⟩ ?_
    intro stored holds
    cases found.symm.trans holds

theorem raised_write (below : StoredBelow disk wrapper.maxseq) (write : Write) (seq : Nat)
    (raises : (write.apply wrapper.toKvStore).maxseq = max wrapper.maxseq seq) :
    Raised wrapper seq { wrapper with toKvStore := write.apply wrapper.toKvStore } disk := by
  refine ⟨raises.ge, below.mono ?_⟩
  change wrapper.maxseq ≤ (write.apply wrapper.toKvStore).maxseq
  omega

theorem maxseq_put (kv : KvStore) (key : Key) (val : Val) (seq : Nat) (checkseq : Bool) :
    (kv.put key val seq checkseq).2.maxseq = max kv.maxseq seq := by
  unfold KvStore.put KvStore.writeChecked KvStore.checkDeleted
  dsimp only
  split_ifs <;> dsimp only <;> omega

theorem maxseq_remove (kv : KvStore) (key : Key) (seq : Nat) (checkseq : Bool) :
    (kv.remove key seq checkseq).2.maxseq = max kv.maxseq seq := by
  unfold KvStore.remove KvStore.writeChecked KvStore.checkDeleted
  dsimp only
  split_ifs <;> dsimp only <;> omega

theorem raised_cleaned (below : StoredBelow disk wrapper.maxseq) (tmpsnapshotid : Int) :
    wp (cleanStarted tmpsnapshotid) wrapper disk (fun _ wrapper' disk' => Raised wrapper 0 wrapper' disk' ↔
      (tmpsnapshotid = wrapper.snapshotid → ∀ stored,
        disk (.snapshotmaxseq (wrapper.snapshotid - 1)) = .holds stored → wrapper.maxseq ≤ stored))
          (fun _ => True) := by
  refine wp_cleaned ?_ ?_
  · intro next
    refine iff_of_true ⟨by simp, below.withoutSnapshot _⟩ fun current => by omega
  · intro current pairs maxseq inswitchSnapshot _ loads
    rw [raised_of_loads (below.withoutSnapshot _) loads]
    exact ⟨fun enough _ => enough, fun enough => enough current⟩

def ReloadsHigh (wrapper : RocksdbWrapper) (disk : ServerDisk) (request : Call) : Prop :=
  ∀ id stored, Server.reloadedByCall ⟨wrapper, disk⟩ request = some id →
    disk (.snapshotmaxseq id) = .holds stored → wrapper.maxseq ≤ stored

theorem raised_clean (below : StoredBelow disk wrapper.maxseq) (tmpsnapshotid : Int) :
    wp (RocksdbWrapper.cleanSnapshot tmpsnapshotid) wrapper disk (fun _ wrapper' disk' =>
      Raised wrapper 0 wrapper' disk' ↔ ReloadsHigh wrapper disk (.cleanSnapshot tmpsnapshotid)) (fun _ => True) := by
  have reads : ReloadsHigh wrapper disk (.cleanSnapshot tmpsnapshotid) ↔
      (tmpsnapshotid = Server.startedId ⟨wrapper, disk⟩ → ∀ stored,
        disk (.snapshotmaxseq (Server.startedId ⟨wrapper, disk⟩ - 1)) = .holds stored → wrapper.maxseq ≤ stored) := by
    unfold ReloadsHigh Server.reloadedByCall
    constructor
    · intro high current stored found
      exact high _ stored (if_pos current) found
    · intro high id stored reloads found
      dsimp only at reloads
      split at reloads
      · rename_i current
        cases reloads
        exact high current stored found
      · cases reloads
  rw [reads]
  refine wp_clean ?_ ?_
  · intro sameId
    rw [sameId]
    exact raised_cleaned below tmpsnapshotid
  · intro first _
    rw [first]
    have stored : StoredBelow (initialDisk wrapper disk) wrapper.maxseq := below.initialDisk (Nat.le_refl _)
    have cleaned := @raised_cleaned
      { wrapper with isSnapshot := false, spPtr := some wrapper.db, snapshotid := 0 } _ stored tmpsnapshotid
    simpa [initialDisk, Function.update, Raised] using cleaned

theorem raised_update (below : StoredBelow disk wrapper.maxseq) (map : Std.ExtTreeMap Key SnapshotRecord)
    (tmpsnapshotid : Int) :
    wp (RocksdbWrapper.updateSnapshot map tmpsnapshotid) wrapper disk (fun _ wrapper' disk' =>
      Raised wrapper 0 wrapper' disk' ↔ ReloadsHigh wrapper disk (.updateSnapshot map tmpsnapshotid))
      (fun _ => True) := by
  unfold ReloadsHigh Server.reloadedByCall
  refine wp_updated ?_ ?_
  · intro latest made
    refine iff_of_true ⟨by simp [updated], below.updatedDisk _ _⟩ ?_
    simp [made]
  · intro noLatest pairs maxseq _ loads
    have stored := below.updatedDisk map.toList (wrapper.snapshotid + 1)
    rw [raised_of_loads stored loads]
    simp only [noLatest, Option.isNone_none, if_true, Option.some.injEq]
    constructor
    · rintro enough _ value rfl
      exact enough value
    · exact fun enough value => enough _ value rfl

theorem raised_call (below : StoredBelow disk wrapper.maxseq) (request : Call) :
    wp request.run wrapper disk (fun _ wrapper' disk' =>
      Raised wrapper (Operation.call request).seq wrapper' disk' ↔ ReloadsHigh wrapper disk request)
        (fun _ => True) := by
  have harmless : ∀ {request : Call}, Server.reloadedByCall ⟨wrapper, disk⟩ request = none →
      ReloadsHigh wrapper disk request := by
    intro request none id stored some
    rw [none] at some
    cases some
  cases request with
  | put key val seq checkseq =>
    unfold Call.run RocksdbWrapper.put
    rw [wp_modifyMemory]
    exact iff_of_true (raised_write below (.put key val seq checkseq) seq (maxseq_put ..)) (harmless rfl)
  | remove key seq checkseq =>
    unfold Call.run RocksdbWrapper.remove
    rw [wp_modifyMemory]
    exact iff_of_true (raised_write below (.remove key seq checkseq) seq (maxseq_remove ..)) (harmless rfl)
  | initSnapshot =>
    refine wp_init (fun _ => iff_of_true ⟨by simp [Operation.seq], below⟩ (harmless rfl)) ?_
    intro _ _ _ _
    exact iff_of_true ⟨by simp [Operation.seq], below.initialDisk (Nat.le_refl _)⟩ (harmless rfl)
  | cleanSnapshot tmpsnapshotid => exact raised_clean below tmpsnapshotid
  | makeSnapshot tmpsnapshotid =>
    unfold Call.run
    rw [wp_bind]
    refine wp_made ?_ ?_ <;> rw [wp_pure]
    · exact iff_of_true ⟨by simp [Operation.seq], below⟩ (harmless rfl)
    · exact iff_of_true ⟨by simp [Operation.seq], below.madeDisk (Nat.le_refl _)⟩ (harmless rfl)
  | updateSnapshot map tmpsnapshotid => exact raised_update below map tmpsnapshotid
  | stopSnapshot =>
    unfold Call.run RocksdbWrapper.stopSnapshot
    rw [wp_modifyMemory]
    exact iff_of_true ⟨by simp [Operation.seq], below⟩ (harmless rfl)

theorem raised_reopen (below : StoredBelow disk wrapper.maxseq) (maxseq : Nat) :
    wp (RocksdbWrapper.reopen maxseq) wrapper disk (fun _ wrapper' disk' => Raised wrapper 0 wrapper' disk')
      (fun _ => True) := by
  have flushed : flushedMaxseq (closedDisk wrapper disk) = wrapper.maxseq := by
    simp [flushedMaxseq, closedDisk, Function.update]
  have stored : StoredBelow (closedDisk wrapper disk) wrapper.maxseq := below.closedDisk (Nat.le_refl _)
  unfold RocksdbWrapper.reopen RocksdbWrapper.close flushLatestmaxseq
  simp only [wp_bind, wp_getMemory, wp_store, wp_modifyMemory, wp_remove, wp_recreate, implies_true, true_and]
  change wp (openServer true) (fresh wrapper.db wrapper.dbseq maxseq) (closedDisk wrapper disk) _ _
  refine (wp_openedMaxseq wrapper.db wrapper.dbseq maxseq (closedDisk wrapper disk)).mono ?_
  rintro _ wrapper' _ ⟨sameMaxseq, rfl⟩
  have le : wrapper.maxseq ≤ wrapper'.maxseq := by
    rw [sameMaxseq, openedMaxseq, flushed]
    exact le_max_left _ _
  exact ⟨by omega, stored.mono le⟩

end Steps

theorem maxseq_forceMultiput (kv : KvStore) (pairs : List (Key × Val)) :
    (kv.forceMultiput pairs).maxseq = kv.maxseq := by
  induction pairs generalizing kv with
  | nil => rfl
  | cons pair rest ih => exact ih (kv.forcePut pair.1 pair.2)

theorem maxseq_get (kv : KvStore) (key : Key) : (kv.get key).2.maxseq = kv.maxseq := by
  unfold KvStore.get
  split <;> rfl

theorem raised_operation {wrapper : RocksdbWrapper} {disk : ServerDisk} (below : StoredBelow disk wrapper.maxseq)
    (operation : Operation) :
    wp operation.run wrapper disk (fun _ wrapper' disk' => Raised wrapper operation.seq wrapper' disk' ↔
      ∀ request, operation = .call request → ReloadsHigh wrapper disk request) (fun _ => True) := by
  cases operation with
  | forcePut key val =>
    unfold Operation.run RocksdbWrapper.forcePut
    simp only [wp_bind, wp_modifyMemory, wp_pure]
    exact iff_of_true ⟨by simp [KvStore.forcePut, Operation.seq], below⟩ (by simp)
  | forceMultiput pairs =>
    have same := maxseq_forceMultiput wrapper.toKvStore pairs
    unfold Operation.run RocksdbWrapper.forceMultiput
    simp only [wp_bind, wp_modifyMemory, wp_pure]
    exact iff_of_true ⟨by simp [same, Operation.seq], below.mono same.ge⟩ (by simp)
  | get key =>
    have same := maxseq_get wrapper.toKvStore key
    unfold Operation.run RocksdbWrapper.get
    simp only [wp_bind, wp_getMemory, wp_modifyMemory, wp_pure]
    exact iff_of_true ⟨by simp [same, Operation.seq], below.mono same.ge⟩ (by simp)
  | flushLatestmaxseq =>
    unfold Operation.run RocksdbWrapper.flushLatestmaxseq
    simp only [wp_bind, wp_getMemory, wp_store, true_and]
    refine iff_of_true ⟨by simp [Operation.seq], below.update ?_⟩ (by simp)
    simp [Path.storedMaxseq]
  | reopen maxseq =>
    unfold Operation.run
    rw [wp_bind]
    exact (raised_reopen below maxseq).mono fun _ _ _ raised => (wp_pure ()).mpr (iff_of_true raised (by simp))
  | call request =>
    refine (raised_call below request).mono fun _ _ _ spec => spec.trans ?_
    simp

namespace MarkedServer

theorem highWater_open (state : MarkedServer) (db : Database) (dbseq maxseq : Nat) :
    (state.step (.openServer db dbseq maxseq)).HighWater ↔ state.KeepsMark (.openServer db dbseq maxseq) := by
  have spec := wp_openedMaxseq db dbseq maxseq state.disk
  unfold HighWater KeepsMark step
  dsimp only
  by_cases aborted : (openServer true (fresh db dbseq maxseq) state.disk).result = none
  · simp [left_of_abort aborted, aborted]
  · obtain ⟨_, wrapper, left, sameMaxseq, sameDisk⟩ := spec.left aborted
    rw [left, sameDisk]
    simp only [Option.some.injEq, forall_eq', sameMaxseq, Option.isSome_iff_ne_none, ne_eq, aborted,
      not_false_eq_true, forall_const]

theorem highWater_operation {state : MarkedServer} (high : state.HighWater) (operation : Operation) :
    (state.step (.operation operation)).HighWater ↔ state.KeepsMark (.operation operation) := by
  cases running : state.wrapper with
  | none =>
    have same : state.step (.operation operation) = state := by simp [step, running]
    rw [same]
    refine iff_of_true high ?_
    cases operation <;> simp [KeepsMark, running]
  | some wrapper =>
    obtain ⟨marked, below⟩ := high wrapper running
    have known : state.known = wrapper.maxseq := by simp [MarkedServer.known, running, marked]
    have reads : state.KeepsMark (.operation operation) ↔ ((operation.run wrapper state.disk).result ≠ none →
        ∀ request, operation = .call request → ReloadsHigh wrapper state.disk request) := by
      cases operation with
      | call request =>
        simp only [KeepsMark, running, Option.some.injEq, Operation.run, Option.isSome_iff_ne_none,
          Operation.call.injEq]
        constructor
        · rintro high completed _ rfl id stored
          exact high wrapper id stored rfl completed
        · rintro high _ id stored rfl completed
          exact high completed request rfl id stored
      | _ => simp [KeepsMark]
    rw [reads]
    have spec := raised_operation below operation
    unfold HighWater step
    simp only [running, known]
    by_cases aborted : (operation.run wrapper state.disk).result = none
    · simp [left_of_abort aborted, aborted]
    · obtain ⟨_, wrapper', left, decides⟩ := spec.left aborted
      rw [left]
      simp only [Option.some.injEq, forall_eq', ne_eq, aborted, not_false_eq_true, forall_const]
      exact decides

end MarkedServer

/-- From any files on: `maxseq` never decreases, and is at least every number passed to `put` or
`remove` and every maximum ever stored, exactly along the runs in which no load falls below the mark. -/
theorem maxseq_high_water_iff (disk : ServerDisk) (events : List MaxseqEvent) :
    Runs.Always MarkedServer.step MarkedServer.HighWater ⟨none, disk, 0⟩ events ↔
      Runs.AllAllowed MarkedServer.step MarkedServer.KeepsMark ⟨none, disk, 0⟩ events := by
  have base : MarkedServer.HighWater ⟨none, disk, 0⟩ := by
    rintro _ ⟨⟩
  have decides : ∀ (state : MarkedServer) (event : MaxseqEvent), state.HighWater →
      ((state.step event).HighWater ↔ state.KeepsMark event) := by
    intro state event high
    cases event with
    | openServer db dbseq maxseq => exact MarkedServer.highWater_open state db dbseq maxseq
    | operation operation => exact MarkedServer.highWater_operation high operation
  refine Runs.always_iff_allAllowed (fun _ high => high) ?_ ?_ events base
  · exact fun state event high keeps => (decides state event high).mpr keeps
  · exact fun state event high after => (decides state event high).mp after

/-- A put between two snapshots, and a rollback from the second one to the first. -/
def rolledBack : List MaxseqEvent :=
  [.openServer ∅ 0 0, .operation (.call .initSnapshot), .operation (.call (.put ⟨1, 0, 0, 0⟩ [7] 5 false)),
    .operation (.call (.makeSnapshot 1)), .operation (.call (.updateSnapshot ∅ 1)),
    .operation (.call (.cleanSnapshot 1))]

/-- The rollback takes the member back to the maximum of the first snapshot, below the put. -/
theorem maxseq_falls_on_rollback :
    ¬ Runs.Always MarkedServer.step MarkedServer.HighWater ⟨none, fun _ => .missing, 0⟩ rolledBack := by
  intro always
  have ends : ((rolledBack.foldl MarkedServer.step ⟨none, fun _ => .missing, 0⟩).wrapper.map fun wrapper =>
      (wrapper.maxseq, (rolledBack.foldl MarkedServer.step ⟨none, fun _ => .missing, 0⟩).mark)) = some (0, 5) := by
    decide +kernel
  obtain ⟨wrapper, running, pair⟩ := Option.map_eq_some_iff.mp ends
  have bound := (always.last wrapper running).1
  rw [(Prod.mk.inj pair).1, (Prod.mk.inj pair).2] at bound
  omega

end FarReach
