import FarReach.ServerThreads

namespace FarReach

open Crash Crash.Program RocksdbWrapper

/-- What decides when a server takes a snapshot, and the snapshots it holds: the latest one, which is not
in use yet, and the active one. -/
structure SnapshotView where
  issnapshot : Bool
  snapshottoken : Int
  snapshotid : Int
  isSnapshot : Bool
  latest : Option Database
  latestDeletedSet : DeletedSet
  active : Option Database
  activeDeletedSet : DeletedSet

namespace SnapshotView

def CanMake (view : SnapshotView) : Prop := view.snapshotid ≠ -1 ∧ view.isSnapshot = false

instance (view : SnapshotView) : Decidable view.CanMake := inferInstanceAs (Decidable (_ ∧ _))

def make (view : SnapshotView) (kv : KvStore) : SnapshotView :=
  { view with
    isSnapshot := true
    latest := some kv.db
    latestDeletedSet := view.latestDeletedSet.assign kv.deletedSet }

def TakesToken (view : SnapshotView) (token : Int) : Prop := view.snapshottoken < token ∧ view.CanMake

instance (view : SnapshotView) (token : Int) : Decidable (view.TakesToken token) :=
  inferInstanceAs (Decidable (_ ∧ _))

def take (view : SnapshotView) (kv : KvStore) (token : Int) : SnapshotView :=
  if view.TakesToken token then { view.make kv with snapshottoken := token } else view

def case3 (view : SnapshotView) (kv : KvStore) : Option Nat → SnapshotView
  | none => view
  | some token => if view.issnapshot then view else view.take kv token

def case2 (view : SnapshotView) (kv : KvStore) (case2 : Bool) : SnapshotView :=
  if case2 = true ∧ view.issnapshot = false ∧ view.CanMake then view.make kv else view

def cleanup (view : SnapshotView) : SnapshotView :=
  { view with
    issnapshot := false
    isSnapshot := false
    latest := none
    latestDeletedSet := view.latestDeletedSet.clear }

def update (view : SnapshotView) : SnapshotView :=
  { view with
    snapshotid := view.snapshotid + 1
    isSnapshot := false
    latest := none
    latestDeletedSet := view.latestDeletedSet.clear
    active := view.latest
    activeDeletedSet := view.activeDeletedSet.clear.assign view.latestDeletedSet }

end SnapshotView

namespace ServerThreads

def view (server : ServerThreads) : SnapshotView where
  issnapshot := server.issnapshot
  snapshottoken := server.snapshottoken
  snapshotid := server.wrapper.snapshotid
  isSnapshot := server.wrapper.isSnapshot
  latest := server.wrapper.latestSpPtr
  latestDeletedSet := server.wrapper.latestSnapshotDeletedSet
  active := server.wrapper.spPtr
  activeDeletedSet := server.wrapper.snapshotDeletedSet

def SameSignals (after before : ServerThreads) : Prop :=
  after.snapshotSignal = before.snapshotSignal ∧ after.dataSignal = before.dataSignal

/-- `make_snapshot` under a token: the store stays, and so does the disk unless a snapshot is taken. -/
theorem call_take (server : ServerThreads) {token : Int} (nonneg : 0 ≤ token) :
    ∃ made after, server.call (makeSnapshot token) = some (made, after) ∧
      (made = true ↔ server.view.CanMake) ∧
      after.view = (if server.view.CanMake then server.view.make server.kv else server.view) ∧
      after.kv = server.kv ∧ after.cachedKeyset = server.cachedKeyset ∧ after.SameSignals server ∧
      (made = false → after.disk = server.disk) := by
  obtain ⟨disk, ran⟩ := server.call_makeSnapshot nonneg
  have same : server.view.CanMake ↔ server.CanMake := Iff.rfl
  rw [ran]
  by_cases can : server.CanMake
  · rw [if_pos can, if_pos (same.mpr can)]
    exact ⟨true, _, rfl, by simp [same, can], rfl, rfl, rfl, ⟨rfl, rfl⟩, by simp⟩
  · rw [if_neg can, if_neg (fun able => can (same.mp able))]
    exact ⟨false, server, rfl, by simp [same, can], rfl, rfl, rfl, ⟨rfl, rfl⟩, fun _ => rfl⟩

/-- What a step that only concerns snapshots leaves behind. -/
structure Steps (after before : ServerThreads) (next : SnapshotView) : Prop where
  viewed : after.view = next
  kv : after.kv = before.kv
  cachedKeyset : after.cachedKeyset = before.cachedKeyset
  dataSignal : after.dataSignal = before.dataSignal
  disk : next = before.view → after.disk = before.disk

theorem Steps.refl (server : ServerThreads) : server.Steps server server.view :=
  ⟨rfl, rfl, rfl, rfl, fun _ => rfl⟩

theorem view_makeUnderToken (server : ServerThreads) {token : Int} (nonneg : 0 ≤ token) :
    ∃ after, server.makeUnderToken token = some after ∧ after.snapshotSignal = server.snapshotSignal ∧
      after.Steps server (server.view.take server.kv token) := by
  unfold makeUnderToken SnapshotView.take
  by_cases newer : server.snapshottoken < token
  · obtain ⟨made, after, ran, made_iff, view, kv, keyset, signals, disk⟩ := server.call_take nonneg
    rw [if_pos newer]
    simp only [ran, Option.bind_eq_bind, Option.bind_some]
    by_cases can : server.view.CanMake
    · rw [if_pos (made_iff.mpr can), if_pos ⟨newer, can⟩]
      rw [if_pos can] at view
      refine ⟨_, rfl, signals.1, ?_, kv, keyset, signals.2, ?_⟩
      · exact congrArg (fun view => { view with snapshottoken := token }) view
      · intro same
        have moved := congrArg SnapshotView.snapshottoken same
        exact absurd moved (ne_of_gt newer)
    · have unmade : made = false := Bool.eq_false_iff.mpr fun did => can (made_iff.mp did)
      rw [if_neg (by simp [unmade]), if_neg fun takes => can takes.2]
      rw [if_neg can] at view
      exact ⟨after, rfl, signals.1, view, kv, keyset, signals.2, fun _ => disk unmade⟩
  · rw [if_neg newer, if_neg fun takes => newer takes.1]
    exact ⟨server, rfl, rfl, .refl server⟩

theorem view_case3 (server : ServerThreads) (token : Option Nat) :
    ∃ after, server.case3 token = some after ∧ after.snapshotSignal = server.snapshotSignal ∧
      after.Steps server (server.view.case3 server.kv token) := by
  cases token with
  | none => exact ⟨server, rfl, rfl, .refl server⟩
  | some token =>
    unfold case3 SnapshotView.case3
    dsimp only
    by_cases processing : server.issnapshot = true
    · rw [if_pos processing, if_pos (show server.view.issnapshot = true from processing)]
      exact ⟨server, rfl, rfl, .refl server⟩
    · rw [if_neg processing, if_neg (show ¬ server.view.issnapshot = true from processing)]
      exact server.view_makeUnderToken (Int.natCast_nonneg token)

theorem view_case2 (server : ServerThreads) (case2 : Bool) :
    ∃ after, server.case2 case2 = some after ∧ after.snapshotSignal = server.snapshotSignal ∧
      after.Steps server (server.view.case2 server.kv case2) := by
  unfold ServerThreads.case2 SnapshotView.case2
  by_cases asks : (case2 && !server.issnapshot) = true
  · obtain ⟨made, after, ran, made_iff, view, kv, keyset, signals, disk⟩ := server.call_take (Int.le_refl 0)
    obtain ⟨set, processing⟩ : case2 = true ∧ server.issnapshot = false := by simpa using asks
    rw [if_pos asks, ran]
    by_cases can : server.view.CanMake
    · rw [if_pos ⟨set, processing, can⟩]
      rw [if_pos can] at view
      refine ⟨after, rfl, signals.1, view, kv, keyset, signals.2, fun same => ?_⟩
      have raised : true = server.view.isSnapshot := congrArg SnapshotView.isSnapshot same
      rw [can.2] at raised
      cases raised
    · have unmade : made = false := Bool.eq_false_iff.mpr fun did => can (made_iff.mp did)
      rw [if_neg fun takes => can takes.2.2]
      rw [if_neg can] at view
      exact ⟨after, rfl, signals.1, view, kv, keyset, signals.2, fun _ => disk unmade⟩
  · rw [if_neg asks, if_neg]
    · exact ⟨server, rfl, rfl, .refl server⟩
    · intro ⟨set, processing, _⟩
      have unset : server.issnapshot = false := processing
      exact asks (by simp [set, unset])

/-- The worker takes its snapshot first and then writes. -/
theorem view_worker (server : ServerThreads) (request : WorkerRequest) :
    ∃ after, server.worker request = some after ∧ after.snapshotSignal = server.snapshotSignal ∧
      after.dataSignal = server.dataSignal ∧ after.view = server.view.case3 server.kv request.token ∧
      after.kv = request.write.apply server.kv ∧
      (server.view.case3 server.kv request.token = server.view → after.disk = server.disk) := by
  obtain ⟨gated, ran, signal, steps⟩ := server.view_case3 request.token
  unfold worker
  simp only [ran, Option.bind_eq_bind, Option.bind_some, apply_eq]
  refine ⟨_, rfl, ?_⟩
  have populated : ∀ written : ServerThreads, (written.populate request).snapshotSignal = written.snapshotSignal ∧
      (written.populate request).dataSignal = written.dataSignal ∧ (written.populate request).view = written.view ∧
      (written.populate request).kv = written.kv ∧ (written.populate request).disk = written.disk := by
    intro written
    unfold populate
    split <;> exact ⟨rfl, rfl, rfl, rfl, rfl⟩
  obtain ⟨same, sameData, view, kv, disk⟩ := populated (gated.withKv (request.write.apply gated.kv))
  rw [same, sameData, view, kv, disk]
  exact ⟨signal, steps.dataSignal, steps.viewed, congrArg request.write.apply steps.kv, steps.disk⟩

theorem view_evictserver (server : ServerThreads) {evict : CacheEvict} (cached : evict.key ∈ server.cachedKeyset) :
    ∃ after, server.evictserver evict.serveridx evict = some (after, evict.key) ∧
      after.snapshotSignal = server.snapshotSignal ∧ after.dataSignal = server.dataSignal ∧
      after.view = server.view.case2 server.kv evict.case2 ∧ after.kv = evict.write.apply server.kv := by
  obtain ⟨made, ran, signal, steps⟩ := server.view_case2 evict.case2
  unfold evictserver
  rw [if_neg (by simp), if_neg (by simpa using cached)]
  simp only [ran, Option.bind_eq_bind, Option.bind_some, apply_eq]
  exact ⟨_, rfl, signal, steps.dataSignal, steps.viewed, congrArg evict.write.apply steps.kv⟩

/-- A cleanup for the next snapshot id also removes the files of that id. -/
theorem view_cleanup (server : ServerThreads) (nonneg : 0 ≤ server.view.snapshotid) :
    ∃ after, server.snapshotserver (.cleanup, server.view.snapshotid + 1) =
        some (after, some (.cleanup, server.view.snapshotid + 1)) ∧
      after.snapshotSignal = some (.cleanup, server.view.snapshotid + 1) ∧ after.dataSignal = server.dataSignal ∧
      after.view = server.view.cleanup ∧ after.kv = server.kv ∧
      after.disk (.snapshotdbseq (server.view.snapshotid + 1)) = .missing := by
  have started : server.wrapper.snapshotid ≠ -1 := fun unset => absurd nonneg (by simp [view, unset])
  have runs : Runs (cleanSnapshot (server.wrapper.snapshotid + 1)) server.wrapper server.disk
      fun _ wrapper disk => wrapper = { server.wrapper with
          latestSpPtr := none, latestSnapshotDeletedSet := server.wrapper.latestSnapshotDeletedSet.clear } ∧
        disk (.snapshotdbseq (server.wrapper.snapshotid + 1)) = .missing := by
    unfold cleanSnapshot cleanStarted removeSnapshotFiles
    simp [started, Function.update]
  obtain ⟨_, wrapper, disk, ran, rfl, removed⟩ := runs
  have cleaned := call_of_result { server with snapshotSignal := some (.cleanup, server.wrapper.snapshotid + 1) } ran
  rw [show server.view.snapshotid = server.wrapper.snapshotid from rfl]
  unfold snapshotserver
  rw [if_neg (by simp)]
  dsimp only
  rw [cleaned]
  exact ⟨_, rfl, rfl, rfl, rfl, rfl, removed⟩

theorem view_start (server : ServerThreads) {snapshotid : Int} (nonneg : 0 ≤ snapshotid)
    (fresh : server.snapshotSignal ≠ some (.start, snapshotid)) (free : server.view.issnapshot = false) :
    ∃ after, server.snapshotserver (.start, snapshotid) = some (after, some (.start, snapshotid)) ∧
      after.snapshotSignal = some (.start, snapshotid) ∧
        after.Steps server (server.view.take server.kv snapshotid) := by
  have unset : server.issnapshot = false := free
  obtain ⟨after, ran, signal, steps⟩ := view_makeUnderToken
    { server with snapshotSignal := some (.start, snapshotid) } nonneg
  unfold snapshotserver
  rw [if_neg fun both => fresh both.2]
  simp only [unset, Bool.false_eq_true, if_false] at ran ⊢
  rw [ran]
  exact ⟨after, rfl, signal, steps.viewed, steps.kv, steps.cachedKeyset, steps.dataSignal, steps.disk⟩

/-- `update_snapshot` for the next id, when a snapshot is there. -/
theorem view_senddataUpdate (server : ServerThreads) (inswitch : Std.ExtTreeMap Key SnapshotRecord)
    (latest : server.view.latest ≠ none) :
    ∃ after, server.senddataUpdate inswitch (server.view.snapshotid + 1) = some after ∧
      after.snapshotSignal = server.snapshotSignal ∧ after.dataSignal = server.dataSignal ∧
      after.view = server.view.update ∧ after.kv = server.kv := by
  obtain ⟨database, made⟩ := Option.ne_none_iff_exists'.mp latest
  have there : server.wrapper.latestSpPtr = some database := made
  have runs : Runs (updateSnapshot inswitch (server.wrapper.snapshotid + 1)) server.wrapper server.disk
      fun _ wrapper _ => wrapper = { server.wrapper with
        spPtr := some database
        snapshotDeletedSet := server.wrapper.snapshotDeletedSet.clear.assign server.wrapper.latestSnapshotDeletedSet
        latestSpPtr := none
        latestSnapshotDeletedSet := server.wrapper.latestSnapshotDeletedSet.clear
        inswitchSnapshot := inswitch
        snapshotid := server.wrapper.snapshotid + 1 } := by
    unfold updateSnapshot adoptServerside storeInswitchSnapshot
      removeSnapshotFiles
    simp [there]
  obtain ⟨_, wrapper, disk, ran, rfl⟩ := runs
  have updated := server.call_of_result ran
  unfold senddataUpdate
  rw [show server.view.snapshotid = server.wrapper.snapshotid from rfl, updated]
  refine ⟨_, rfl, rfl, rfl, ?_, rfl⟩
  unfold SnapshotView.update
  rw [made]
  rfl

end ServerThreads

end FarReach
