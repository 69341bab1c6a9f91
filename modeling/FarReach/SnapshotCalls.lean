import FarReach.SnapshotFiles

namespace FarReach

open Crash Crash.Program RocksdbWrapper Function

/-- The calls a server gets: writes, and the control messages of the snapshot protocol. -/
inductive Call where
  | put (key : Key) (val : Val) (seq : Nat) (checkseq : Bool)
  | remove (key : Key) (seq : Nat) (checkseq : Bool)
  | initSnapshot
  | cleanSnapshot (tmpsnapshotid : Int)
  | makeSnapshot (tmpsnapshotid : Int)
  | updateSnapshot (tmpInswitchSnapshot : Std.ExtTreeMap Key SnapshotRecord) (tmpsnapshotid : Int)
  | stopSnapshot

def Call.run : Call → ServerM Unit
  | put key val seq checkseq => RocksdbWrapper.put key val seq checkseq
  | remove key seq checkseq => RocksdbWrapper.remove key seq checkseq
  | initSnapshot => RocksdbWrapper.initSnapshot
  | cleanSnapshot tmpsnapshotid => RocksdbWrapper.cleanSnapshot tmpsnapshotid
  | makeSnapshot tmpsnapshotid => do
    let _ ← RocksdbWrapper.makeSnapshot tmpsnapshotid
    pure ()
  | updateSnapshot map tmpsnapshotid => RocksdbWrapper.updateSnapshot map tmpsnapshotid
  | stopSnapshot => RocksdbWrapper.stopSnapshot

def Call.RollsBack (call : Call) (wrapper : RocksdbWrapper) : Prop := call = .cleanSnapshot wrapper.snapshotid

/-- What every completed call preserves. -/
structure Consistent (wrapper : RocksdbWrapper) (disk : ServerDisk) : Prop where
  floor : -1 ≤ wrapper.snapshotid
  keeps : Keeps disk wrapper.snapshotid
  latest : wrapper.latestSpPtr.isSome = true → Serverside disk (wrapper.snapshotid + 1)

variable {disk : ServerDisk} {wrapper : RocksdbWrapper} {tmpsnapshotid : Int}

theorem wp_initSnapshot (consistent : Consistent wrapper disk) :
    wp RocksdbWrapper.initSnapshot wrapper disk
      (fun _ wrapper' disk' => Consistent wrapper' disk' ∧
        (wrapper.snapshotid = -1 → Keeps disk' (-1))) Survives := by
  unfold RocksdbWrapper.initSnapshot storeInswitchSnapshot
  rw [wp_bind, wp_getMemory, wp_ite]
  split
  · rename_i started
    rw [wp_pure]
    exact ⟨consistent, fun unstarted => absurd unstarted started⟩
  · rename_i unstarted
    have unstarted : wrapper.snapshotid = -1 := by simpa using unstarted
    have keeps : Keeps disk (-1) := unstarted ▸ consistent.keeps
    rw [wp_ite]
    split
    · rw [wp_pure]
      exact ⟨consistent, fun _ => keeps⟩
    · simp only [wp_bind, wp_modifyMemory, wp_check]
      intro _ _ _ noLatest _
      refine wp_store_keeps keeps rfl (by decide) fun keeps => ?_
      refine wp_recreate_keeps keeps rfl (by decide) fun keeps => ?_
      refine wp_store_keeps keeps rfl (by decide) fun keeps => ?_
      rw [wp_getMemory]
      refine wp_store_keeps keeps rfl (by decide) fun keeps => ?_
      refine ⟨⟨by simp, keeps.of_neg (by decide) 0, ?_⟩, fun _ => keeps⟩
      intro isLatest
      simp_all

/-- `clean_snapshot` only removes files of a snapshot the id file does not name. It rolls back only
if the id file is not there at all. -/
theorem wp_cleanStarted {id : Int} (floor : -1 ≤ wrapper.snapshotid) (keeps : Keeps disk id)
    (apart : tmpsnapshotid ≠ id) (same : id = -1 ∨ wrapper.snapshotid = id) :
    wp (cleanStarted tmpsnapshotid) wrapper disk (fun _ => Consistent) Survives := by
  unfold cleanStarted rollBack
  simp only [wp_bind, wp_getMemory, wp_check]
  intro _
  refine wp_removeSnapshotFiles_keeps keeps apart fun disk' keeps => ?_
  rw [wp_modifyMemory, wp_ite]
  split
  · rename_i rollback
    have unnamed : id = -1 := same.resolve_right fun same => apart (rollback.trans same)
    simp only [wp_bind, wp_getMemory, wp_modifyMemory]
    refine wp_loadSnapshotFiles fun wrapper' reloads => ?_
    refine ⟨?_, keeps.of_neg (by omega) _, fun isLatest => ?_⟩
    · have started : wrapper.snapshotid ≠ -1 := fun unstarted =>
        apart (rollback.trans (unstarted.trans unnamed.symm))
      simp only [reloads.snapshotid]
      omega
    · simp [reloads.latestSpPtr] at isLatest
  · rw [wp_pure]
    refine ⟨floor, ?_, fun isLatest => ?_⟩
    · rcases same with unnamed | same
      · exact keeps.of_neg (by omega) _
      · exact same ▸ keeps
    · simp at isLatest

theorem wp_cleanSnapshot (consistent : Consistent wrapper disk) (forward : tmpsnapshotid ≠ wrapper.snapshotid) :
    wp (RocksdbWrapper.cleanSnapshot tmpsnapshotid) wrapper disk (fun _ => Consistent) Survives := by
  unfold RocksdbWrapper.cleanSnapshot
  rw [wp_bind, wp_getMemory, wp_bind, wp_ite]
  split
  · rename_i unstarted
    have started := wp_initSnapshot consistent
    refine started.mono fun _ wrapper' disk' after => ?_
    exact wp_cleanStarted after.1.floor (after.2 unstarted) (unstarted ▸ forward) (Or.inl rfl)
  · rw [wp_pure]
    exact wp_cleanStarted consistent.floor consistent.keeps forward (Or.inr rfl)

theorem wp_makeSnapshot (consistent : Consistent wrapper disk) :
    wp (RocksdbWrapper.makeSnapshot tmpsnapshotid) wrapper disk (fun _ => Consistent) Survives := by
  have apart : wrapper.snapshotid + 1 ≠ wrapper.snapshotid := by omega
  unfold RocksdbWrapper.makeSnapshot RocksdbWrapper.claimSnapshot RocksdbWrapper.takeSnapshot
  simp only [wp_bind, wp_check, wp_getMemory, wp_ite, wp_pure, wp_modifyMemory, Bool.false_eq_true, if_false, if_true]
  intro _
  split
  · exact consistent
  · split
    · exact consistent
    · refine wp_store_keeps consistent.keeps rfl apart fun keeps => ?_
      refine wp_recreate_keeps keeps rfl apart fun keeps => ?_
      refine wp_store_keeps keeps rfl apart fun keeps => ?_
      refine ⟨consistent.floor, keeps, fun _ => ⟨?_, ⟨wrapper.snapshotDeletedSet.store, ?_⟩, ?_⟩⟩
      · simp [update, File.exists]
      · simp [update]
      · simp [update, File.exists]

theorem wp_adoptServerside {post : Unit → RocksdbWrapper → ServerDisk → Prop} {crash : ServerDisk → Prop}
    (latest : wrapper.latestSpPtr.isSome = true → Serverside disk (wrapper.snapshotid + 1))
    (after : ∀ wrapper' : RocksdbWrapper, Serverside disk (wrapper.snapshotid + 1) →
      wrapper'.snapshotid = wrapper.snapshotid → post () wrapper' disk) :
    wp adoptServerside wrapper disk post crash := by
  unfold adoptServerside
  rw [wp_bind, wp_getMemory]
  cases made : wrapper.latestSpPtr with
  | some database =>
    rw [wp_modifyMemory]
    exact after _ (latest (by rw [made]; rfl)) rfl
  | none =>
    exact wp_loadServersideSnapshotFiles fun wrapper' serverside reloads =>
      after wrapper' serverside reloads.snapshotid

/-- The id file is written last, when the four files it will name are there. -/
theorem wp_updateSnapshot {map : Std.ExtTreeMap Key SnapshotRecord} (consistent : Consistent wrapper disk) :
    wp (RocksdbWrapper.updateSnapshot map tmpsnapshotid) wrapper disk (fun _ => Consistent) Survives := by
  have floor := consistent.floor
  unfold RocksdbWrapper.updateSnapshot storeInswitchSnapshot
  simp only [wp_bind, wp_check, wp_getMemory, wp_modifyMemory]
  intro _
  refine wp_adoptServerside consistent.latest fun wrapper' serverside sameId => ?_
  refine wp_store_keeps consistent.keeps rfl (by omega) fun keeps => ?_
  rw [wp_store]
  have backed : Backed (update (update disk (.inswitchsnapshot (wrapper.snapshotid + 1))
      (.holds map.toList)) .snapshotid (.holds (wrapper.snapshotid + 1))) (wrapper.snapshotid + 1) := by
    obtain ⟨dbseq, deletedset, maxseq⟩ := serverside
    refine ⟨⟨?_, ?_, ?_⟩, map.toList, by simp [update]⟩
    · simpa [update] using dbseq
    · simpa [update] using deletedset
    · simpa [update] using maxseq
  have named : Keeps (update (update disk (.inswitchsnapshot (wrapper.snapshotid + 1))
      (.holds map.toList)) .snapshotid (.holds (wrapper.snapshotid + 1))) (wrapper.snapshotid + 1) := by
    refine ⟨?_, Or.inr ⟨by simp, by omega, backed⟩⟩
    simpa [update] using consistent.keeps.runtime
  refine ⟨fun untorn => absurd (by simp) untorn, named.survives, ?_⟩
  simp only at sameId
  rw [wp_ite]
  split
  · refine wp_removeSnapshotFiles_keeps named (by omega) fun disk' keeps => ?_
    exact ⟨by simp only [sameId]; omega, by simpa only [sameId] using keeps, by simp⟩
  · rw [wp_pure]
    exact ⟨by simp only [sameId]; omega, by simpa only [sameId] using named, by simp⟩

/-- Every call other than a rollback preserves consistency, and so does its every crash point. -/
theorem wp_call {call : Call} (consistent : Consistent wrapper disk) (forward : ¬ call.RollsBack wrapper) :
    wp call.run wrapper disk (fun _ => Consistent) Survives := by
  cases call with
  | put key val seq checkseq =>
    simp only [Call.run, RocksdbWrapper.put, wp_modifyMemory]
    exact ⟨consistent.floor, consistent.keeps, consistent.latest⟩
  | remove key seq checkseq =>
    simp only [Call.run, RocksdbWrapper.remove, wp_modifyMemory]
    exact ⟨consistent.floor, consistent.keeps, consistent.latest⟩
  | initSnapshot => exact (wp_initSnapshot consistent).mono fun _ _ _ after => after.1
  | cleanSnapshot tmpsnapshotid =>
    refine wp_cleanSnapshot consistent fun same => forward ?_
    rw [same]
    rfl
  | makeSnapshot tmpsnapshotid =>
    simp only [Call.run, wp_bind, wp_pure]
    exact wp_makeSnapshot consistent
  | updateSnapshot map tmpsnapshotid => exact wp_updateSnapshot consistent
  | stopSnapshot =>
    simp only [Call.run, RocksdbWrapper.stopSnapshot, wp_modifyMemory]
    exact ⟨consistent.floor, consistent.keeps, consistent.latest⟩

end FarReach
