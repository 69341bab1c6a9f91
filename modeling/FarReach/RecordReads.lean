import FarReach.History
import FarReach.ServerWorker

namespace FarReach

open Versioned

/-- The response to a read, in the form the length of its value asks for. -/
inductive ReadResponse where
  | getResponseSeq (key : Key) (record : SnapshotRecord) (nodeidxForeval : UInt16)
  | getResponseLargevalueSeq (key : Key) (record : SnapshotRecord) (nodeidxForeval : UInt16)
  deriving DecidableEq

def ReadResponse.ofRecord (key : Key) (record : SnapshotRecord) (globalServerLogicalIdx : UInt16) : ReadResponse :=
  if record.val.length ≤ switchMaxVallen then .getResponseSeq key record globalServerLogicalIdx
  else .getResponseLargevalueSeq key record globalServerLogicalIdx

/-- The record of the switch that a packet carries: its constructor checks the length of the value. -/
structure CarriedRecord extends SnapshotRecord where
  short : val.length ≤ switchMaxVallen

/-- `run_server_worker` on a `GETREQ_BEINGEVICTED_RECORD` or a `GETREQ_LARGEVALUEBLOCK_RECORD` that carries
the record of the switch. -/
def serveRecordRead (kv : KvStore) (globalServerLogicalIdx : UInt16) (key : Key) (carried : CarriedRecord) :
    ReadResponse × KvStore :=
  let (serverRecord, kv) := kv.get key
  (.ofRecord key (newerRecord carried.toSnapshotRecord serverRecord) globalServerLogicalIdx, kv)

/-- The two packets have this handler in the worker. -/
theorem serverWorker_recordRead (kv : KvStore) (request : Packet) (payload : Val)
    (isRead : request.optype = .getreqBeingevictedRecord ∨ request.optype = .getreqLargevalueblockRecord) :
    serverWorker kv request payload =
      ((kv.get request.key).2,
        some (.ofRecord .getresSeq request.key (newerRecord request.record (kv.get request.key).1))) := by
  rcases isRead with kind | kind <;> simp [serverWorker, kind]

def entryRecord : Entry Val → SnapshotRecord
  | .live val seq => ⟨val, seq, true⟩
  | .deleted seq => ⟨[], seq, false⟩

/-- The newest record among the one a packet carries and what the server has; on a tie the server's. -/
def IsNewerRecord (cell : Cell Val) (carried record : SnapshotRecord) : Prop :=
  (record = carried ∧ ∀ entry ∈ cell.entries, entry.seq < carried.seq) ∨
    ∃ entry ∈ cell.entries, record = entryRecord entry ∧ carried.seq ≤ entry.seq ∧
      ∀ other ∈ cell.entries, other.seq ≤ entry.seq

/-- A read with a record is answered with the newest record, and the server keeps what it has. -/
def AnswersNewest (kv : KvStore) (globalServerLogicalIdx : UInt16) (key : Key) (carried : CarriedRecord) : Prop :=
  (∃ record, IsNewerRecord (kv.cell key) carried.toSnapshotRecord record ∧
      (serveRecordRead kv globalServerLogicalIdx key carried).1 = .ofRecord key record globalServerLogicalIdx) ∧
    ∀ other, (serveRecordRead kv globalServerLogicalIdx key carried).2.cell other = kv.cell other

/-- The server has a record of the key, or a tombstone with a positive number, or nothing, and then the
number of the packet is positive or its record is that of a key that never existed. -/
def ReadsSafely (cell : Cell Val) (carried : CarriedRecord) : Prop :=
  match cell.stored, cell.tombstone with
  | some _, _ => True
  | none, some deletedSeq => 0 < deletedSeq
  | none, none => 0 < carried.seq ∨ carried.toSnapshotRecord = ⟨[], 0, false⟩

theorem ReadResponse.ofRecord_inj {key : Key} {first second : SnapshotRecord} {idx : UInt16}
    (same : ofRecord key first idx = ofRecord key second idx) : first = second := by
  unfold ofRecord at same
  split at same <;> split at same <;> cases same <;> rfl

section Cases

variable {kv : KvStore} {key : Key} {carried : SnapshotRecord}

theorem answersNewest_of_get {carried : CarriedRecord} {idx : UInt16} {record : SnapshotRecord} {after : KvStore}
    (got : kv.get key = (record, after)) :
    AnswersNewest kv idx key carried ↔
      IsNewerRecord (kv.cell key) carried.toSnapshotRecord (newerRecord carried.toSnapshotRecord record) ∧
        ∀ other, after.cell other = kv.cell other := by
  unfold AnswersNewest serveRecordRead
  rw [got]
  refine and_congr_left fun _ => ⟨?_, fun newest => ⟨_, newest, rfl⟩⟩
  rintro ⟨chosen, newest, same⟩
  rwa [ReadResponse.ofRecord_inj same]

theorem isNewerRecord_single {cell : Cell Val} {entry : Entry Val} (single : cell.entries = [entry]) :
    IsNewerRecord cell carried (newerRecord carried (entryRecord entry)) := by
  have seq : (entryRecord entry).seq = entry.seq := by cases entry <;> rfl
  unfold IsNewerRecord newerRecord
  rw [single, seq]
  by_cases newer : carried.seq > entry.seq
  · rw [if_pos newer]
    refine Or.inl ⟨rfl, fun other member => ?_⟩
    rw [List.mem_singleton.mp member]
    exact newer
  · rw [if_neg newer]
    refine Or.inr ⟨entry, List.mem_singleton_self entry, rfl, by omega, fun other member => ?_⟩
    rw [List.mem_singleton.mp member]

theorem get_of_stored {version : Val × Nat} (stored : kv.db[key]? = some version) :
    kv.get key = (entryRecord (.live version.1 version.2), kv) := by
  unfold KvStore.get
  rw [stored]
  rfl

theorem get_of_tombstone {deletedSeq : Nat} (absent : kv.db[key]? = none)
    (deleted : kv.deletedSet.tombstone key = some deletedSeq) :
    kv.get key = (entryRecord (.deleted deletedSeq),
      { kv with deletedSet := (kv.deletedSet.checkAndRemove key 0 0).2.2 }) := by
  have found : (kv.deletedSet.checkAndRemove key 0 0).2.1 = deletedSeq := by
    unfold DeletedSet.tombstone at deleted
    unfold DeletedSet.checkAndRemove
    rw [deleted]
    dsimp only
    split <;> rfl
  unfold KvStore.get
  rw [absent]
  dsimp only
  rw [found]
  have seq : (if deletedSeq > 0 then deletedSeq else 0) = deletedSeq := by
    split <;> omega
  rw [seq]
  rfl

theorem get_of_nothing (absent : kv.db[key]? = none) (undeleted : kv.deletedSet.tombstone key = none) :
    kv.get key = (⟨[], 0, false⟩, kv) := by
  have found : kv.deletedSet.checkAndRemove key 0 0 = (false, 0, kv.deletedSet) := by
    unfold DeletedSet.tombstone at undeleted
    unfold DeletedSet.checkAndRemove
    rw [undeleted]
  unfold KvStore.get
  rw [absent, found]
  rfl

/-- A read of a deleted key keeps the tombstones exactly if the number of the key's is positive. -/
theorem cells_kept_iff {deletedSeq : Nat} (deleted : kv.deletedSet.tombstone key = some deletedSeq) :
    (∀ other, ({ kv with deletedSet := (kv.deletedSet.checkAndRemove key 0 0).2.2 } : KvStore).cell other =
        kv.cell other) ↔ 0 < deletedSeq := by
  unfold KvStore.cell
  simp only [DeletedSet.tombstone_checkAndRemove, Cell.mk.injEq, true_and]
  constructor
  · intro kept
    have own := kept key
    rw [if_pos rfl, deleted] at own
    by_contra zero
    simp [Option.filter, zero] at own
  · intro positive other
    split
    · rename_i same
      rw [same, deleted]
      simp [Option.filter, positive]
    · rfl

end Cases

/-- In every state that writes and evictions lead to, a read that carries the record of the switch is
answered with the newer record and changes nothing exactly if no number 0 is in play: neither that of the
key's tombstone nor, for a key the server knows nothing of, that of the packet. -/
theorem recordRead_answersNewest_iff (start : KvStore) (loaded : ∀ key, start.deletedSet.tombstone key = none)
    (history : List Write) (globalServerLogicalIdx : UInt16) (key : Key) (carried : CarriedRecord) :
    AnswersNewest (history.foldl Write.apply start) globalServerLogicalIdx key carried ↔
      ReadsSafely ((history.foldl Write.apply start).cell key) carried := by
  have disjoint : (history.foldl Write.apply start).Disjoint :=
    KvStore.Disjoint.history (fun key => Or.inr (loaded key)) history
  generalize history.foldl Write.apply start = kv at disjoint ⊢
  cases stored : kv.db[key]? with
  | some version =>
    have undeleted : kv.deletedSet.tombstone key = none := by
      rcases disjoint key with absent | undeleted
      · exact absurd (stored.symm.trans absent) (by simp)
      · exact undeleted
    have entries : (kv.cell key).entries = [.live version.1 version.2] := by
      simp [KvStore.cell, Cell.entries, stored, undeleted]
    have safe : ReadsSafely (kv.cell key) carried := by simp [ReadsSafely, KvStore.cell, stored]
    rw [answersNewest_of_get (get_of_stored stored)]
    exact iff_of_true ⟨isNewerRecord_single entries, fun _ => rfl⟩ safe
  | none =>
    cases deleted : kv.deletedSet.tombstone key with
    | some deletedSeq =>
      have entries : (kv.cell key).entries = [.deleted deletedSeq] := by
        simp [KvStore.cell, Cell.entries, stored, deleted]
      have safe : ReadsSafely (kv.cell key) carried ↔ 0 < deletedSeq := by
        simp [ReadsSafely, KvStore.cell, stored, deleted]
      rw [answersNewest_of_get (get_of_tombstone stored deleted), cells_kept_iff deleted, safe]
      exact and_iff_right (isNewerRecord_single entries)
    | none =>
      have entries : (kv.cell key).entries = [] := by simp [KvStore.cell, Cell.entries, stored, deleted]
      have safe : ReadsSafely (kv.cell key) carried ↔ 0 < carried.seq ∨ carried.toSnapshotRecord =
          ⟨[], 0, false⟩ := by
        simp [ReadsSafely, KvStore.cell, stored, deleted]
      rw [answersNewest_of_get (get_of_nothing stored deleted), safe]
      simp only [implies_true, and_true]
      unfold IsNewerRecord newerRecord
      rw [entries]
      by_cases positive : 0 < carried.seq
      · simp [positive]
      · simp [positive, eq_comm]

def freshStore : KvStore := ⟨∅, 0, DeletedSet.new 1 1, 0⟩

theorem freshStore_loaded (key : Key) : freshStore.deletedSet.tombstone key = none := by
  simp [freshStore, DeletedSet.new, DeletedSet.tombstone]

/-- The switch has a record from between two writes, of which the later one deletes the key. -/
theorem recordRead_answersNewest_iff_deleted :
    let history : List Write :=
      [.put ⟨1, 0, 0, 0⟩ [6] 2 false, .put ⟨2, 0, 0, 0⟩ [8] 4 false, .remove ⟨1, 0, 0, 0⟩ 5 false]
    AnswersNewest (history.foldl Write.apply freshStore) 0 ⟨1, 0, 0, 0⟩ ⟨⟨[7], 3, true⟩, by decide⟩ := by
  intro history
  refine (recordRead_answersNewest_iff freshStore freshStore_loaded history 0 _ _).mpr ?_
  have deleted : (history.foldl Write.apply freshStore).cell ⟨1, 0, 0, 0⟩ = ⟨none, some 5⟩ := by decide +kernel
  rw [deleted]
  show 0 < 5
  decide

/-- A read removes a tombstone with number 0, and the record of a packet with number 0 loses against nothing. -/
theorem recordRead_with_number_zero :
    (∃ kv, kv = [Write.remove ⟨1, 0, 0, 0⟩ 0 false].foldl Write.apply freshStore ∧
        (kv.cell ⟨1, 0, 0, 0⟩).tombstone = some 0 ∧
        ((serveRecordRead kv 0 ⟨1, 0, 0, 0⟩ ⟨⟨[7], 3, true⟩, by decide⟩).2.cell ⟨1, 0, 0, 0⟩).tombstone = none) ∧
      freshStore.cell ⟨1, 0, 0, 0⟩ = ⟨none, none⟩ ∧
      (serveRecordRead freshStore 0 ⟨1, 0, 0, 0⟩ ⟨⟨[7], 0, true⟩, by decide⟩).1 =
        .getResponseSeq ⟨1, 0, 0, 0⟩ ⟨[], 0, false⟩ 0 := by
  refine ⟨⟨_, rfl, ?_⟩, ?_⟩
  · decide +kernel
  · decide +kernel

end FarReach
