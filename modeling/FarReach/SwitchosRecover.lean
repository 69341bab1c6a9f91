import FarReach.KvStore
import FarReach.Loops

namespace FarReach

open Function

/-- The part of the configuration `switchos` reads: the logical servers of each physical server, the
pipeline each physical server is behind, and the slots of a pipeline. Slot indexes are `uint16_t`. -/
structure Topology where
  serverLogicalIdxesList : List (List Nat)
  serverPipeidxes : List Nat
  switchKvBucketNum : Nat
  indexable : switchKvBucketNum < 2 ^ 16

namespace Topology

/-- The search for `tmp_server_physical_idx`. The `break` leaves the inner loop only, so the last
physical server with the logical one is taken. -/
def physicalIdx (topology : Topology) (serveridx : Nat) : Option Nat :=
  topology.serverLogicalIdxesList.zipIdx.foldl
    (fun found item => if item.1.contains serveridx then some item.2 else found) none

def pipeidx (topology : Topology) (serveridx : Nat) : Option Nat := do
  let physicalIdx ← topology.physicalIdx serveridx
  topology.serverPipeidxes[physicalIdx]?

end Topology

/-- The cache metadata of one pipeline: `switchos_perpipeline_cached_keyarray`, `_serveridxarray` and
`_empty_index`. -/
structure CachedPipeline where
  keyarray : Nat → Key
  serveridxarray : Nat → Nat
  emptyIndex : Nat

/-- The cache metadata of `switchos`. -/
structure SwitchosCache where
  keyidxMap : Std.ExtTreeMap Key Nat
  perpipeline : Nat → CachedPipeline

def SwitchosCache.prepared : SwitchosCache := ⟨∅, fun _ => ⟨fun _ => ⟨0, 0, 0, 0⟩, fun _ => 0, 0⟩⟩

/-- The packets `recover` sends to the reflector and to the ptf server. -/
inductive RecoverMessage where
  | cachePopInswitch (key : Key) (val : Val) (seq freeidx : Nat) (stat : Bool)
  | addCacheLookup (key : Key) (freeidx : Nat)
  | setvalidInswitch (key : Key) (idx validvalue : Nat)
  | writeallseq (maxseq : Nat)

/-- The state of `recover`: metadata, `maxseq`, and what has been sent. -/
structure SwitchosRecovery where
  cache : SwitchosCache
  maxseq : Nat
  sent : List RecoverMessage

namespace SwitchosRecovery

def updateMaxseq (state : SwitchosRecovery) (seq : Nat) : SwitchosRecovery :=
  if seq > state.maxseq then { state with maxseq := seq } else state

def populate (state : SwitchosRecovery) (serveridx pipeidx freeidx : Nat) (key : Key) (record : SnapshotRecord) :
    SwitchosRecovery :=
  let pipeline := state.cache.perpipeline pipeidx
  { state with
    sent := state.sent ++ [.cachePopInswitch key record.val record.seq freeidx record.stat,
      .addCacheLookup key freeidx, .setvalidInswitch key freeidx 1]
    cache :=
      { keyidxMap := state.cache.keyidxMap.insertIfNew key freeidx
        perpipeline := update state.cache.perpipeline pipeidx
          { keyarray := update pipeline.keyarray freeidx key
            serveridxarray := update pipeline.serveridxarray freeidx serveridx
            emptyIndex := pipeline.emptyIndex + 1 } } }

/-- The loop over the records of one server, left by `break` when the pipeline is full. -/
def recoverRecords (topology : Topology) (serveridx pipeidx : Nat) :
    List (Key × SnapshotRecord) → SwitchosRecovery → SwitchosRecovery
  | [], state => state
  | (key, record) :: rest, state =>
    let freeidx := (state.cache.perpipeline pipeidx).emptyIndex % 2 ^ 16
    let state := state.updateMaxseq record.seq
    if freeidx ≥ topology.switchKvBucketNum then state
    else recoverRecords topology serveridx pipeidx rest (state.populate serveridx pipeidx freeidx key record)

end SwitchosRecovery

/-- The records of one server in the in-switch snapshot data. -/
structure SnapshotServer where
  serveridx : Nat
  records : List (Key × SnapshotRecord)

/-- A file of the server-side directory. -/
inductive DirectoryEntry where
  | maxseqFile (maxseq : Nat)
  | otherFile

/-- `deserialize_perserver_maxseq_files`. The vector is passed by value: what is returned here is the
callee's copy, which its caller does not see. -/
def deserializePerserverMaxseqFiles (directory : List DirectoryEntry) (maxseqarray : List Nat) : List Nat :=
  directory.foldl
    (fun array entry =>
      match entry with
      | .maxseqFile maxseq => array ++ [maxseq]
      | .otherFile => array) maxseqarray

/-- `recover` of `switchos.c` once the snapshot data is read; an unknown server aborts. -/
def recoverSwitchos (topology : Topology) (snapshot : List SnapshotServer) (directory : List DirectoryEntry) :
    Option SwitchosRecovery := do
  let state ← snapshot.foldlM
    (fun state server => do
      let pipeidx ← topology.pipeidx server.serveridx
      some (state.recoverRecords topology server.serveridx pipeidx server.records))
    ⟨.prepared, 0, []⟩
  let perserverMaxseq : List Nat := []
  let _ := deserializePerserverMaxseqFiles directory perserverMaxseq
  let state := perserverMaxseq.foldl SwitchosRecovery.updateMaxseq state
  some { state with sent := state.sent ++ [.writeallseq state.maxseq] }

@[simp] theorem SwitchosRecovery.maxseq_updateMaxseq (state : SwitchosRecovery) (seq : Nat) :
    (state.updateMaxseq seq).maxseq = max state.maxseq seq := by
  unfold updateMaxseq
  split <;> simp <;> omega

@[simp] theorem SwitchosRecovery.cache_updateMaxseq (state : SwitchosRecovery) (seq : Nat) :
    (state.updateMaxseq seq).cache = state.cache := by
  unfold updateMaxseq
  split <;> rfl

def SwitchosRecovery.used (state : SwitchosRecovery) (pipeidx : Nat) : Nat :=
  (state.cache.perpipeline pipeidx).emptyIndex

@[simp] theorem SwitchosRecovery.used_updateMaxseq (state : SwitchosRecovery) (seq : Nat) :
    (state.updateMaxseq seq).used = state.used := by
  unfold used
  rw [cache_updateMaxseq]

@[simp] theorem SwitchosRecovery.used_populate (state : SwitchosRecovery) (serveridx pipeidx freeidx : Nat)
    (key : Key) (record : SnapshotRecord) :
    (state.populate serveridx pipeidx freeidx key record).used =
      update state.used pipeidx (state.used pipeidx + 1) := by
  funext other
  by_cases same : other = pipeidx
  · subst same
    simp [used, populate]
  · simp [used, populate, same]

/-- The records of a server that are met before the loop stops: one more than there are free slots. -/
theorem SwitchosRecovery.recoverRecords_spec (topology : Topology) (serveridx pipeidx : Nat)
    (records : List (Key × SnapshotRecord)) (state : SwitchosRecovery)
    (inside : state.used pipeidx ≤ topology.switchKvBucketNum) :
    (state.recoverRecords topology serveridx pipeidx records).maxseq =
        ((records.take (topology.switchKvBucketNum - state.used pipeidx + 1)).map (·.2.seq)).foldl max state.maxseq ∧
      (state.recoverRecords topology serveridx pipeidx records).used =
        update state.used pipeidx
          (min topology.switchKvBucketNum (state.used pipeidx + records.length)) := by
  have indexable := topology.indexable
  induction records generalizing state with
  | nil =>
    refine ⟨rfl, ?_⟩
    simp [recoverRecords, inside]
  | cons item rest ih =>
    obtain ⟨key, record⟩ := item
    have untruncated : (state.cache.perpipeline pipeidx).emptyIndex % 2 ^ 16 = state.used pipeidx :=
      Nat.mod_eq_of_lt (inside.trans_lt indexable)
    simp only [recoverRecords, untruncated]
    by_cases full : topology.switchKvBucketNum ≤ state.used pipeidx
    · have noRoom : topology.switchKvBucketNum - state.used pipeidx = 0 := by omega
      rw [if_pos full, noRoom]
      refine ⟨by simp, ?_⟩
      have filled : min topology.switchKvBucketNum (state.used pipeidx + ((key, record) :: rest).length) =
          state.used pipeidx := by omega
      rw [filled, update_eq_self, used_updateMaxseq]
    · rw [if_neg full]
      obtain ⟨maxseq, used⟩ :=
        ih ((state.updateMaxseq record.seq).populate serveridx pipeidx (state.used pipeidx) key record) (by
          simp only [used_populate, used_updateMaxseq, update_self]
          omega)
      rw [maxseq, used]
      simp only [used_populate, used_updateMaxseq, update_self, update_idem]
      have left : topology.switchKvBucketNum - (state.used pipeidx + 1) + 1 =
          topology.switchKvBucketNum - state.used pipeidx := by omega
      refine ⟨?_, ?_⟩
      · rw [left, List.take_succ_cons, List.map_cons, List.foldl_cons]
        simp [populate]
      · rw [List.length_cons, Nat.add_assoc, Nat.add_comm 1]

/-- The snapshot records `recover` looks at, given the records met in each pipeline before: of each
server as many as its pipeline has slots left, and one more. -/
def reachedRecords (topology : Topology) : (Nat → Nat) → List SnapshotServer → List (Key × SnapshotRecord)
  | _, [] => []
  | before, server :: rest =>
    match topology.pipeidx server.serveridx with
    | none => []
    | some pipeidx =>
      server.records.take (topology.switchKvBucketNum - before pipeidx + 1) ++
        reachedRecords topology (update before pipeidx (before pipeidx + server.records.length)) rest

def Hosted (topology : Topology) (snapshot : List SnapshotServer) : Prop :=
  ∀ server ∈ snapshot, ∃ pipeidx, topology.pipeidx server.serveridx = some pipeidx

theorem recoverServers_spec (topology : Topology) (snapshot : List SnapshotServer) (before : Nat → Nat)
    (state : SwitchosRecovery) (hosted : Hosted topology snapshot)
    (used : ∀ pipeidx, state.used pipeidx = min topology.switchKvBucketNum (before pipeidx)) :
    ∃ final, snapshot.foldlM
        (fun state server => do
          let pipeidx ← topology.pipeidx server.serveridx
          some (SwitchosRecovery.recoverRecords topology server.serveridx pipeidx server.records state))
        state = some final ∧
      final.maxseq = ((reachedRecords topology before snapshot).map (·.2.seq)).foldl max state.maxseq := by
  induction snapshot generalizing before state with
  | nil => exact ⟨state, rfl, rfl⟩
  | cons server rest ih =>
    obtain ⟨pipeidx, found⟩ := hosted server List.mem_cons_self
    have here := used pipeidx
    obtain ⟨maxseq, usedAfter⟩ := SwitchosRecovery.recoverRecords_spec topology server.serveridx pipeidx
      server.records state (by omega)
    obtain ⟨final, ran, finalMaxseq⟩ := ih
      (update before pipeidx (before pipeidx + server.records.length))
      (SwitchosRecovery.recoverRecords topology server.serveridx pipeidx server.records state)
      (fun other member => hosted other (List.mem_cons_of_mem _ member)) (by
        intro other
        rw [usedAfter]
        by_cases same : other = pipeidx
        · subst same
          simp only [update_self]
          omega
        · simp only [update_of_ne same]
          exact used other)
    refine ⟨final, by simpa [found] using ran, ?_⟩
    have slots : topology.switchKvBucketNum - state.used pipeidx = topology.switchKvBucketNum - before pipeidx := by
      omega
    simp only [finalMaxseq, maxseq, slots, reachedRecords, found, List.map_append, List.foldl_append]

/-- `recover` sends the largest sequence number among the records it looks at; the files of the servers
have no part in it. -/
theorem recoverSwitchos_spec {topology : Topology} {snapshot : List SnapshotServer}
    (hosted : Hosted topology snapshot) (directory : List DirectoryEntry) :
    ∃ final, recoverSwitchos topology snapshot directory = some final ∧ final.sent.getLast? =
      some (.writeallseq (((reachedRecords topology (fun _ => 0) snapshot).map (·.2.seq)).foldl max 0)) := by
  obtain ⟨final, ran, maxseq⟩ := recoverServers_spec topology snapshot (fun _ => 0) ⟨.prepared, 0, []⟩ hosted
    (fun _ => by simp [SwitchosRecovery.used, SwitchosCache.prepared])
  refine ⟨{ final with sent := final.sent ++ [.writeallseq final.maxseq] }, ?_, ?_⟩
  · unfold recoverSwitchos
    rw [ran]
    rfl
  · simp [maxseq]

/-- The number `recover` writes into all sequence registers is at least every one in the snapshot
records and in the files of the servers. -/
def SeqsKeepGrowing (topology : Topology) (snapshot : List SnapshotServer) (directory : List DirectoryEntry) : Prop :=
  ∃ final maxseq, recoverSwitchos topology snapshot directory = some final ∧
    final.sent.getLast? = some (.writeallseq maxseq) ∧
    (∀ server ∈ snapshot, ∀ item ∈ server.records, item.2.seq ≤ maxseq) ∧
    ∀ recorded, .maxseqFile recorded ∈ directory → recorded ≤ maxseq

/-- No sequence number of a snapshot record or of a server's file is above all those of the records
`recover` looks at. -/
def ReachedCover (topology : Topology) (snapshot : List SnapshotServer) (directory : List DirectoryEntry) : Prop :=
  ∀ seq, ((∃ server ∈ snapshot, ∃ item ∈ server.records, item.2.seq = seq) ∨ .maxseqFile seq ∈ directory) →
    seq = 0 ∨ ∃ item ∈ reachedRecords topology (fun _ => 0) snapshot, seq ≤ item.2.seq

/-- The sequence numbers of the switch do not go back across recovery exactly when no snapshot record
and no file of a server is above all the records that are looked at; the files themselves are read into
a vector that is thrown away. -/
theorem recovered_seqs_keep_growing {topology : Topology} {snapshot : List SnapshotServer}
    (hosted : Hosted topology snapshot) (directory : List DirectoryEntry) :
    SeqsKeepGrowing topology snapshot directory ↔ ReachedCover topology snapshot directory := by
  obtain ⟨final, ran, sent⟩ := recoverSwitchos_spec hosted directory
  have reached : ∀ seq, seq ≤ ((reachedRecords topology (fun _ => 0) snapshot).map (·.2.seq)).foldl max 0 ↔
      seq = 0 ∨ ∃ item ∈ reachedRecords topology (fun _ => 0) snapshot, seq ≤ item.2.seq := by
    intro seq
    rw [Loops.le_foldl_max_iff, Nat.le_zero]
    simp
  constructor
  · rintro ⟨final', maxseq, ran', sent', records, files⟩ seq source
    cases ran.symm.trans ran'
    cases sent.symm.trans sent'
    refine (reached seq).mp ?_
    rcases source with ⟨server, member, item, inside, rfl⟩ | file
    · exact records server member item inside
    · exact files seq file
  · intro cover
    refine ⟨final, _, ran, sent, ?_, ?_⟩
    · intro server member item inside
      exact (reached _).mpr (cover _ (Or.inl ⟨server, member, item, inside, rfl⟩))
    · intro recorded file
      exact (reached _).mpr (cover _ (Or.inr file))

def singleSlot : Topology := ⟨[[0]], [0], 1, by decide⟩

/-- The second record does not fit but is still looked at. -/
theorem recovered_seqs_keep_growing_two_records :
    SeqsKeepGrowing singleSlot
      [⟨0, [(⟨1, 0, 0, 0⟩, ⟨[7], 3, true⟩), (⟨2, 0, 0, 0⟩, ⟨[8], 9, true⟩)]⟩] [.maxseqFile 6, .otherFile] := by
  refine (recovered_seqs_keep_growing ?_ _).mpr ?_
  · intro server member
    rw [List.mem_singleton.mp member]
    exact ⟨0, by decide⟩
  · rintro seq (⟨server, member, item, inside, rfl⟩ | file)
    · simp only [List.mem_singleton] at member
      subst member
      simp only [List.mem_cons, List.not_mem_nil, or_false] at inside
      rcases inside with rfl | rfl
      · exact Or.inr ⟨_, List.mem_cons_self, le_rfl⟩
      · exact Or.inr ⟨_, List.mem_cons_of_mem _ List.mem_cons_self, le_rfl⟩
    · have recorded : seq = 6 := by simpa using file
      subst recorded
      exact Or.inr ⟨_, List.mem_cons_of_mem _ List.mem_cons_self, by decide⟩

/-- A server recorded sequence number 7 after the snapshot; recovery restarts the switch at 3. -/
theorem recovered_seqs_go_back :
    ¬ SeqsKeepGrowing singleSlot [⟨0, [(⟨1, 0, 0, 0⟩, ⟨[7], 3, true⟩)]⟩] [.maxseqFile 7] := by
  rintro ⟨final, maxseq, ran, sent, _, files⟩
  have hosted : Hosted singleSlot [⟨0, [(⟨1, 0, 0, 0⟩, ⟨[7], 3, true⟩)]⟩] := by
    intro server member
    rw [List.mem_singleton.mp member]
    exact ⟨0, by decide⟩
  obtain ⟨final', ran', sent'⟩ := recoverSwitchos_spec hosted [.maxseqFile 7]
  cases ran.symm.trans ran'
  have written : RecoverMessage.writeallseq maxseq = .writeallseq 3 := Option.some.inj (sent.symm.trans sent')
  cases written
  have bound := files 7 List.mem_cons_self
  omega

end FarReach
