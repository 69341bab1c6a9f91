import FarReach.KvStore
import FarReach.Loops

namespace FarReach

open Versioned

/-- The part of the configuration `recover` reads: the hash partitions, split evenly over the
logical servers, and the logical servers hosted by this physical server. -/
structure Deployment where
  switchPartitionCount : Nat
  maxServerTotalLogicalNum : Nat
  serverLogicalIdxes : List Nat
  partitions_pos : 0 < switchPartitionCount
  servers_divide : maxServerTotalLogicalNum ∣ switchPartitionCount

/-- The records of one backup file, or of one server's part of the in-switch snapshot. -/
abbrev BackupFile := List (Key × SnapshotRecord)

/-- `std::map<netreach_key_t, snapshot_record_t>`. -/
abbrev BackupMap := Std.ExtTreeMap Key SnapshotRecord

namespace Deployment

/-- The local index of the logical server that owns a key, if this physical server hosts it. -/
def owner (deployment : Deployment) (key : Key) : Option Nat := do
  let tmpserveridx ← key.getHashpartitionIdx deployment.switchPartitionCount
    deployment.maxServerTotalLogicalNum
  deployment.serverLogicalIdxes.findIdx? (fun idx => tmpserveridx == idx)

/-- One round of either aggregation loop: `insert` keeps a record that is already there. -/
def aggregate (deployment : Deployment) (backupmaps : List BackupMap) (item : Key × SnapshotRecord) :
    Option (List BackupMap) := do
  let tmpserveridx ← item.1.getHashpartitionIdx deployment.switchPartitionCount
    deployment.maxServerTotalLogicalNum
  match deployment.serverLogicalIdxes.findIdx? (fun idx => tmpserveridx == idx) with
  | some tmplistidx => some (backupmaps.modify tmplistidx (fun map => map.insertIfNew item.1 item.2))
  | none => some backupmaps

/-- `recover` of `server.c`: the client backups first, then the in-switch snapshot. -/
def recover (deployment : Deployment) (perclient perserver : List BackupFile) : Option (List BackupMap) := do
  let backupmaps := List.replicate deployment.serverLogicalIdxes.length ∅
  let backupmaps ← perclient.foldlM (fun maps file => file.foldlM deployment.aggregate maps) backupmaps
  perserver.foldlM (fun maps file => file.foldlM deployment.aggregate maps) backupmaps

end Deployment

def replayRecord (kv : KvStore) (item : Key × SnapshotRecord) : KvStore :=
  if item.2.stat then (kv.put item.1 item.2.val item.2.seq true).2
  else (kv.remove item.1 item.2.seq true).2

/-- `run_server_recover`: the aggregated records are replayed in key order with `checkseq`. -/
def runServerRecover (backupmap : BackupMap) (kv : KvStore) : KvStore :=
  backupmap.toList.foldl replayRecord kv

/-- The backed-up records of a key in the order `recover` meets them. -/
def backupsOf (key : Key) (items : List (Key × SnapshotRecord)) : List SnapshotRecord :=
  items.filterMap fun item => if item.1 = key then some item.2 else none

theorem backupsOf_append (key : Key) (left right : List (Key × SnapshotRecord)) :
    backupsOf key (left ++ right) = backupsOf key left ++ backupsOf key right :=
  List.filterMap_append

theorem mem_backupsOf {key : Key} {items : List (Key × SnapshotRecord)} {record : SnapshotRecord} :
    record ∈ backupsOf key items ↔ (key, record) ∈ items := by
  simp only [backupsOf, List.mem_filterMap, Option.ite_none_right_eq_some, Option.some.injEq]
  constructor
  · rintro ⟨item, member, rfl, rfl⟩
    exact member
  · intro member
    exact ⟨_, member, rfl, rfl⟩

theorem head?_backupsOf_toList (backupmap : BackupMap) (key : Key) :
    (backupsOf key backupmap.toList).head? = backupmap[key]? := by
  have listed : ∀ record, record ∈ backupsOf key backupmap.toList ↔ backupmap[key]? = some record :=
    fun record => mem_backupsOf.trans Std.ExtTreeMap.mem_toList_iff_getElem?_eq_some
  cases found : backupsOf key backupmap.toList with
  | nil =>
    cases held : backupmap[key]? with
    | none => rfl
    | some record => simpa [found] using (listed record).mpr held
  | cons record rest => exact ((listed record).mp (by simp [found])).symm

/-- The invariant of the aggregation loops: every map holds, for each key its server owns, the
first record met so far. -/
def Aggregated (deployment : Deployment) (done : List (Key × SnapshotRecord))
    (backupmaps : List BackupMap) : Prop :=
  backupmaps.length = deployment.serverLogicalIdxes.length ∧
    ∀ idx map key, backupmaps[idx]? = some map → deployment.owner key = some idx →
      map[key]? = (backupsOf key done).head?

/-- A round never aborts, and touches only the map of the server that owns the key. -/
theorem aggregate_eq (deployment : Deployment) (backupmaps : List BackupMap) (item : Key × SnapshotRecord) :
    deployment.aggregate backupmaps item =
      some (match deployment.owner item.1 with
        | some idx => backupmaps.modify idx (fun map => map.insertIfNew item.1 item.2)
        | none => backupmaps) := by
  obtain ⟨serveridx, partition⟩ := Option.isSome_iff_exists.mp
    (item.1.getHashpartitionIdx_isSome deployment.partitions_pos deployment.servers_divide)
  unfold Deployment.aggregate Deployment.owner
  rw [partition]
  simp only [Option.bind_eq_bind, Option.bind_some]
  split <;> rfl

theorem aggregate_aggregated (deployment : Deployment) (done : List (Key × SnapshotRecord))
    (backupmaps : List BackupMap) (item : Key × SnapshotRecord)
    (before : Aggregated deployment done backupmaps) :
    ∃ next, deployment.aggregate backupmaps item = some next ∧
      Aggregated deployment (done ++ [item]) next := by
  obtain ⟨length, lookups⟩ := before
  rw [aggregate_eq]
  refine ⟨_, rfl, ?_, ?_⟩
  · split
    · rw [List.length_modify, length]
    · exact length
  · intro idx map key atIdx owned
    rw [backupsOf_append, List.head?_append]
    by_cases same : item.1 = key
    · subst same
      simp only [owned, List.getElem?_modify, if_true, Option.map_eq_map, Option.map_eq_some_iff] at atIdx
      obtain ⟨old, atIdx, rfl⟩ := atIdx
      rw [OrderedMap.lookup_insertIfNew, if_pos rfl, lookups idx old item.1 atIdx owned]
      simp [backupsOf]
    · have skipped : backupsOf key [item] = [] := by simp [backupsOf, same]
      rw [skipped, List.head?_nil, Option.or_none]
      split at atIdx
      · rename_i target _
        simp only [List.getElem?_modify, Option.map_eq_map, Option.map_eq_some_iff] at atIdx
        obtain ⟨old, atIdx, rfl⟩ := atIdx
        rw [← lookups idx old key atIdx owned]
        split
        · rw [OrderedMap.lookup_insertIfNew, if_neg (Ne.symm same)]
        · rfl
      · exact lookups idx map key atIdx owned

/-- `recover` never aborts and keeps, for each owned key, the record it meets first. -/
theorem recover_aggregated (deployment : Deployment) (perclient perserver : List BackupFile) :
    ∃ backupmaps, deployment.recover perclient perserver = some backupmaps ∧
      Aggregated deployment (perclient.flatten ++ perserver.flatten) backupmaps := by
  have fresh : Aggregated deployment [] (List.replicate deployment.serverLogicalIdxes.length ∅) := by
    have allEmpty : ∀ (idx : Nat) (map : BackupMap),
        (List.replicate deployment.serverLogicalIdxes.length (∅ : BackupMap))[idx]? = some map →
          map = ∅ := by
      intro idx map atIdx
      rw [List.getElem?_replicate] at atIdx
      split at atIdx
      · exact (Option.some.inj atIdx).symm
      · cases atIdx
    refine ⟨List.length_replicate, ?_⟩
    intro idx map key atIdx _
    rw [allEmpty idx map atIdx]
    simp [backupsOf]
  obtain ⟨clients, ranClients, afterClients⟩ := Loops.foldlM_nested_some_of_invariant deployment.aggregate
    (Aggregated deployment) (aggregate_aggregated deployment) perclient [] _ fresh
  obtain ⟨backupmaps, ranServers, afterServers⟩ := Loops.foldlM_nested_some_of_invariant deployment.aggregate
    (Aggregated deployment) (aggregate_aggregated deployment) perserver _ clients afterClients
  refine ⟨backupmaps, ?_, afterServers⟩
  unfold Deployment.recover
  simp only [ranClients, Option.bind_eq_bind, Option.bind_some]
  exact ranServers

theorem cell_replayRecord_forgets (kv : KvStore) (item : Key × SnapshotRecord) (key : Key) :
    ((replayRecord kv item).cell key).Forgets
      (if key = item.1 then (kv.cell item.1).apply item.2.entry true else kv.cell key) := by
  unfold replayRecord SnapshotRecord.entry
  split
  · rw [KvStore.cell_put]
    exact Cell.Forgets.refl _
  · exact KvStore.cell_remove_forgets kv item.1 key item.2.seq true

theorem cell_replayRecord_of_room (kv : KvStore) (item : Key × SnapshotRecord) (key : Key)
    (room : item.2.stat = false → kv.deletedSet.size < kv.deletedSet.maxSize) :
    (replayRecord kv item).cell key =
      if key = item.1 then (kv.cell item.1).apply item.2.entry true else kv.cell key := by
  unfold replayRecord SnapshotRecord.entry
  split
  · exact KvStore.cell_put kv item.1 key item.2.val item.2.seq true
  · rename_i deleted
    exact KvStore.cell_remove_of_room kv item.1 key item.2.seq true (room (by simpa using deleted))

def deletions (items : List (Key × SnapshotRecord)) : Nat := items.countP (fun item => !item.2.stat)

/-- There is room in the tombstone set for all the deletions of a replay. -/
def Fits (kv : KvStore) (items : List (Key × SnapshotRecord)) : Prop :=
  kv.deletedSet.size + deletions items ≤ kv.deletedSet.maxSize

theorem room_of_fits {kv : KvStore} {item : Key × SnapshotRecord} {rest : List (Key × SnapshotRecord)}
    (fits : Fits kv (item :: rest)) (deleted : item.2.stat = false) :
    kv.deletedSet.size < kv.deletedSet.maxSize := by
  unfold Fits deletions at fits
  rw [List.countP_cons] at fits
  simp only [deleted, Bool.not_false, if_true] at fits
  omega

theorem fits_replayRecord {kv : KvStore} {item : Key × SnapshotRecord} {rest : List (Key × SnapshotRecord)}
    (fits : Fits kv (item :: rest)) : Fits (replayRecord kv item) rest := by
  unfold Fits deletions at fits ⊢
  unfold replayRecord
  rw [List.countP_cons] at fits
  split
  · rename_i live
    have smaller := KvStore.size_put_le kv item.1 item.2.val item.2.seq true
    rw [KvStore.maxSize_put]
    omega
  · rename_i deleted
    have smaller := KvStore.size_remove_le kv item.1 item.2.seq true
    rw [KvStore.maxSize_remove]
    simp only [deleted, Bool.not_false, if_true] at fits
    omega

/-- What a replay leaves in the cell of a key, when tombstones may be evicted. -/
theorem cell_foldl_replayRecord_forgets {items : List (Key × SnapshotRecord)}
    (distinct : items.Pairwise fun left right => left.1 ≠ right.1) (kv : KvStore) (key : Key) :
    (∀ record, (backupsOf key items).head? = some record → ∃ middle : Cell Val, middle.Forgets (kv.cell key) ∧
        ((items.foldl replayRecord kv).cell key).Forgets (middle.apply record.entry true)) ∧
      ((backupsOf key items).head? = none → ((items.foldl replayRecord kv).cell key).Forgets (kv.cell key)) := by
  have loop := Loops.foldl_keyed Cell.Forgets Cell.Forgets.refl Cell.Forgets.trans KvStore.cell replayRecord
    (fun cell record => cell.apply record.entry true) (fun _ _ => True) (fun _ => trivial)
    (fun {state item _} key _ => cell_replayRecord_forgets state item key) key items kv trivial distinct
  refine ⟨fun record first => loop.1 record (mem_backupsOf.mp (List.mem_of_head? first)), fun missing => loop.2 ?_⟩
  rintro ⟨_, record⟩ member rfl
  have listed := mem_backupsOf.mpr member
  rw [List.head?_eq_none_iff.mp missing] at listed
  cases listed

/-- What a replay leaves in the cell of a key when the tombstones fit: the aggregated record applied
to it, if there is one. -/
theorem cell_runServerRecover_of_fits (backupmap : BackupMap) (kv : KvStore) (key : Key)
    (fits : Fits kv backupmap.toList) :
    (runServerRecover backupmap kv).cell key =
      (backupmap[key]?).elim (kv.cell key) (fun record => (kv.cell key).apply record.entry true) := by
  have loop := Loops.foldl_keyed (· = ·) (fun _ => rfl) Eq.trans KvStore.cell replayRecord
    (fun cell record => cell.apply record.entry true) Fits fits_replayRecord
    (fun {state item rest} key fits => cell_replayRecord_of_room state item key (room_of_fits fits)) key
      backupmap.toList kv fits (OrderedMap.toList_distinct backupmap)
  cases found : backupmap[key]? with
  | none =>
    refine loop.2 ?_
    intro item member same
    subst same
    rw [Std.ExtTreeMap.mem_toList_iff_getElem?_eq_some.mp member] at found
    cases found
  | some record =>
    obtain ⟨middle, rfl, applied⟩ := loop.1 record (Std.ExtTreeMap.mem_toList_iff_getElem?_eq_some.mpr found)
    exact applied

/-- All the versions of a key recovery can see: those of the prior database and tombstones, then
those of the client backups and of the in-switch snapshot. -/
def versionsOf (kv : KvStore) (items : List (Key × SnapshotRecord)) (key : Key) : List (Entry Val) :=
  (kv.cell key).entries ++ (backupsOf key items).map SnapshotRecord.entry

/-- Recovery of the logical server `idx` leaves each key it owns at the newest version. -/
def RestoresNewest (deployment : Deployment) (perclient perserver : List BackupFile) (idx : Nat)
    (kv : KvStore) : Prop :=
  ∃ backupmaps backupmap, deployment.recover perclient perserver = some backupmaps ∧
    backupmaps[idx]? = some backupmap ∧
    ∀ key, deployment.owner key = some idx →
      IsNewest ((runServerRecover backupmap kv).cell key).held
        (versionsOf kv (perclient.flatten ++ perserver.flatten) key)

/-- For each owned key, the newest version is the one the prior database holds, or the one of the
first record met in the client backups followed by the snapshot. -/
def NewestFirst (deployment : Deployment) (items : List (Key × SnapshotRecord)) (idx : Nat)
    (kv : KvStore) : Prop :=
  ∀ key, deployment.owner key = some idx →
    IsNewest (kv.cell key).held (versionsOf kv items key) ∨
      IsNewest ((backupsOf key items).head?.map SnapshotRecord.entry) (versionsOf kv items key)

/-- Replaying a record makes a full tombstone set give up the tombstone of a key. -/
def Evicts (kv : KvStore) (item : Key × SnapshotRecord) (key : Key) (seq : Nat) : Prop :=
  (if key = item.1 then (kv.cell item.1).apply item.2.entry true else kv.cell key).tombstone = some seq ∧
    ((replayRecord kv item).cell key).tombstone = none

/-- A key does without its tombstone if it is stored as well, or if a record of it is still to be replayed that
is not older than the tombstone, or is refused for what is stored. -/
def Dispensable (stored : Option (Val × Nat)) (seq : Nat) : Option SnapshotRecord → Prop
  | none => stored.isSome
  | some record => seq ≤ record.seq ∨ stored.any (record.seq < ·.2)

/-- Whenever a replay evicts the tombstone of a key, the key does without it. -/
def EvictsDispensable (key : Key) : KvStore → List (Key × SnapshotRecord) → Prop
  | _, [] => True
  | kv, item :: rest =>
    (∀ seq, Evicts kv item key seq →
      Dispensable ((replayRecord kv item).cell key).stored seq (backupsOf key rest).head?) ∧
    EvictsDispensable key (replayRecord kv item) rest

/-- Nothing is evicted while there is room for all the deletions that are replayed. -/
theorem evictsDispensable_of_fits {kv : KvStore} {items : List (Key × SnapshotRecord)} (fits : Fits kv items)
    (key : Key) : EvictsDispensable key kv items := by
  induction items generalizing kv with
  | nil => trivial
  | cons item rest ih =>
    refine ⟨fun seq evicts => ?_, ih (fits_replayRecord fits)⟩
    obtain ⟨expected, gone⟩ := evicts
    rw [cell_replayRecord_of_room kv item key (room_of_fits fits), expected] at gone
    cases gone

section Replay

variable {kv : KvStore} {item : Key × SnapshotRecord} {items rest : List (Key × SnapshotRecord)} {key : Key}

def replay (cell : Cell Val) (record : Option SnapshotRecord) : Cell Val :=
  record.elim cell fun record => cell.apply record.entry true

theorem replay_cons (apart : ∀ later ∈ rest, item.1 ≠ later.1) :
    replay (kv.cell key) (backupsOf key (item :: rest)).head? =
      replay (if key = item.1 then (kv.cell item.1).apply item.2.entry true else kv.cell key)
        (backupsOf key rest).head? := by
  by_cases same : key = item.1
  · subst same
    have none : backupsOf item.1 rest = [] := by
      refine List.eq_nil_iff_forall_not_mem.mpr fun record listed => ?_
      exact apart _ (mem_backupsOf.mp listed) rfl
    rw [if_pos rfl, none]
    simp [backupsOf, replay]
  · simp [backupsOf, same, Ne.symm same]

theorem SnapshotRecord.seq_entry (record : SnapshotRecord) : record.entry.seq = record.seq := by
  unfold entry
  split <;> rfl

theorem held_replay_of_dispensable {stored : Option (Val × Nat)} {seq : Nat} {later : Option SnapshotRecord}
    (dispensable : Dispensable stored seq later) :
    (replay ⟨stored, none⟩ later).held = (replay ⟨stored, some seq⟩ later).held := by
  cases later with
  | none =>
    obtain ⟨version, rfl⟩ := Option.isSome_iff_exists.mp dispensable
    rfl
  | some record =>
    simp only [replay, Option.elim_some, Cell.apply, SnapshotRecord.seq_entry]
    rcases dispensable with newer | refused
    · simp [Nat.not_lt.mpr newer]
    · obtain ⟨version, rfl, _⟩ := (Option.any_eq_true _ _).mp refused
      split_ifs <;> simp_all [Cell.held]

/-- If only dispensable tombstones are evicted, a key ends up as if none were. -/
theorem held_foldl_replayRecord (distinct : items.Pairwise fun left right => left.1 ≠ right.1)
    (dispensable : EvictsDispensable key kv items) :
    ((items.foldl replayRecord kv).cell key).held = (replay (kv.cell key) (backupsOf key items).head?).held := by
  induction items generalizing kv with
  | nil => rfl
  | cons item rest ih =>
    obtain ⟨apart, distinct⟩ := List.pairwise_cons.mp distinct
    obtain ⟨now, later⟩ := dispensable
    rw [List.foldl_cons, ih distinct later, replay_cons apart]
    obtain ⟨stored, kept | gone⟩ := cell_replayRecord_forgets kv item key
    · rw [Cell.ext stored kept]
    · unfold Evicts at now
      generalize (if key = item.1 then (kv.cell item.1).apply item.2.entry true else kv.cell key) = expected at *
      obtain ⟨_, tombstone⟩ := expected
      cases tombstone with
      | none => rw [Cell.ext stored gone]
      | some seq =>
        have dispensable := now seq ⟨rfl, gone⟩
        rw [Cell.ext (show _ = (⟨_, none⟩ : Cell Val).stored from stored) gone]
        rw [stored] at dispensable
        exact held_replay_of_dispensable dispensable

/-- Conversely, a key is not left at its newest version once a tombstone that it needs is gone. -/
theorem evictsDispensable_of_newest {versions : List (Entry Val)}
    (distinct : items.Pairwise fun left right => left.1 ≠ right.1)
    (known : (kv.cell key).entries ++ (backupsOf key items).map SnapshotRecord.entry ⊆ versions)
    (newest : IsNewest ((items.foldl replayRecord kv).cell key).held versions) :
    EvictsDispensable key kv items := by
  induction items generalizing kv with
  | nil => trivial
  | cons item rest ih =>
    obtain ⟨apart, distinct⟩ := List.pairwise_cons.mp distinct
    obtain ⟨old, backups⟩ := List.append_subset.mp known
    have laterBackups : (backupsOf key rest).map SnapshotRecord.entry ⊆ versions := by
      refine fun entry member => backups ?_
      rw [← List.singleton_append, backupsOf_append, List.map_append]
      exact List.mem_append_right _ member
    have expected : (if key = item.1 then (kv.cell item.1).apply item.2.entry true else kv.cell key).entries ⊆
        versions := by
      split
      · rename_i same
        subst same
        refine List.Subset.trans (Cell.entries_apply_subset _ _ _) (List.append_subset.mpr ⟨old, ?_⟩)
        exact List.cons_subset.mpr ⟨backups (by simp [backupsOf]), List.nil_subset _⟩
      · exact old
    have round := cell_replayRecord_forgets kv item key
    refine ⟨fun seq evicts => ?_, ih distinct
      (List.append_subset.mpr ⟨List.Subset.trans round.entries_subset expected, laterBackups⟩) newest⟩
    have lost : Entry.deleted seq ∈ versions := expected (by simp [Cell.entries, evicts.1])
    have something : ((rest.foldl replayRecord (replayRecord kv item)).cell key).held ≠ none := by
      intro nothing
      rw [List.foldl_cons, nothing] at newest
      have bare : versions = [] := newest
      simp [bare] at lost
    obtain ⟨present, absent⟩ := cell_foldl_replayRecord_forgets distinct (replayRecord kv item) key
    cases later : (backupsOf key rest).head? with
    | none =>
      obtain ⟨stored, gone⟩ := absent later
      rw [evicts.2, or_self] at gone
      unfold Dispensable
      rw [← stored, Option.isSome_iff_ne_none]
      exact fun missing => something (by simp [Cell.held, missing, gone])
    | some record =>
      obtain ⟨middle, ⟨stored, gone⟩, late⟩ := present record later
      rw [evicts.2, or_self] at gone
      refine or_iff_not_imp_right.mpr fun accepted => ?_
      have applied : middle.apply record.entry true = Cell.ofEntry record.entry := by
        simp [Cell.apply, gone, stored, SnapshotRecord.seq_entry, accepted]
      rw [applied] at late
      have held := late.held_eq.resolve_left something
      rw [List.foldl_cons, held, Cell.held_ofEntry] at newest
      exact record.seq_entry ▸ newest.2 _ lost

end Replay

variable {deployment : Deployment} {idx : Nat} {perclient perserver : List BackupFile}

theorem newestFirst_of_restores {kv : KvStore} (restores : RestoresNewest deployment perclient perserver idx kv) :
    NewestFirst deployment (perclient.flatten ++ perserver.flatten) idx kv := by
  obtain ⟨backupmaps, backupmap, recovered, atIdx, newest⟩ := restores
  obtain ⟨_, recovered', aggregated⟩ := recover_aggregated deployment perclient perserver
  cases recovered.symm.trans recovered'
  intro key owned
  have newest := newest key owned
  obtain ⟨present, absent⟩ := cell_foldl_replayRecord_forgets (OrderedMap.toList_distinct backupmap) kv key
  rw [← aggregated.2 idx backupmap key atIdx owned, ← head?_backupsOf_toList]
  have reported : ((runServerRecover backupmap kv).cell key).held = none ∨
      ((runServerRecover backupmap kv).cell key).held = (kv.cell key).held ∨
      ((runServerRecover backupmap kv).cell key).held =
        (backupsOf key backupmap.toList).head?.map SnapshotRecord.entry := by
    cases found : (backupsOf key backupmap.toList).head? with
    | none => exact (absent found).held_eq.imp_right Or.inl
    | some record =>
      obtain ⟨middle, early, late⟩ := present record found
      exact Cell.held_of_forgets early late
  rcases reported with nothing | prior | first
  · rw [nothing] at newest
    have bare : versionsOf kv (perclient.flatten ++ perserver.flatten) key = [] := newest
    have empty : (kv.cell key).held = none :=
      (Cell.held_eq_none_iff _).mpr (List.append_eq_nil_iff.mp bare).1
    exact Or.inl (by rwa [empty])
  · exact Or.inl (by rwa [prior] at newest)
  · exact Or.inr (by rwa [first] at newest)

/-- Applying the first backup record keeps a read at the newest version, whether that is the record
itself or what the cell held before. -/
theorem isNewest_apply {cell : Cell Val} {first : Entry Val} {versions : List (Entry Val)}
    (known : cell.entries ⊆ versions) (member : first ∈ versions)
    (newest : IsNewest cell.held versions ∨ IsNewest (some first) versions) :
    IsNewest (cell.apply first true).held versions := by
  by_cases latest : ∀ other ∈ versions, other.seq ≤ first.seq
  · rw [Cell.apply_of_newest true (fun old mem => latest old (known mem)), Cell.held_ofEntry]
    exact ⟨member, latest⟩
  · have prior : IsNewest cell.held versions := newest.resolve_right fun isFirst => latest isFirst.2
    cases held : cell.held with
    | none =>
      rw [held] at prior
      have bare : versions = [] := prior
      rw [bare] at member
      cases member
    | some current =>
      rw [held] at prior
      have older : first.seq < current.seq := by
        by_contra notOlder
        exact latest fun other mem => (prior.2 other mem).trans (Nat.le_of_not_lt notOlder)
      rw [Cell.held_apply_of_older held older]
      exact prior

/-- The replay at the logical server `idx` evicts no tombstone that a key it owns needs. -/
def EvictsHarmlessly (deployment : Deployment) (perclient perserver : List BackupFile) (idx : Nat)
    (kv : KvStore) : Prop :=
  ∀ backupmaps backupmap, deployment.recover perclient perserver = some backupmaps →
    backupmaps[idx]? = some backupmap →
    ∀ key, deployment.owner key = some idx → EvictsDispensable key kv backupmap.toList

theorem restores_of_newestFirst {kv : KvStore} (hosted : idx < deployment.serverLogicalIdxes.length)
    (first : NewestFirst deployment (perclient.flatten ++ perserver.flatten) idx kv)
    (harmless : EvictsHarmlessly deployment perclient perserver idx kv) :
    RestoresNewest deployment perclient perserver idx kv := by
  obtain ⟨backupmaps, recovered, aggregated⟩ := recover_aggregated deployment perclient perserver
  have inside : idx < backupmaps.length := by rwa [aggregated.1]
  have atIdx : backupmaps[idx]? = some backupmaps[idx] := List.getElem?_eq_getElem inside
  refine ⟨backupmaps, backupmaps[idx], recovered, atIdx, ?_⟩
  intro key owned
  have newest := first key owned
  have lookup := aggregated.2 idx _ key atIdx owned
  unfold runServerRecover
  rw [held_foldl_replayRecord (OrderedMap.toList_distinct _) (harmless _ _ recovered atIdx key owned),
    head?_backupsOf_toList, lookup]
  cases backups : backupsOf key (perclient.flatten ++ perserver.flatten) with
  | nil =>
    rw [backups] at newest
    rcases newest with prior | bare
    · exact prior
    · have bare : versionsOf kv (perclient.flatten ++ perserver.flatten) key = [] := bare
      have empty : (kv.cell key).held = none :=
        (Cell.held_eq_none_iff _).mpr (List.append_eq_nil_iff.mp bare).1
      simp only [List.head?_nil, replay, Option.elim_none, empty]
      exact bare
  | cons record rest =>
    rw [backups] at newest
    refine isNewest_apply (List.subset_append_left _ _) ?_ newest
    unfold versionsOf
    rw [backups]
    simp

theorem evictsHarmlessly_of_restores {kv : KvStore}
    (restores : RestoresNewest deployment perclient perserver idx kv) :
    EvictsHarmlessly deployment perclient perserver idx kv := by
  obtain ⟨backupmaps, backupmap, recovered, atIdx, newest⟩ := restores
  intro others other again atOther key owned
  cases recovered.symm.trans again
  cases atIdx.symm.trans atOther
  obtain ⟨_, recovered', aggregated⟩ := recover_aggregated deployment perclient perserver
  cases recovered.symm.trans recovered'
  refine evictsDispensable_of_newest (OrderedMap.toList_distinct backupmap) ?_ (newest key owned)
  refine List.append_subset.mpr ⟨List.subset_append_left _ _, ?_⟩
  -- the only record of the key that is replayed is the first one of the files
  intro entry member
  obtain ⟨record, listed, rfl⟩ := List.mem_map.mp member
  have found := Std.ExtTreeMap.mem_toList_iff_getElem?_eq_some.mp (mem_backupsOf.mp listed)
  rw [aggregated.2 idx backupmap key atIdx owned] at found
  exact List.mem_append_right _ (List.mem_map_of_mem (List.mem_of_head? found))

/-- Recovery restores the newest version of every owned key exactly if the newest version is the one the
database already holds or the one met first, and the replay evicts no tombstone that is still needed. -/
theorem recover_restores_newest (deployment : Deployment) (perclient perserver : List BackupFile)
    (idx : Fin deployment.serverLogicalIdxes.length) (kv : KvStore) :
    RestoresNewest deployment perclient perserver idx kv ↔
      NewestFirst deployment (perclient.flatten ++ perserver.flatten) idx kv ∧
        EvictsHarmlessly deployment perclient perserver idx kv :=
  ⟨fun restores => ⟨newestFirst_of_restores restores, evictsHarmlessly_of_restores restores⟩,
    fun holds => restores_of_newestFirst idx.isLt holds.1 holds.2⟩

def singleServer : Deployment := ⟨1, 1, [0], by decide, by decide⟩

theorem owner_singleServer (key : Key) : singleServer.owner key = some 0 := by
  simp [singleServer, Deployment.owner, Key.getHashpartitionIdx, Nat.mod_one]

/-- Two clients hold a backup of the same key; the file read first has the older one, and recovery
installs it over an empty database. -/
theorem recover_keeps_stale_backup :
    ¬ RestoresNewest singleServer [[(⟨1, 0, 0, 0⟩, ⟨[7], 1, true⟩)], [(⟨1, 0, 0, 0⟩, ⟨[8], 2, true⟩)]] []
      0 ⟨∅, 0, DeletedSet.new 10 100, 0⟩ := by
  intro restores
  have first := newestFirst_of_restores restores ⟨1, 0, 0, 0⟩ (owner_singleServer _)
  revert first
  decide

end FarReach
