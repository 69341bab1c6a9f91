import FarReach.DeletedSet
import FarReach.VersionedCell

namespace FarReach

open Versioned DeletedSet

/-- The bytes of a `Val`; `val_length` is the length of the list. -/
abbrev Val := List UInt8

/-- `SWITCH_MAX_VALLEN`: a longer value is not kept in the switch. -/
def switchMaxVallen : Nat := 128

/-- `SnapshotRecord`: a value with its sequence number and its live (`true`) or deleted status. -/
structure SnapshotRecord where
  val : Val
  seq : Nat
  stat : Bool
  deriving DecidableEq, Repr

/-- The version a record stands for; a deleted record's value bytes mean nothing. -/
def SnapshotRecord.entry (record : SnapshotRecord) : Entry Val :=
  if record.stat then .live record.val record.seq else .deleted record.seq

/-- The contents of a RocksDB database: each value with the sequence number stored behind it. -/
abbrev Database := Std.ExtTreeMap Key (Val × Nat)

/-- The runtime part of `RocksdbWrapper`: the database and the number of writes it has taken, the
tombstones of deleted keys, and the largest sequence number seen. -/
structure KvStore where
  db : Database
  dbseq : Nat
  deletedSet : DeletedSet
  maxseq : Nat

namespace KvStore

/-- The preamble of `put` and `remove`: `maxseq` is raised and `check_and_remove` is called. -/
def checkDeleted (kv : KvStore) (key : Key) (seq : Nat) : Bool × Nat × KvStore :=
  let maxseq := if seq > kv.maxseq then seq else kv.maxseq
  let (isDeleted, deletedSeq, deletedSet) := kv.deletedSet.checkAndRemove key seq 0
  (isDeleted, deletedSeq, { kv with maxseq := maxseq, deletedSet := deletedSet })

/-- The common body of `put` and `remove`: a newer tombstone refuses the write, and with `checkseq`
a newer database record silently wins. -/
def writeChecked (kv : KvStore) (key : Key) (seq : Nat) (checkseq : Bool)
    (write : KvStore → KvStore) : Bool × KvStore :=
  let (isDeleted, deletedSeq, kv) := kv.checkDeleted key seq
  if isDeleted && decide (deletedSeq > seq) then (false, kv)
  else
    let tmpSeq := if checkseq then (kv.db[key]?.map Prod.snd).getD 0 else 0
    if checkseq && decide (tmpSeq > seq) then (true, kv) else (true, write kv)

def put (kv : KvStore) (key : Key) (val : Val) (seq : Nat) (checkseq : Bool) : Bool × KvStore :=
  kv.writeChecked key seq checkseq fun kv =>
    { kv with db := kv.db.insert key (val, seq), dbseq := kv.dbseq + 1 }

def remove (kv : KvStore) (key : Key) (seq : Nat) (checkseq : Bool) : Bool × KvStore :=
  kv.writeChecked key seq checkseq fun kv =>
    { kv with
      db := kv.db.erase key
      dbseq := kv.dbseq + 1
      deletedSet := kv.deletedSet.add key seq }

/-- `RocksdbWrapper::get`: the record found, and the store, from which a tombstone of sequence number
zero is gone once it was looked at. -/
def get (kv : KvStore) (key : Key) : SnapshotRecord × KvStore :=
  match kv.db[key]? with
  | some (val, seq) => (⟨val, seq, true⟩, kv)
  | none =>
    let (_, deletedSeq, deletedSet) := kv.deletedSet.checkAndRemove key 0 0
    (⟨[], if deletedSeq > 0 then deletedSeq else 0, false⟩, { kv with deletedSet := deletedSet })

def cell (kv : KvStore) (key : Key) : Cell Val := ⟨kv.db[key]?, kv.deletedSet.tombstone key⟩

theorem cell_checkDeleted (kv : KvStore) (key other : Key) (seq : Nat) :
    (kv.checkDeleted key seq).2.2.cell other =
      if other = key then { kv.cell key with tombstone := (kv.cell key).tombstone.filter (seq < ·) }
      else kv.cell other := by
  unfold cell checkDeleted
  dsimp only
  rw [tombstone_checkAndRemove]
  split
  · rename_i same
    rw [same]
  · rfl

@[simp] theorem deletedSet_checkDeleted (kv : KvStore) (key : Key) (seq : Nat) :
    (kv.checkDeleted key seq).2.2.deletedSet = (kv.deletedSet.checkAndRemove key seq 0).2.2 := rfl

/-- The checks of `put` and `remove` decide exactly as the abstract cell does. -/
theorem writeChecked_eq (kv : KvStore) (key : Key) (seq : Nat) (checkseq : Bool)
    (write : KvStore → KvStore) :
    kv.writeChecked key seq checkseq write =
      if (kv.cell key).tombstone.any (seq < ·) then (false, (kv.checkDeleted key seq).2.2)
      else if checkseq && (kv.cell key).stored.any (seq < ·.2) then (true, (kv.checkDeleted key seq).2.2)
      else (true, write (kv.checkDeleted key seq).2.2) := by
  have newer := checkAndRemove_newer kv.deletedSet key seq
  have stored : (checkseq && decide ((if checkseq then (kv.db[key]?.map Prod.snd).getD 0 else 0) > seq)) =
      (checkseq && kv.db[key]?.any (seq < ·.2)) := by
    cases checkseq with
    | false => rfl
    | true => cases kv.db[key]? <;> simp
  unfold writeChecked cell
  rw [← newer, ← stored]
  rfl

/-- A write whose effect on the checked state is known cell by cell acts on the store as
`Cell.apply` acts on its own cell. `rel` is equality, or allows forgotten tombstones. -/
theorem cell_writeChecked (rel : Cell Val → Cell Val → Prop) (reflexive : ∀ cell, rel cell cell)
    (kv : KvStore) (key other : Key) (entry : Entry Val) (checkseq : Bool) (write : KvStore → KvStore)
    (writes : (kv.checkDeleted key entry.seq).2.2.deletedSet.tombstone key = none →
      rel ((write (kv.checkDeleted key entry.seq).2.2).cell other)
        (if other = key then Cell.ofEntry entry else kv.cell other)) :
    rel ((kv.writeChecked key entry.seq checkseq write).2.cell other)
      (if other = key then (kv.cell key).apply entry checkseq else kv.cell other) := by
  rw [writeChecked_eq]
  unfold Cell.apply
  by_cases blocked : (kv.cell key).tombstone.any (entry.seq < ·) = true
  · rw [if_pos blocked, if_pos blocked, cell_checkDeleted]
    have kept : (kv.cell key).tombstone.filter (entry.seq < ·) = (kv.cell key).tombstone := by
      cases found : (kv.cell key).tombstone <;> simp_all [Option.filter]
    rw [kept]
    exact reflexive _
  · have dropped : (kv.cell key).tombstone.filter (entry.seq < ·) = none := by
      cases found : (kv.cell key).tombstone <;> simp_all [Option.filter]
    rw [if_neg blocked, if_neg blocked]
    by_cases lost : (checkseq && (kv.cell key).stored.any (entry.seq < ·.2)) = true
    · rw [if_pos lost, if_pos lost, cell_checkDeleted, dropped]
      exact reflexive _
    · rw [if_neg lost, if_neg lost]
      refine writes ?_
      have own := congrArg Cell.tombstone (cell_checkDeleted kv key key entry.seq)
      rw [if_pos rfl, dropped] at own
      exact own

theorem cell_put (kv : KvStore) (key other : Key) (val : Val) (seq : Nat) (checkseq : Bool) :
    (kv.put key val seq checkseq).2.cell other =
      if other = key then (kv.cell key).apply (.live val seq) checkseq else kv.cell other := by
  refine cell_writeChecked (· = ·) (fun _ => rfl) kv key other (.live val seq) checkseq _ ?_
  intro unblocked
  have checked := cell_checkDeleted kv key other seq
  unfold cell at checked ⊢
  simp only [Entry.seq_live] at unblocked ⊢
  rw [OrderedMap.lookup_insert]
  split
  · rename_i same
    subst same
    rw [unblocked]
    rfl
  · rename_i apart
    rwa [if_neg apart] at checked

/-- `remove` applies a deletion to its own cell. Over capacity, other tombstones and even its own
may be forgotten. -/
theorem cell_remove_forgets (kv : KvStore) (key other : Key) (seq : Nat) (checkseq : Bool) :
    ((kv.remove key seq checkseq).2.cell other).Forgets
      (if other = key then (kv.cell key).apply (.deleted seq) checkseq else kv.cell other) := by
  refine cell_writeChecked Cell.Forgets Cell.Forgets.refl kv key other (.deleted seq) checkseq _ ?_
  intro unblocked
  have checked := cell_checkDeleted kv key other seq
  simp only [Entry.seq_deleted] at unblocked ⊢
  have added := tombstone_add (kv.checkDeleted key seq).2.2.deletedSet key other seq
  rw [unblocked] at added
  unfold cell at checked ⊢
  refine ⟨?_, ?_⟩
  · dsimp only
    rw [OrderedMap.lookup_erase]
    split
    · rfl
    · rfl
  · refine added.imp_left ?_
    intro raised
    rw [raised]
    split
    · rfl
    · rename_i apart
      rw [if_neg apart] at checked
      simpa using congrArg Cell.tombstone checked

theorem cell_remove_of_room (kv : KvStore) (key other : Key) (seq : Nat) (checkseq : Bool)
    (room : kv.deletedSet.size < kv.deletedSet.maxSize) :
    (kv.remove key seq checkseq).2.cell other =
      if other = key then (kv.cell key).apply (.deleted seq) checkseq else kv.cell other := by
  refine cell_writeChecked (· = ·) (fun _ => rfl) kv key other (.deleted seq) checkseq _ ?_
  intro unblocked
  have checked := cell_checkDeleted kv key other seq
  simp only [Entry.seq_deleted] at unblocked ⊢
  have stillRoom : (kv.checkDeleted key seq).2.2.deletedSet.size <
      (kv.checkDeleted key seq).2.2.deletedSet.maxSize := by
    rw [deletedSet_checkDeleted, maxSize_checkAndRemove]
    exact (size_checkAndRemove_le kv.deletedSet key seq 0).trans_lt room
  have added := tombstone_add_of_room _ key other seq stillRoom
  unfold cell at checked ⊢
  rw [added, OrderedMap.lookup_erase, unblocked]
  split
  · rfl
  · rename_i apart
    rwa [if_neg apart] at checked

theorem deletedSet_writeChecked (kv : KvStore) (key : Key) (seq : Nat) (checkseq : Bool)
    (write : KvStore → KvStore) :
    (kv.writeChecked key seq checkseq write).2.deletedSet = (kv.checkDeleted key seq).2.2.deletedSet ∨
      (kv.writeChecked key seq checkseq write).2.deletedSet =
        (write (kv.checkDeleted key seq).2.2).deletedSet := by
  rw [writeChecked_eq]
  split
  · exact Or.inl rfl
  · split
    · exact Or.inl rfl
    · exact Or.inr rfl

theorem maxSize_put (kv : KvStore) (key : Key) (val : Val) (seq : Nat) (checkseq : Bool) :
    (kv.put key val seq checkseq).2.deletedSet.maxSize = kv.deletedSet.maxSize := by
  rcases deletedSet_writeChecked kv key seq checkseq _ with same | same <;>
  · unfold put
    rw [same]
    simp

theorem maxSize_remove (kv : KvStore) (key : Key) (seq : Nat) (checkseq : Bool) :
    (kv.remove key seq checkseq).2.deletedSet.maxSize = kv.deletedSet.maxSize := by
  rcases deletedSet_writeChecked kv key seq checkseq _ with same | same <;>
  · unfold remove
    rw [same]
    simp

theorem size_put_le (kv : KvStore) (key : Key) (val : Val) (seq : Nat) (checkseq : Bool) :
    (kv.put key val seq checkseq).2.deletedSet.size ≤ kv.deletedSet.size := by
  have smaller := size_checkAndRemove_le kv.deletedSet key seq 0
  rcases deletedSet_writeChecked kv key seq checkseq _ with same | same <;>
  · unfold put
    rw [same]
    exact smaller

theorem size_remove_le (kv : KvStore) (key : Key) (seq : Nat) (checkseq : Bool) :
    (kv.remove key seq checkseq).2.deletedSet.size ≤ kv.deletedSet.size + 1 := by
  have smaller := size_checkAndRemove_le kv.deletedSet key seq 0
  rcases deletedSet_writeChecked kv key seq checkseq _ with same | same
  · unfold remove
    rw [same]
    exact smaller.trans (Nat.le_succ _)
  · unfold remove
    rw [same]
    exact (size_add_le _ key seq).trans (Nat.succ_le_succ smaller)

end KvStore

end FarReach
