import FarReach.ByteFiles
import FarReach.SnapshotSenddata

namespace FarReach

open Bytes ByteFiles

def getFilesize (content : List UInt8) : Nat := content.length % 2 ^ 32

def readonlyMmap (content : List UInt8) : List UInt8 := content.take (getFilesize content)

theorem readonlyMmap_of_small {content : List UInt8} (small : content.length < 2 ^ 32) :
    getFilesize content = content.length ∧ readonlyMmap content = content := by
  have size : getFilesize content = content.length := Nat.mod_eq_of_lt small
  refine ⟨size, ?_⟩
  rw [readonlyMmap, size, List.take_length]

namespace DeletedSet

def pairBytes (pair : Key × Nat) : List UInt8 := pair.1.serialize ++ littleEndian 4 pair.2

/-- `DeletedSet::store` over what the path has. -/
def storeFile (set : DeletedSet) (existing : Option (List UInt8)) : List UInt8 :=
  let removed := if existing.isSome then none else existing
  let file := (openCreate removed).write (littleEndian 4 set.size)
  (set.store.foldl (fun file pair => file.write (pairBytes pair)) file).content

def readPair (filesize : Nat) (content : List UInt8) (off : Nat) : Option ((Key × Nat) × Nat) := do
  let (tmpkey, tmpKeysize) ← Key.deserialize content off (filesize - off)
  let tmpseq ← readAt content (off + tmpKeysize) 4
  guard (off + tmpKeysize + 4 ≤ filesize)
  some ((tmpkey, ofLittleEndian tmpseq), off + tmpKeysize + 4)

def loadFile (set : DeletedSet) (file : List UInt8) : Option DeletedSet := do
  let filesize := getFilesize file
  guard (0 < filesize)
  let content := readonlyMmap file
  let recordcnt ← readAt content 0 4
  let pairs ← readMany (readPair filesize) content (ofLittleEndian recordcnt) 4
  some (set.load pairs)

@[simp] theorem length_pairBytes (pair : Key × Nat) : (pairBytes pair).length = 20 := by
  simp [pairBytes]

theorem length_store (set : DeletedSet) : set.store.length = set.size := Std.ExtTreeMap.length_toList

/-- Whatever the path had before, the file has the count and the pairs. -/
theorem storeFile_eq (set : DeletedSet) (existing : Option (List UInt8)) :
    set.storeFile existing = littleEndian 4 set.size ++ set.store.flatMap pairBytes := by
  have fresh : openCreate (if existing.isSome then none else existing) = ⟨[], 0⟩ := by
    cases existing <;> rfl
  unfold storeFile
  dsimp only
  rw [fresh, OpenFile.write_at_end rfl, OpenFile.content_foldl_write pairBytes _ rfl, List.nil_append]

theorem length_storeFile (set : DeletedSet) (existing : Option (List UInt8)) :
    (set.storeFile existing).length = 4 + 20 * set.size := by
  rw [storeFile_eq, List.length_append, length_littleEndian, ← length_store]
  induction set.store with
  | nil => rfl
  | cons pair rest ih =>
    rw [List.flatMap_cons, List.length_append, length_pairBytes, List.length_cons]
    omega

theorem readPair_of_holds {filesize : Nat} {content : List UInt8} {pair : Key × Nat} {off : Nat}
    (number : pair.2 < 2 ^ 32) (holds : Holds content off (pairBytes pair)) (room : off + 20 ≤ filesize) :
    readPair filesize content off = some (pair, off + 20) := by
  rw [pairBytes, holds_append, Key.length_serialize] at holds
  have keyRead := Key.deserialize_of_holds holds.1 (show 16 ≤ filesize - off by omega)
  have seqRead := holds.2.readAt (length_littleEndian _ _) (by decide)
  have inside : off + 16 + 4 ≤ filesize := by omega
  have number' : pair.2 < 256 ^ 4 := number
  unfold readPair
  simp only [keyRead, seqRead, Option.bind_eq_bind, Option.bind_some, guard, inside, if_true, Option.pure_def,
    ofLittleEndian_littleEndian number']

theorem readPair_end {filesize : Nat} {content : List UInt8} {off next : Nat} {pair : Key × Nat}
    (ran : readPair filesize content off = some (pair, next)) : next = off + 20 ∧ next ≤ filesize := by
  unfold readPair at ran
  simp only [Option.bind_eq_bind, Option.bind_eq_some_iff, Option.some.injEq, Prod.mk.injEq] at ran
  obtain ⟨⟨key, keysize⟩, keyRead, seq, _, _, inside, _, rfl⟩ := ran
  have sixteen : keysize = 16 := by
    unfold Key.deserialize at keyRead
    simp only [Option.bind_eq_bind, Option.bind_eq_some_iff, Option.some.injEq, Prod.mk.injEq] at keyRead
    obtain ⟨_, _, _, _, _, _, _, _, _, _, _, _, _, same⟩ := keyRead
    exact same.symm
  subst sixteen
  have bound : off + 16 + 4 ≤ filesize := by
    by_contra outside
    simp [guard, outside] at inside
  exact ⟨rfl, bound⟩

/-- Only a file whose size is a 32-bit number is read to its end. -/
theorem small_of_loadFile {loading set loaded : DeletedSet} {existing : Option (List UInt8)}
    (ran : loading.loadFile (set.storeFile existing) = some loaded)
    (same : loaded.recordsSortedBykey = set.recordsSortedBykey) : 4 + 20 * set.size < 2 ^ 32 := by
  unfold loadFile at ran
  simp only [Option.bind_eq_bind, Option.bind_eq_some_iff, Option.some.injEq] at ran
  obtain ⟨_, _, recordcnt, counted, pairs, many, rfl⟩ := ran
  -- the pairs that were read lie in the part of the file that was mapped
  have start : 4 ≤ getFilesize (set.storeFile existing) := by
    unfold readAt at counted
    split at counted
    · rename_i inside
      rw [readonlyMmap, List.length_take] at inside
      omega
    · cases counted
  have inside := end_le_of_readMany (fun _ _ _ => readPair_end) many start
  have bound : getFilesize (set.storeFile existing) < 2 ^ 32 := Nat.mod_lt _ (by decide)
  -- and a map of that many entries was made of them
  have size : set.size ≤ pairs.length := by
    have few := OrderedMap.size_foldl_insertIfNew_le pairs (∅ : Std.ExtTreeMap Key Nat)
    rw [recordsSortedBykey_load] at same
    rw [same] at few
    simpa [DeletedSet.size] using few
  rw [length_of_readMany many] at size
  omega

theorem loadFile_storeFile_of_small (loading : DeletedSet) {set : DeletedSet} (existing : Option (List UInt8))
    (numbers : ∀ pair ∈ set.store, pair.2 < 2 ^ 32) (small : 4 + 20 * set.size < 2 ^ 32) :
    loading.loadFile (set.storeFile existing) = some (loading.load set.store) := by
  have length := length_storeFile set existing
  obtain ⟨filesize, mapped⟩ := readonlyMmap_of_small (length ▸ small)
  have laid : Holds (set.storeFile existing) 0 (set.storeFile existing) := holds_zero_iff.mpr List.prefix_rfl
  rw [storeFile_eq set existing, holds_append, length_littleEndian, ← storeFile_eq set existing] at laid
  have counted := laid.1.readAt (length_littleEndian _ _) (by decide)
  have count : ofLittleEndian (littleEndian 4 set.size) = set.store.length := by
    rw [length_store]
    exact ofLittleEndian_littleEndian (show set.size < 256 ^ 4 by omega)
  have rest : 4 + (set.store.flatMap pairBytes).length = (set.storeFile existing).length := by
    rw [storeFile_eq, List.length_append, length_littleEndian]
  have many : readMany (readPair (getFilesize (set.storeFile existing))) (set.storeFile existing) set.store.length 4 =
      some set.store := by
    refine readMany_of_holds pairBytes (fun pair member off holds room => ?_) laid.2 rest.le
    rw [length_pairBytes] at room ⊢
    exact readPair_of_holds (numbers pair member) holds (by omega)
  have positive : 0 < getFilesize (set.storeFile existing) := by omega
  unfold loadFile
  simp only [positive, mapped, counted, count, many, guard, if_true, Option.pure_def, Option.bind_eq_bind,
    Option.bind_some]

/-- Loading what was stored brings back the tombstones exactly if the size of the file is a 32-bit number. -/
theorem loadFile_storeFile_iff (loading set : DeletedSet) (existing : Option (List UInt8))
    (numbers : ∀ pair ∈ set.store, pair.2 < 2 ^ 32) :
    (∃ loaded, loading.loadFile (set.storeFile existing) = some loaded ∧
        loaded.recordsSortedBykey = set.recordsSortedBykey) ↔ 4 + 20 * set.size < 2 ^ 32 := by
  constructor
  · rintro ⟨loaded, ran, same⟩
    exact small_of_loadFile ran same
  · intro small
    exact ⟨_, loadFile_storeFile_of_small loading existing numbers small, recordsSortedBykey_load_store loading set⟩

end DeletedSet

def maxLargeBufsize : Nat := 8388608

def inswitchRecordBytes (entry : Key × SnapshotRecord) : List UInt8 :=
  entry.1.serialize ++ (Val.serialize entry.2.val ++ (littleEndian 4 entry.2.seq ++ boolByte entry.2.stat))

def inswitchBytes (inswitchSnapshot : Std.ExtTreeMap Key SnapshotRecord) : List UInt8 :=
  intBytes (Int32.ofNat inswitchSnapshot.size) ++ inswitchSnapshot.toList.flatMap inswitchRecordBytes

/-- One round of the loop of `store_inswitch_snapshot`: key and value check the room in the buffer, the copies
of the number and the status must not write behind it. -/
def appendInswitchRecord (tmpbuf : List UInt8) (entry : Key × SnapshotRecord) : Option (List UInt8) := do
  guard (tmpbuf.length + 16 ≤ maxLargeBufsize)
  let tmpbuf := tmpbuf ++ entry.1.serialize
  guard (tmpbuf.length + (Val.serialize entry.2.val).length ≤ maxLargeBufsize)
  let tmpbuf := tmpbuf ++ Val.serialize entry.2.val
  guard (tmpbuf.length + 5 ≤ maxLargeBufsize)
  some (tmpbuf ++ (littleEndian 4 entry.2.seq ++ boolByte entry.2.stat))

/-- `store_inswitch_snapshot` over what the path has. -/
def storeInswitchFile (inswitchSnapshot : Std.ExtTreeMap Key SnapshotRecord) (existing : Option (List UInt8)) :
    Option (List UInt8) := do
  let tmpbuf ← inswitchSnapshot.toList.foldlM appendInswitchRecord (intBytes (Int32.ofNat inswitchSnapshot.size))
  some ((openTruncate existing).write tmpbuf).content

def readInswitchRecord (tmpfilesize : Nat) (tmpbuf : List UInt8) (tmpbuflen : Nat) :
    Option ((Key × SnapshotRecord) × Nat) := do
  let (tmpkey, tmpkeysize) ← Key.deserialize tmpbuf tmpbuflen (tmpfilesize - tmpbuflen)
  let tmpbuflen := tmpbuflen + tmpkeysize
  let (tmpval, tmpvalsize) ← Val.deserialize tmpbuf tmpbuflen (tmpfilesize - tmpbuflen)
  let tmpbuflen := tmpbuflen + tmpvalsize
  let tmpseq ← readAt tmpbuf tmpbuflen 4
  let tmpstat ← readAt tmpbuf (tmpbuflen + 4) 1
  some ((tmpkey, ⟨tmpval, ofLittleEndian tmpseq, ofLittleEndian tmpstat != 0⟩), tmpbuflen + 5)

/-- `load_inswitch_snapshot`; without a file the map stays as it is. -/
def loadInswitchFile (inswitchSnapshot : Std.ExtTreeMap Key SnapshotRecord) :
    Option (List UInt8) → Option (Std.ExtTreeMap Key SnapshotRecord)
  | none => some inswitchSnapshot
  | some file => do
    let tmpfilesize := getFilesize file
    let tmpbuf := readonlyMmap file
    let recordcnt ← readAt tmpbuf 0 4
    let records ← readMany (readInswitchRecord tmpfilesize) tmpbuf (ofIntBytes recordcnt).toNatClampNeg 4
    some (records.foldl (fun map record => map.insertIfNew record.1 record.2) ∅)

section Inswitch

variable {tmpfilesize off : Nat} {tmpbuf : List UInt8} {entry : Key × SnapshotRecord}

theorem appendInswitchRecord_of_room (room : tmpbuf.length + (inswitchRecordBytes entry).length ≤ maxLargeBufsize) :
    appendInswitchRecord tmpbuf entry = some (tmpbuf ++ inswitchRecordBytes entry) := by
  have size : (inswitchRecordBytes entry).length = 16 + (Val.serialize entry.2.val).length + 5 := by
    simp only [inswitchRecordBytes, List.length_append, Key.length_serialize, length_littleEndian, boolByte,
      List.length_singleton]
    omega
  have forKey : tmpbuf.length + 16 ≤ maxLargeBufsize := by omega
  have forVal : tmpbuf.length + 16 + (Val.serialize entry.2.val).length ≤ maxLargeBufsize := by omega
  have forRest : tmpbuf.length + 16 + (Val.serialize entry.2.val).length + 5 ≤ maxLargeBufsize := by omega
  unfold appendInswitchRecord inswitchRecordBytes
  simp only [List.length_append, Key.length_serialize, guard, forKey, forVal, forRest, if_true, Option.pure_def,
    Option.bind_eq_bind, Option.bind_some]
  simp only [List.append_assoc]

theorem foldlM_appendInswitchRecord {entries : List (Key × SnapshotRecord)}
    (room : tmpbuf.length + (entries.flatMap inswitchRecordBytes).length ≤ maxLargeBufsize) :
    entries.foldlM appendInswitchRecord tmpbuf = some (tmpbuf ++ entries.flatMap inswitchRecordBytes) := by
  induction entries generalizing tmpbuf with
  | nil => simp
  | cons entry rest ih =>
    rw [List.flatMap_cons, List.length_append] at room
    have later := @ih (tmpbuf ++ inswitchRecordBytes entry) (by rw [List.length_append]; omega)
    rw [List.foldlM_cons, appendInswitchRecord_of_room (by omega)]
    simp only [Option.bind_eq_bind, Option.bind_some, later, List.flatMap_cons, List.append_assoc]

/-- Whatever the path had before, a snapshot that fits the buffer is the content of its file. -/
theorem storeInswitchFile_eq {inswitchSnapshot : Std.ExtTreeMap Key SnapshotRecord}
    (fits : (inswitchBytes inswitchSnapshot).length ≤ maxLargeBufsize) (existing : Option (List UInt8)) :
    storeInswitchFile inswitchSnapshot existing = some (inswitchBytes inswitchSnapshot) := by
  unfold inswitchBytes at fits
  rw [List.length_append] at fits
  unfold storeInswitchFile
  rw [foldlM_appendInswitchRecord fits]
  simp only [Option.bind_eq_bind, Option.bind_some, openTruncate]
  rw [OpenFile.write_at_end rfl, List.nil_append]
  rfl

theorem readInswitchRecord_of_holds (short : entry.2.val.length < 65536) (number : entry.2.seq < 2 ^ 32)
    (holds : Holds tmpbuf off (inswitchRecordBytes entry))
    (room : off + (inswitchRecordBytes entry).length ≤ tmpfilesize) :
    readInswitchRecord tmpfilesize tmpbuf off = some (entry, off + (inswitchRecordBytes entry).length) := by
  have stat : (boolByte entry.2.stat).length = 1 := rfl
  simp only [inswitchRecordBytes, List.length_append, Key.length_serialize, length_littleEndian, stat] at room ⊢
  simp only [inswitchRecordBytes, holds_append, Key.length_serialize, length_littleEndian] at holds
  obtain ⟨key, val, seq, status⟩ := holds
  have keyRead := Key.deserialize_of_holds key (show 16 ≤ tmpfilesize - off by omega)
  have valRead := Val.deserialize_of_holds short val
    (show (Val.serialize entry.2.val).length ≤ tmpfilesize - (off + 16) by omega)
  have seqRead := seq.readAt (length_littleEndian _ _) (by decide)
  have statRead := status.readAt stat (by decide)
  have seqBack : ofLittleEndian (littleEndian 4 entry.2.seq) = entry.2.seq := ofLittleEndian_littleEndian number
  have statBack : (ofLittleEndian (boolByte entry.2.stat) != 0) = entry.2.stat := by
    cases entry.2.stat <;> rfl
  have total : off + (16 + ((Val.serialize entry.2.val).length + (4 + 1))) =
      off + 16 + (Val.serialize entry.2.val).length + 5 := by omega
  unfold readInswitchRecord
  simp only [keyRead, valRead, seqRead, statRead, seqBack, statBack, total, Option.bind_eq_bind, Option.bind_some]

theorem short_of_readInswitchRecord {next : Nat}
    (ran : readInswitchRecord tmpfilesize tmpbuf off = some (entry, next)) : entry.2.val.length < 65536 := by
  unfold readInswitchRecord at ran
  simp only [Option.bind_eq_bind, Option.bind_eq_some_iff, Option.some.injEq, Prod.mk.injEq] at ran
  obtain ⟨⟨key, keysize⟩, _, ⟨val, valsize⟩, valRead, _, _, _, _, rfl, _⟩ := ran
  exact Val.length_of_deserialize valRead

end Inswitch

section RoundTrip

variable {inswitchSnapshot : Std.ExtTreeMap Key SnapshotRecord}

/-- The buffer bounds the number of records. -/
theorem size_le_of_fits (fits : (inswitchBytes inswitchSnapshot).length ≤ maxLargeBufsize) :
    4 + inswitchSnapshot.size ≤ maxLargeBufsize := by
  have each : ∀ entries : List (Key × SnapshotRecord),
      entries.length ≤ (entries.flatMap inswitchRecordBytes).length := by
    intro entries
    induction entries with
    | nil => exact le_rfl
    | cons entry rest ih =>
      have positive : 16 ≤ (inswitchRecordBytes entry).length := by
        rw [inswitchRecordBytes, List.length_append, Key.length_serialize]
        omega
      rw [List.flatMap_cons, List.length_append, List.length_cons]
      omega
  have count := each inswitchSnapshot.toList
  rw [Std.ExtTreeMap.length_toList] at count
  rw [inswitchBytes, List.length_append, length_intBytes] at fits
  omega

theorem short_of_loadInswitchFile {loading : Std.ExtTreeMap Key SnapshotRecord}
    (ran : loadInswitchFile loading (some (inswitchBytes inswitchSnapshot)) = some inswitchSnapshot) :
    ∀ entry ∈ inswitchSnapshot.toList, entry.2.val.length < 65536 := by
  unfold loadInswitchFile at ran
  simp only [Option.bind_eq_bind, Option.bind_eq_some_iff, Option.some.injEq] at ran
  obtain ⟨_, _, records, many, built⟩ := ran
  have short := forall_mem_of_readMany (P := fun entry => entry.2.val.length < 65536)
    (fun _ _ _ => short_of_readInswitchRecord) many
  intro entry member
  have found := Std.ExtTreeMap.mem_toList_iff_getElem?_eq_some.mp member
  rw [← built] at found
  rcases OrderedMap.mem_of_foldl_insertIfNew found with before | inRecords
  · simp at before
  · exact short entry inRecords

theorem loadInswitchFile_of_short (loading : Std.ExtTreeMap Key SnapshotRecord)
    (fits : (inswitchBytes inswitchSnapshot).length ≤ maxLargeBufsize)
    (numbers : ∀ entry ∈ inswitchSnapshot.toList, entry.2.seq < 2 ^ 32)
    (short : ∀ entry ∈ inswitchSnapshot.toList, entry.2.val.length < 65536) :
    loadInswitchFile loading (some (inswitchBytes inswitchSnapshot)) = some inswitchSnapshot := by
  have size := size_le_of_fits fits
  unfold maxLargeBufsize at fits size
  obtain ⟨filesize, mapped⟩ := readonlyMmap_of_small (show (inswitchBytes inswitchSnapshot).length < 2 ^ 32 by omega)
  have laid : Holds (inswitchBytes inswitchSnapshot) 0
      (intBytes (Int32.ofNat inswitchSnapshot.size) ++ inswitchSnapshot.toList.flatMap inswitchRecordBytes) :=
    holds_zero_iff.mpr List.prefix_rfl
  rw [holds_append, length_intBytes] at laid
  have counted := laid.1.readAt (length_intBytes _) (by decide)
  have count : (Int32.ofNat inswitchSnapshot.size).toNatClampNeg = inswitchSnapshot.toList.length := by
    rw [Std.ExtTreeMap.length_toList, Int32.toNatClampNeg, Int32.toInt_ofNat_of_lt (by omega), Int.toNat_natCast]
  have rest : 4 + (inswitchSnapshot.toList.flatMap inswitchRecordBytes).length =
      (inswitchBytes inswitchSnapshot).length := by
    rw [inswitchBytes, List.length_append, length_intBytes]
  have many : readMany (readInswitchRecord (inswitchBytes inswitchSnapshot).length) (inswitchBytes inswitchSnapshot)
      inswitchSnapshot.toList.length 4 = some inswitchSnapshot.toList :=
    readMany_of_holds inswitchRecordBytes
      (fun entry member off holds room => readInswitchRecord_of_holds (short entry member)
        (numbers entry member) holds room)
      laid.2 rest.le
  unfold loadInswitchFile
  simp only [filesize, mapped, counted, ofIntBytes_intBytes, count, many, Option.bind_eq_bind, Option.bind_some]
  rw [OrderedMap.foldl_insertIfNew_toList]

/-- Loading the file of a snapshot brings the records back exactly if the length of every value takes 16 bits. -/
theorem loadInswitchFile_iff (loading : Std.ExtTreeMap Key SnapshotRecord)
    (fits : (inswitchBytes inswitchSnapshot).length ≤ maxLargeBufsize)
    (numbers : ∀ entry ∈ inswitchSnapshot.toList, entry.2.seq < 2 ^ 32) :
    loadInswitchFile loading (some (inswitchBytes inswitchSnapshot)) = some inswitchSnapshot ↔
      ∀ entry ∈ inswitchSnapshot.toList, entry.2.val.length < 65536 :=
  ⟨short_of_loadInswitchFile, loadInswitchFile_of_short loading fits numbers⟩

end RoundTrip

/-- Over any file that existed before, a tombstone set and an in-switch snapshot that fits its buffer are stored, and
loading the two files brings both maps back exactly if the file of the tombstones is smaller than 4 GiB and the
length of every value in the snapshot takes 16 bits. -/
theorem snapshotFiles_restored_iff (set loading : DeletedSet)
    (inswitchSnapshot loadingSnapshot : Std.ExtTreeMap Key SnapshotRecord)
    (existing existingInswitch : Option (List UInt8)) (tombstoneSeqs : ∀ pair ∈ set.store, pair.2 < 2 ^ 32)
    (recordSeqs : ∀ entry ∈ inswitchSnapshot.toList, entry.2.seq < 2 ^ 32)
    (fits : (inswitchBytes inswitchSnapshot).length ≤ maxLargeBufsize) :
    ((∃ loaded, loading.loadFile (set.storeFile existing) = some loaded ∧
          loaded.recordsSortedBykey = set.recordsSortedBykey) ∧
        ∃ file, storeInswitchFile inswitchSnapshot existingInswitch = some file ∧
          loadInswitchFile loadingSnapshot (some file) = some inswitchSnapshot) ↔
      4 + 20 * set.size < 2 ^ 32 ∧ ∀ entry ∈ inswitchSnapshot.toList, entry.2.val.length < 65536 := by
  rw [DeletedSet.loadFile_storeFile_iff loading set existing tombstoneSeqs,
    ← loadInswitchFile_iff loadingSnapshot fits recordSeqs]
  have stored := storeInswitchFile_eq fits existingInswitch
  refine and_congr_right fun _ => ⟨?_, fun loads => ⟨_, stored, loads⟩⟩
  rintro ⟨file, storedToo, loads⟩
  rw [stored] at storedToo
  cases storedToo
  exact loads

/-- Two deleted keys, and a snapshot with a live and a deleted record, over two files that are longer. -/
theorem snapshotFiles_restored_iff_two :
    let set := ((DeletedSet.new 3 1).add ⟨1, 0, 0, 0⟩ 5).add ⟨4, 0, 0, 0⟩ 2
    let inswitchSnapshot :=
      ((∅ : Std.ExtTreeMap Key SnapshotRecord).insert ⟨2, 0, 0, 0⟩ ⟨[7], 3, true⟩).insert ⟨3, 0, 0, 0⟩ ⟨[], 4, false⟩
    set.size = 2 ∧
      (∃ loaded, (DeletedSet.new 3 1).loadFile (set.storeFile (some (List.replicate 90 1))) = some loaded ∧
        loaded.recordsSortedBykey = set.recordsSortedBykey) ∧
      ∃ file, storeInswitchFile inswitchSnapshot (some (List.replicate 90 1)) = some file ∧
        loadInswitchFile ∅ (some file) = some inswitchSnapshot :=
  ⟨by decide +kernel,
    (snapshotFiles_restored_iff _ _ _ _ _ _ (by decide +kernel) (by decide +kernel) (by decide +kernel)).mpr
      (by decide +kernel)⟩

def oneRecordSnapshot (val : Val) : Std.ExtTreeMap Key SnapshotRecord :=
  (∅ : Std.ExtTreeMap Key SnapshotRecord).insert ⟨2, 0, 0, 0⟩ ⟨val, 3, true⟩

theorem toList_oneRecordSnapshot (val : Val) : (oneRecordSnapshot val).toList = [(⟨2, 0, 0, 0⟩, ⟨val, 3, true⟩)] :=
  rfl

theorem length_inswitchBytes_oneRecord {val : Val} (long : 128 < val.length) :
    (inswitchBytes (oneRecordSnapshot val)).length = 27 + val.length := by
  have unpadded : Val.getPaddingSize val.length = 0 := if_neg (by omega)
  simp only [inswitchBytes, toList_oneRecordSnapshot, List.flatMap_cons, List.flatMap_nil, inswitchRecordBytes,
    List.length_append, length_intBytes, Key.length_serialize, Val.length_serialize, unpadded, length_littleEndian,
    boolByte, List.length_singleton, List.length_nil]
  omega

/-- A value of 65536 bytes fits the buffer, is stored, and is not what the file brings back: its length is written
as 0. -/
theorem long_value_not_restored :
    ∃ val : Val, val.length = 65536 ∧ (inswitchBytes (oneRecordSnapshot val)).length ≤ maxLargeBufsize ∧
      ∃ file, storeInswitchFile (oneRecordSnapshot val) none = some file ∧
        loadInswitchFile ∅ (some file) ≠ some (oneRecordSnapshot val) := by
  obtain ⟨val, length⟩ : ∃ val : Val, val.length = 65536 := ⟨List.replicate 65536 0, List.length_replicate ..⟩
  have fits : (inswitchBytes (oneRecordSnapshot val)).length ≤ maxLargeBufsize := by
    rw [length_inswitchBytes_oneRecord (by omega), length]
    decide
  refine ⟨val, length, fits, _, storeInswitchFile_eq fits none, fun loads => ?_⟩
  have short := (loadInswitchFile_iff ∅ fits (by simp [toList_oneRecordSnapshot])).mp loads
  rw [toList_oneRecordSnapshot, List.forall_mem_singleton] at short
  dsimp only at short
  omega

end FarReach
