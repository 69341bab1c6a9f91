import FarReach.SnapshotSenddata

namespace FarReach

open Bytes DynamicArray

/-- The checked `set` of the client library's array, which otherwise works as the server's. -/
def DynamicArray.set (buf : DynamicArray) (idx : Nat) (val : UInt8) : Option DynamicArray :=
  if idx < buf.cursize then
    some
      { buf with
        array := overwrite buf.array idx [val]
        mincapability_le := by simpa using buf.mincapability_le
        cursize_le := by simpa using buf.cursize_le
        curcapability_le := by simpa using buf.curcapability_le }
  else none

/-- `Value` of the client library; `valLength` is the length of `valData`, and 0 for `null`. -/
structure JavaValue where
  valData : Option (List UInt8)
  deriving DecidableEq, Repr

namespace JavaValue

/-- The bytes of a value; `null` stands for the empty one. -/
def val (value : JavaValue) : Val := value.valData.getD []

def valLength (value : JavaValue) : Nat := value.val.length

/-- `Value.dynamicSerialize`: the padding is written with `set`. -/
def dynamicSerialize (value : JavaValue) (buf : DynamicArray) (offset : Nat) : Option (DynamicArray × Nat) := do
  guard ((value.valLength ≠ 0 ∧ value.valData.isSome) ∨ (value.valLength = 0 ∧ value.valData.isNone))
  let paddingSize := Val.getPaddingSize value.valLength
  let buf ← buf.dynamicMemcpy offset (bigEndian 2 value.valLength)
  let buf ←
    if 0 < value.valLength then do
      let buf ← buf.dynamicMemcpy (offset + 2) value.val
      (List.range paddingSize).foldlM (fun buf i => buf.set (offset + 2 + value.valLength + i) 0) buf
    else some buf
  some (buf, 2 + value.valLength + paddingSize)

end JavaValue

/-- `UpstreamBackup`. -/
structure UpstreamBackup where
  value : JavaValue
  seq : UInt32
  stat : Bool
  deriving DecidableEq, Repr

def serializeBackup (state : DynamicArray × Nat) (entry : Key × UpstreamBackup) : Option (DynamicArray × Nat) := do
  let (buf, tmpkeySize) ← entry.1.dynamicSerialize state.1 state.2
  let offset := state.2 + tmpkeySize
  let (buf, tmpvalSize) ← entry.2.value.dynamicSerialize buf offset
  let offset := offset + tmpvalSize
  let buf ← buf.dynamicMemcpy offset (bigEndian 4 entry.2.seq.toNat)
  let buf ← buf.dynamicMemcpy (offset + 4) (boolByte entry.2.stat)
  some (buf, offset + 5)

/-- `dynamicSerializeUpstreamBackups` on the entries of the map, in the order `entrySet` lists them. -/
def dynamicSerializeUpstreamBackups (buf : DynamicArray) (entries : List (Key × UpstreamBackup)) :
    Option (DynamicArray × Nat) := do
  let buf ← buf.dynamicMemcpy 0 (bigEndian 4 entries.length)
  entries.foldlM serializeBackup (buf, 4)

/-- The array `dumpUpstreamBackups` serializes into: MAX_BUFFER_SIZE to MAX_LARGE_BUFFER_SIZE. -/
def backupBuffer : DynamicArray := allocated 40960 8388608 bufsize_pos bufsize_lt_largeBufsize largeBufsize_le

/-- The file `dumpUpstreamBackups` writes: the whole array. -/
def dumpUpstreamBackups (entries : List (Key × UpstreamBackup)) : Option (List UInt8) := do
  let (buf, _) ← dynamicSerializeUpstreamBackups backupBuffer.clear entries
  some buf.array

def deserializeBackup (content : List UInt8) (offset : Nat) : Option (WireRecord × Nat) := do
  let (key, tmpkeysize) ← Key.deserialize content offset (content.length - offset)
  let offset := offset + tmpkeysize
  let (val, tmpvalsize) ← Val.deserialize content offset (content.length - offset)
  let offset := offset + tmpvalsize
  let tmpseq ← readAt content offset 4
  let tmpstat ← readAt content (offset + 4) 1
  some (⟨key, val, (ofBigEndian tmpseq).toUInt32, ofBigEndian tmpstat == 1⟩, offset + 5)

def deserializeBackups (content : List UInt8) : Nat → Nat → Option (List WireRecord)
  | 0, _ => some []
  | num + 1, offset => do
    let (record, offset) ← deserializeBackup content offset
    let records ← deserializeBackups content num offset
    some (record :: records)

/-- `deserialize_upstream_backup_content` on the whole file; the four arrays are one list of records. -/
def deserializeUpstreamBackupContent (content : List UInt8) : Option (List WireRecord) := do
  let tmpnum ← readAt content 0 4
  deserializeBackups content (ofBigEndian tmpnum).toUInt32.toInt32.toNatClampNeg 4

def backupRecord (entry : Key × UpstreamBackup) : WireRecord :=
  ⟨entry.1, entry.2.value.val, entry.2.seq, entry.2.stat⟩

/-- The dump succeeds, and the server reads back every key, value, number and status. -/
def BackupsRoundTrip (entries : List (Key × UpstreamBackup)) : Prop :=
  ∃ content, dumpUpstreamBackups entries = some content ∧
    deserializeUpstreamBackupContent content = some (entries.map backupRecord)

/-- A value that needs no padding: `null`, or a whole number of eight bytes. -/
def JavaValue.Unpadded (value : JavaValue) : Prop :=
  value.valData = none ∨ (0 < value.valLength ∧ value.valLength % 8 = 0)

def backupsSize (entries : List (Key × UpstreamBackup)) : Nat :=
  4 + (entries.map fun entry => 23 + entry.2.value.valLength).sum

def backupBytes (entry : Key × UpstreamBackup) : List UInt8 :=
  entry.1.serialize ++ ((bigEndian 2 entry.2.value.valLength ++ entry.2.value.val) ++
    (bigEndian 4 entry.2.seq.toNat ++ boolByte entry.2.stat))

theorem length_backupBytes (entry : Key × UpstreamBackup) :
    (backupBytes entry).length = 23 + entry.2.value.valLength := by
  simp only [backupBytes, List.length_append, Key.length_serialize, length_bigEndian, boolByte, List.length_singleton,
    JavaValue.valLength]
  omega

theorem backupsSize_eq (entries : List (Key × UpstreamBackup)) :
    backupsSize entries = 4 + (entries.flatMap backupBytes).length := by
  simp [backupsSize, List.length_flatMap, length_backupBytes]

theorem JavaValue.Unpadded.getPaddingSize {value : JavaValue} (unpadded : value.Unpadded)
    (short : value.valLength ≤ 128) : Val.getPaddingSize value.valLength = 0 := by
  unfold Val.getPaddingSize
  rcases unpadded with null | ⟨_, whole⟩
  · simp [valLength, val, null]
  · simp [short, whole]

section Encoder

variable {value : JavaValue} (buf : DynamicArray) (offset : Nat)

theorem JavaValue.writes_dynamicSerialize (unpadded : value.Unpadded) (short : value.valLength ≤ 128) :
    Writes buf offset (bigEndian 2 value.valLength ++ value.val) (value.dynamicSerialize buf offset)
      (·, 2 + value.valLength) := by
  have noPadding := unpadded.getPaddingSize short
  unfold JavaValue.dynamicSerialize
  simp only [noPadding, List.range_zero, List.foldlM_nil, Nat.add_zero]
  rcases unpadded with null | ⟨nonempty, whole⟩
  · have empty : value.valLength = 0 := by simp [valLength, val, null]
    have noBytes : value.val = [] := List.eq_nil_of_length_eq_zero empty
    simp only [empty, null, noBytes, ne_eq, not_true_eq_false, false_and, Option.isNone_none, and_self,
      or_true, guard, if_true, lt_self_iff_false, if_false, List.append_nil]
    exact (writes_dynamicMemcpy _ _ _).finish (·, 2)
  · have data : value.valData.isSome = true := by
      cases found : value.valData with
      | none => simp [valLength, val, found] at nonempty
      | some bytes => rfl
    have checked : (value.valLength ≠ 0 ∧ value.valData.isSome = true) ∨
        (value.valLength = 0 ∧ value.valData.isNone = true) := Or.inl ⟨by omega, data⟩
    simp only [guard, if_pos checked, if_pos nonempty]
    refine (writes_dynamicMemcpy _ _ _).bind fun _ _ => ?_
    rw [length_bigEndian]
    exact (writes_dynamicMemcpy _ _ _).finish (·, 2 + value.valLength)

theorem memcpy_at_end {buf : DynamicArray} {offset : Nat} (fresh : buf.cursize ≤ offset) (bytes : List UInt8) :
    buf.dynamicMemcpy offset bytes = none ∨
      ∃ after, buf.dynamicMemcpy offset bytes = some after ∧ after.cursize = offset + bytes.length := by
  have writes := writes_dynamicMemcpy buf offset bytes
  by_cases fits : offset + bytes.length ≤ buf.maxcapability
  · obtain ⟨after, copied, wrote⟩ := writes.1 fits
    have size := wrote.cursize
    exact Or.inr ⟨after, copied, by omega⟩
  · exact Or.inl (writes.2 (by omega))

/-- At the end of the array the first padding byte is behind the bytes in use, and `set` fails. -/
theorem JavaValue.dynamicSerialize_padded {buf : DynamicArray} {offset : Nat} (padded : ¬ value.Unpadded)
    (short : value.valLength ≤ 128) (fresh : buf.cursize ≤ offset) : value.dynamicSerialize buf offset = none := by
  unfold JavaValue.dynamicSerialize
  cases found : value.valData with
  | none => exact absurd (Or.inl found) padded
  | some data =>
    by_cases empty : value.valLength = 0
    · simp [guard, empty]
    have residue : value.valLength % 8 ≠ 0 := fun whole => padded (Or.inr ⟨by omega, whole⟩)
    have padding : Val.getPaddingSize value.valLength = (7 - value.valLength % 8) + 1 := by
      simp only [Val.getPaddingSize, short, if_true, ne_eq, residue, not_false_eq_true]
      omega
    simp only [guard, ne_eq, empty, not_false_eq_true, Option.isSome_some, and_self, true_or, if_true,
      Option.pure_def, Option.bind_eq_bind, Option.bind_some, Nat.pos_of_ne_zero empty]
    rcases memcpy_at_end fresh (bigEndian 2 value.valLength) with exits | ⟨first, copied, firstSize⟩
    · simp [exits]
    rw [length_bigEndian] at firstSize
    rcases memcpy_at_end (Nat.le_of_eq firstSize) value.val with exits | ⟨second, copied', secondSize⟩
    · simp [copied, exits]
    have fails : second.set (offset + 2 + value.valLength) 0 = none := by
      have last : ¬ offset + 2 + value.valLength < second.cursize := by
        rw [secondSize]
        exact Nat.lt_irrefl _
      rw [DynamicArray.set, if_neg last]
    simp [copied, copied', padding, List.range_succ_eq_map, fails]

variable {entry : Key × UpstreamBackup} {entries : List (Key × UpstreamBackup)}

theorem writes_serializeBackup (unpadded : entry.2.value.Unpadded) (short : entry.2.value.valLength ≤ 128) :
    Writes buf offset (backupBytes entry) (serializeBackup (buf, offset) entry)
      (·, offset + (backupBytes entry).length) := by
  have size : offset + (backupBytes entry).length = offset + 16 + (2 + entry.2.value.valLength) + 5 := by
    rw [length_backupBytes]
    omega
  have valSize : (bigEndian 2 entry.2.value.valLength ++ entry.2.value.val).length = 2 + entry.2.value.valLength := by
    rw [List.length_append, length_bigEndian]
    rfl
  rw [size]
  unfold backupBytes serializeBackup
  refine (Key.writes_dynamicSerialize _ _ _).bind fun _ _ => ?_
  rw [Key.length_serialize]
  refine (JavaValue.writes_dynamicSerialize _ _ unpadded short).bind fun _ _ => ?_
  rw [valSize]
  refine (writes_dynamicMemcpy _ _ _).bind fun _ _ => ?_
  rw [length_bigEndian]
  exact (writes_dynamicMemcpy _ _ _).finish (·, offset + 16 + (2 + entry.2.value.valLength) + 5)

theorem serializeBackup_padded {buf : DynamicArray} {offset : Nat} (padded : ¬ entry.2.value.Unpadded)
    (short : entry.2.value.valLength ≤ 128) (fresh : buf.cursize ≤ offset) :
    serializeBackup (buf, offset) entry = none := by
  have key := Key.writes_dynamicSerialize entry.1 buf offset
  unfold serializeBackup
  by_cases fits : offset + entry.1.serialize.length ≤ buf.maxcapability
  · obtain ⟨after, done, wrote⟩ := key.1 fits
    have size := wrote.cursize
    rw [Key.length_serialize] at size
    have fails := JavaValue.dynamicSerialize_padded padded short (by omega : after.cursize ≤ offset + 16)
    simp [done, fails]
  · simp [key.2 (by omega)]

/-- The loop over the backups: without padding it writes them one behind the other. -/
theorem writes_serializeBackups {buf : DynamicArray} {offset : Nat}
    (unpadded : ∀ entry ∈ entries, entry.2.value.Unpadded) (short : ∀ entry ∈ entries, entry.2.value.valLength ≤ 128)
    (used : offset ≤ buf.cursize) :
    Writes buf offset (entries.flatMap backupBytes) (entries.foldlM serializeBackup (buf, offset))
      (·, offset + (entries.flatMap backupBytes).length) :=
  writes_foldlM (fun entry member buf offset =>
    writes_serializeBackup buf offset (unpadded entry member) (short entry member)) (Or.inl used)

/-- The loop fails at the first value that needs padding, unless the array is full before. -/
theorem serializeBackups_padded {buf : DynamicArray} {offset : Nat}
    (padded : ∃ entry ∈ entries, ¬ entry.2.value.Unpadded) (short : ∀ entry ∈ entries, entry.2.value.valLength ≤ 128)
    (fresh : buf.cursize ≤ offset) : entries.foldlM serializeBackup (buf, offset) = none := by
  induction entries generalizing buf offset with
  | nil => simp at padded
  | cons entry entries ih =>
    rw [List.forall_mem_cons] at short
    rw [List.foldlM_cons]
    by_cases here : entry.2.value.Unpadded
    · have later : ∃ other ∈ entries, ¬ other.2.value.Unpadded := by
        obtain ⟨other, member, bad⟩ := padded
        rcases List.mem_cons.mp member with rfl | member
        · exact absurd here bad
        · exact ⟨other, member, bad⟩
      have writes := writes_serializeBackup buf offset here short.1
      by_cases fits : offset + (backupBytes entry).length ≤ buf.maxcapability
      · obtain ⟨after, done, wrote⟩ := writes.1 fits
        have size := wrote.cursize
        have rest := @ih after (offset + (backupBytes entry).length) later short.2 (by omega)
        simpa [done] using rest
      · simp [writes.2 (by omega)]
    · simp [serializeBackup_padded here short.1 fresh]

end Encoder

section Decoder

variable {content : List UInt8}

theorem deserializeBackup_of_holds {entry : Key × UpstreamBackup} {offset : Nat}
    (unpadded : entry.2.value.Unpadded) (short : entry.2.value.valLength ≤ 128)
    (holds : Holds content offset (backupBytes entry)) :
    deserializeBackup content offset = some (backupRecord entry, offset + (backupBytes entry).length) := by
  have size := length_backupBytes entry
  have inside := holds.end_le (List.ne_nil_of_length_pos (by omega))
  have noPadding : Val.getPaddingSize entry.2.value.val.length = 0 := unpadded.getPaddingSize short
  have plain : Val.serialize entry.2.value.val = bigEndian 2 entry.2.value.valLength ++ entry.2.value.val := by
    simp [Val.serialize, noPadding, JavaValue.valLength]
  have valSize : (Val.serialize entry.2.value.val).length = 2 + entry.2.value.valLength := by
    rw [Val.length_serialize, noPadding]
    rfl
  rw [backupBytes, ← plain] at holds
  simp only [holds_append, Key.length_serialize, length_bigEndian, valSize] at holds
  obtain ⟨key, val, seq, stat⟩ := holds
  have keyRead := Key.deserialize_of_holds key (show 16 ≤ content.length - offset by omega)
  have valRead := Val.deserialize_of_holds (by change entry.2.value.valLength < _; omega) val
    (show _ ≤ content.length - (offset + 16) by omega)
  have seqRead := seq.readAt (length_bigEndian _ _) (by decide)
  have statRead := stat.readAt (show (boolByte _).length = 1 from rfl) (by decide)
  have seqBack := toUInt32_ofBigEndian entry.2.seq
  have statBack : (ofBigEndian (boolByte entry.2.stat) == 1) = entry.2.stat := by
    cases entry.2.stat <;> rfl
  unfold deserializeBackup
  simp only [keyRead, valRead, valSize, seqRead, statRead, Option.bind_eq_bind, Option.bind_some, seqBack, statBack]
  have total : offset + 16 + (2 + entry.2.value.valLength) + 5 = offset + (backupBytes entry).length := by omega
  rw [total]
  rfl

theorem deserializeBackups_of_holds {entries : List (Key × UpstreamBackup)} {offset : Nat}
    (unpadded : ∀ entry ∈ entries, entry.2.value.Unpadded) (short : ∀ entry ∈ entries, entry.2.value.valLength ≤ 128)
    (holds : Holds content offset (entries.flatMap backupBytes)) :
    deserializeBackups content entries.length offset = some (entries.map backupRecord) := by
  induction entries generalizing offset with
  | nil => rfl
  | cons entry entries ih =>
    rw [List.forall_mem_cons] at unpadded short
    rw [List.flatMap_cons] at holds
    obtain ⟨first, others⟩ := holds_append.mp holds
    have head := deserializeBackup_of_holds unpadded.1 short.1 first
    have tail := ih unpadded.2 short.2 others
    simp [deserializeBackups, head, tail]

end Decoder

/-- The dump is the loop over the backups, behind their number in an otherwise empty array. -/
theorem dumpUpstreamBackups_eq (entries : List (Key × UpstreamBackup)) :
    ∃ after, Wrote backupBuffer.clear 0 (bigEndian 4 entries.length) after ∧ after.cursize = 4 ∧
      dumpUpstreamBackups entries = (entries.foldlM serializeBackup (after, 4)).map fun final => final.1.array := by
  have count := writes_dynamicMemcpy backupBuffer.clear 0 (bigEndian 4 entries.length)
  obtain ⟨after, counted, wrote⟩ := count.1 (by rw [length_bigEndian]; decide)
  refine ⟨after, wrote, ?_, ?_⟩
  · rw [wrote.cursize, length_bigEndian]
    rfl
  · unfold dumpUpstreamBackups dynamicSerializeUpstreamBackups
    simp only [counted, id_eq, Option.bind_eq_bind, Option.bind_some]
    cases entries.foldlM serializeBackup (after, 4) <;> rfl

theorem dumpUpstreamBackups_padded {entries : List (Key × UpstreamBackup)}
    (padded : ∃ entry ∈ entries, ¬ entry.2.value.Unpadded)
    (short : ∀ entry ∈ entries, entry.2.value.valLength ≤ 128) :
    dumpUpstreamBackups entries = none := by
  obtain ⟨after, _, size, dumped⟩ := dumpUpstreamBackups_eq entries
  rw [dumped, serializeBackups_padded padded short (Nat.le_of_eq size)]
  rfl

/-- A dump of values of up to 128 bytes succeeds and is read back by the server exactly when no value
needs padding and the whole fits the array. -/
theorem upstream_backups_round_trip_iff (entries : List (Key × UpstreamBackup))
    (short : ∀ entry ∈ entries, entry.2.value.valLength ≤ 128) :
    BackupsRoundTrip entries ↔
      (∀ entry ∈ entries, entry.2.value.Unpadded) ∧ backupsSize entries ≤ 8388608 := by
  have total := backupsSize_eq entries
  obtain ⟨after, wrote, size, dumped⟩ := dumpUpstreamBackups_eq entries
  have capability : after.maxcapability = 8388608 := wrote.maxcapability
  unfold BackupsRoundTrip
  by_cases unpadded : ∀ entry ∈ entries, entry.2.value.Unpadded
  · have writes := writes_serializeBackups unpadded short (Nat.le_of_eq size.symm)
    by_cases fits : backupsSize entries ≤ 8388608
    · refine iff_of_true ?_ ⟨unpadded, fits⟩
      obtain ⟨final, done, wroteAll⟩ := writes.1 (by omega)
      refine ⟨final.array, by rw [dumped, done]; rfl, ?_⟩
      have bounded : entries.length < 2 ^ 31 := by
        have each : entries.length ≤ (entries.map fun entry => 23 + entry.2.value.valLength).sum := by
          have ones : (entries.map fun _ => 1).sum = entries.length := by simp
          rw [← ones]
          exact List.sum_le_sum fun entry _ => by omega
        unfold backupsSize at fits
        omega
      have countHeld := wroteAll.frame _ _ wrote.holds (by simp)
      have countRead := countHeld.readAt (length_bigEndian _ _) (by decide)
      have countBack : (ofBigEndian (bigEndian 4 entries.length)).toUInt32.toInt32.toNatClampNeg =
          entries.length := by
        rw [ofBigEndian_bigEndian (by omega)]
        exact Int32.toNatClampNeg_ofNat_of_lt bounded
      have records := deserializeBackups_of_holds unpadded short wroteAll.holds
      unfold deserializeUpstreamBackupContent
      simp only [countRead, Option.bind_eq_bind, Option.bind_some, countBack, records]
    · refine iff_of_false ?_ fun both => fits both.2
      rintro ⟨content, done, _⟩
      rw [dumped, writes.2 (by omega)] at done
      cases done
  · refine iff_of_false ?_ fun both => unpadded both.1
    rintro ⟨content, done, _⟩
    push Not at unpadded
    rw [dumpUpstreamBackups_padded unpadded short] at done
    cases done

/-- A put of eight bytes and a delete are read back. -/
theorem upstream_backups_round_trip_two :
    BackupsRoundTrip [(⟨1, 0, 0, 0⟩, ⟨⟨some [1, 2, 3, 4, 5, 6, 7, 8]⟩, 5, true⟩),
      (⟨2, 0, 0, 0⟩, ⟨⟨none⟩, 6, false⟩)] := by
  refine (upstream_backups_round_trip_iff _ ?_).mpr ⟨?_, by decide⟩
  · simp [JavaValue.valLength, JavaValue.val]
  · simp [JavaValue.Unpadded, JavaValue.valLength, JavaValue.val]

/-- A single backup of one byte: the dump exits. -/
theorem upstream_backups_dump_fails :
    dumpUpstreamBackups [(⟨1, 0, 0, 0⟩, ⟨⟨some [7]⟩, 5, true⟩)] = none ∧
      ¬ BackupsRoundTrip [(⟨1, 0, 0, 0⟩, ⟨⟨some [7]⟩, 5, true⟩)] := by
  have fails : dumpUpstreamBackups [(⟨1, 0, 0, 0⟩, ⟨⟨some [7]⟩, 5, true⟩)] = none := by
    refine dumpUpstreamBackups_padded ⟨_, List.mem_singleton_self _, ?_⟩ ?_ <;>
      simp [JavaValue.Unpadded, JavaValue.valLength, JavaValue.val]
  refine ⟨fails, ?_⟩
  rintro ⟨content, done, _⟩
  rw [fails] at done
  cases done

end FarReach
