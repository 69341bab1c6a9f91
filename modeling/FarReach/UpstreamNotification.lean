import FarReach.OrderedMap
import FarReach.SnapshotGetdata

namespace FarReach

open Bytes DynamicArray

/-- The body of the loops of `dynamic_serialize_upstream_backup_notification`: the buffer, the offset and
the number of pairs so far. -/
def serializeNotice (state : DynamicArray × Nat × Nat) (record : WireRecord) : Option (DynamicArray × Nat × Nat) := do
  let (buf, tmpkeysize) ← record.key.dynamicSerialize state.1 state.2.1
  let buf ← buf.dynamicMemcpy (state.2.1 + tmpkeysize) (bigEndian 4 record.seq.toNat)
  some (buf, state.2.1 + tmpkeysize + 4, state.2.2 + 1)

/-- `dynamic_serialize_upstream_backup_notification` of the key and seq arrays: the number is filled in
last. -/
def dynamicSerializeUpstreamBackupNotification (buf : DynamicArray) (perserver : List (List WireRecord)) :
    Option (DynamicArray × Nat) := do
  let (buf, offset, tmpnum) ← perserver.foldlM (fun state records => records.foldlM serializeNotice state) (buf, 4, 0)
  let buf ← buf.dynamicMemcpy 0 (bigEndian 4 tmpnum.toUInt32.toNat)
  some (buf, offset)

/-- The bytes the controller sends to each client. -/
def notificationBytes (perserver : List (List WireRecord)) : Option (List UInt8) := do
  let (buf, notificationbytes) ← dynamicSerializeUpstreamBackupNotification databuf.clear perserver
  some (buf.array.take notificationbytes)

namespace JavaClient

def ntohi (bytes : List UInt8) : Int32 := (ofBigEndian bytes).toUInt32.toInt32

def ntohs (bytes : List UInt8) : Int16 := (ofBigEndian bytes).toUInt16.toInt16

/-- `Key.deserialize`; the words of the key are the bits of the `int` fields. The halves of `keyhihi` are
sign-extended before they are put together. -/
def deserializeKey (data : List UInt8) (offset recvSize : Nat) : Option Key := do
  guard (offset + 16 ≤ recvSize)
  let keyLolo ← readAt data offset 4
  let keyLohi ← readAt data (offset + 4) 4
  let keyHilo ← readAt data (offset + 8) 4
  let keyHihilo ← readAt data (offset + 12) 2
  let keyHihihi ← readAt data (offset + 14) 2
  let keyhihi := ((ntohs keyHihihi).toInt32 <<< 16) ||| ((ntohs keyHihilo).toInt32 &&& 0xFFFF)
  some ⟨(ntohi keyLolo).toUInt32, (ntohi keyLohi).toUInt32, (ntohi keyHilo).toUInt32, keyhihi.toUInt32⟩

/-- The loop of `deserializeUpstreamBackupNotification`; a `HashMap` is a map from keys. -/
def deserializePairs (buf : List UInt8) (maxSize : Nat) :
    Nat → Nat → Std.ExtTreeMap Key Int32 → Option (Std.ExtTreeMap Key Int32)
  | 0, _, result => some result
  | tmpnum + 1, offset, result => do
    guard (offset + 16 ≤ maxSize)
    let tmpkey ← deserializeKey buf offset maxSize
    guard (offset + 16 + 4 ≤ maxSize)
    let seqBytes ← readAt buf (offset + 16) 4
    deserializePairs buf maxSize tmpnum (offset + 16 + 4) (result.insert tmpkey (ntohi seqBytes))

/-- `OutbandPacketFormat.deserializeUpstreamBackupNotification`; a failed assertion has no result. -/
def deserializeUpstreamBackupNotification (buf : List UInt8) (maxSize : Nat) : Option (Std.ExtTreeMap Key Int32) := do
  guard (4 ≤ maxSize)
  let numBytes ← readAt buf 0 4
  deserializePairs buf maxSize (ntohi numBytes).toNatClampNeg 4 ∅

theorem getElem_lowMask (position : Fin 32) : (65535#32)[position] = decide (position.val < 16) := by
  revert position
  decide

/-- The sign bits that the halves of a word are extended by do not get into the word. -/
theorem signExtend_join (high low : BitVec 16) :
    (high.signExtend 32 <<< 16) ||| (low.signExtend 32 &&& 65535#32) = (high.setWidth 32 <<< 16) |||
      low.setWidth 32 := by
  apply BitVec.eq_of_getElem_eq
  intro i inside
  have mask : (65535#32)[i] = decide (i < 16) := getElem_lowMask ⟨i, inside⟩
  simp only [BitVec.getElem_or, BitVec.getElem_shiftLeft, BitVec.getElem_and, BitVec.getElem_signExtend,
    BitVec.getElem_setWidth, mask]
  by_cases lower : i < 16
  · simp [lower]
  · have beyond := BitVec.getLsbD_of_ge low i (by omega)
    have inner : i - 16 < 16 := by omega
    simp [lower, inner, beyond]

theorem join_signed (high low : UInt16) :
    ((high.toInt16.toInt32 <<< 16) ||| (low.toInt16.toInt32 &&& 0xFFFF)).toUInt32 =
      high.toUInt32 <<< 16 ||| low.toUInt32 := by
  apply UInt32.eq_of_toBitVec_eq
  simpa using signExtend_join high.toBitVec low.toBitVec

theorem ntohi_bytes32 (word : UInt32) : (ntohi (Key.bytes32 word)).toUInt32 = word := by
  unfold ntohi
  rw [Key.ofBigEndian_bytes32]
  simp

theorem ntohs_bytes16 (half : UInt16) : ntohs (Key.bytes16 half) = half.toInt16 := by
  unfold ntohs
  rw [Key.ofBigEndian_bytes16]
  simp

/-- The client reads the key that the controller wrote. -/
theorem deserializeKey_of_holds {key : Key} {data : List UInt8} {offset recvSize : Nat}
    (holds : Holds data offset key.serialize) (long : offset + 16 ≤ recvSize) :
    deserializeKey data offset recvSize = some key := by
  simp only [Key.serialize, holds_append, List.length_append, Key.length_bytes32, Key.length_bytes16,
    Nat.reduceAdd] at holds
  obtain ⟨⟨⟨⟨lolo, lohi⟩, hilo⟩, hihilo⟩, hihihi⟩ := holds
  have loloRead := lolo.readAt (Key.length_bytes32 _) (by decide)
  have lohiRead := lohi.readAt (Key.length_bytes32 _) (by decide)
  have hiloRead := hilo.readAt (Key.length_bytes32 _) (by decide)
  have hihiloRead := hihilo.readAt (Key.length_bytes16 _) (by decide)
  have hihihiRead := hihihi.readAt (Key.length_bytes16 _) (by decide)
  have joined := Key.join_halves key.keyhihi
  unfold deserializeKey
  rw [loloRead, lohiRead, hiloRead, hihiloRead, hihihiRead]
  simp only [guard, long, if_true, Option.pure_def, Option.bind_eq_bind, Option.bind_some, ntohi_bytes32,
    ntohs_bytes16, join_signed]
  rw [show ∀ half : UInt16, half.toNat.toUInt32 = half.toUInt32 by simp,
    show ∀ half : UInt16, half.toNat.toUInt32 = half.toUInt32 by simp] at joined
  rw [joined]

def putPairs (entries : List (Key × Int32)) (result : Std.ExtTreeMap Key Int32) : Std.ExtTreeMap Key Int32 :=
  entries.foldl (fun result entry => result.insert entry.1 entry.2) result

theorem getElem?_putPairs {entries : List (Key × Int32)} (distinct : (entries.map Prod.fst).Nodup)
    (result : Std.ExtTreeMap Key Int32) (key : Key) (seq : Int32) :
    (putPairs entries result)[key]? = some seq ↔
      (key, seq) ∈ entries ∨ key ∉ entries.map Prod.fst ∧ result[key]? = some seq := by
  induction entries generalizing result with
  | nil => simp [putPairs]
  | cons entry rest ih =>
    obtain ⟨absent, distinct⟩ := List.nodup_cons.mp distinct
    have first : putPairs (entry :: rest) result = putPairs rest (result.insert entry.1 entry.2) := rfl
    rw [first, ih distinct, OrderedMap.lookup_insert]
    have later : ∀ value, (entry.1, value) ∈ rest → False := by
      intro value member
      exact absent (List.mem_map.mpr ⟨_, member, rfl⟩)
    rw [List.mem_cons, List.map_cons, List.mem_cons, Prod.ext_iff]
    by_cases same : key = entry.1
    · subst same
      rw [if_pos rfl]
      constructor
      · rintro (member | ⟨_, value⟩)
        · exact (later seq member).elim
        · exact Or.inl (Or.inl ⟨rfl, (Option.some.inj value).symm⟩)
      · rintro ((⟨_, value⟩ | member) | ⟨outside, _⟩)
        · exact Or.inr ⟨absent, congrArg some value.symm⟩
        · exact (later seq member).elim
        · exact absurd (Or.inl rfl) outside
    · rw [if_neg same]
      simp [same]

end JavaClient

section Encoder

def noticeBytes (record : WireRecord) : List UInt8 := record.key.serialize ++ bigEndian 4 record.seq.toNat

@[simp] theorem length_noticeBytes (record : WireRecord) : (noticeBytes record).length = 20 := by
  simp [noticeBytes]

theorem length_flatMap_noticeBytes (records : List WireRecord) :
    (records.flatMap noticeBytes).length = 20 * records.length := by
  simp [List.length_flatMap, Nat.mul_comm]

theorem writes_serializeNotice (buf : DynamicArray) (offset tmpnum : Nat) (record : WireRecord) :
    Writes buf offset (noticeBytes record) (serializeNotice (buf, offset, tmpnum) record)
      (·, offset + 20, tmpnum + 1) := by
  unfold noticeBytes serializeNotice
  refine (Key.writes_dynamicSerialize _ _ _).bind fun _ _ => ?_
  rw [Key.length_serialize]
  exact (writes_dynamicMemcpy _ _ _).finish (·, offset + 20, tmpnum + 1)

theorem writes_serializeNotices (records : List WireRecord) (buf : DynamicArray) (offset tmpnum : Nat)
    (used : offset ≤ buf.cursize ∨ records ≠ []) :
    Writes buf offset (records.flatMap noticeBytes) (records.foldlM serializeNotice (buf, offset, tmpnum))
      (·, offset + 20 * records.length, tmpnum + records.length) := by
  induction records generalizing buf offset tmpnum with
  | nil => exact writes_nil (used.resolve_right fun none => none rfl) (·, offset, tmpnum)
  | cons record rest ih =>
    have more : offset + 20 * (record :: rest).length = offset + 20 + 20 * rest.length := by
      rw [List.length_cons]
      omega
    have count : tmpnum + (record :: rest).length = tmpnum + 1 + rest.length := by
      rw [List.length_cons]
      omega
    rw [List.flatMap_cons, List.foldlM_cons, more, count]
    refine (writes_serializeNotice buf offset tmpnum record).bind fun after wrote => ?_
    rw [length_noticeBytes]
    refine ih after _ _ (Or.inl ?_)
    rw [wrote.cursize, length_noticeBytes]
    exact Nat.le_max_right _ _

theorem notificationBytes_eq {perserver : List (List WireRecord)}
    (fits : 4 + 20 * perserver.flatten.length ≤ 8388608) :
    notificationBytes perserver =
      some (bigEndian 4 perserver.flatten.length ++ perserver.flatten.flatMap noticeBytes) := by
  have size := length_flatMap_noticeBytes perserver.flatten
  obtain ⟨after, ran, capability, held⟩ : ∃ after,
      perserver.flatten.foldlM serializeNotice (databuf.clear, 4, 0) =
          some (after, 4 + 20 * perserver.flatten.length, perserver.flatten.length) ∧
        after.maxcapability = 8388608 ∧ Holds after.array 4 (perserver.flatten.flatMap noticeBytes) := by
    by_cases empty : perserver.flatten = []
    · rw [empty]
      exact ⟨databuf.clear, rfl, rfl, by simp [Holds]⟩
    · have writes := writes_serializeNotices perserver.flatten databuf.clear 4 0 (Or.inr empty)
      have room : 4 + (perserver.flatten.flatMap noticeBytes).length ≤ databuf.clear.maxcapability := by
        rw [size]
        exact fits
      obtain ⟨after, ran, wrote⟩ := writes.1 room
      rw [Nat.zero_add] at ran
      exact ⟨after, ran, wrote.maxcapability, wrote.holds⟩
  have number : perserver.flatten.length.toUInt32.toNat = perserver.flatten.length := by
    refine UInt32.toNat_ofNat_of_lt' ?_
    have limit : UInt32.size = 4294967296 := rfl
    omega
  have count := writes_dynamicMemcpy after 0 (bigEndian 4 perserver.flatten.length)
  obtain ⟨final, counted, wrote⟩ := count.1 (by rw [length_bigEndian]; omega)
  have whole : Holds final.array 0
      (bigEndian 4 perserver.flatten.length ++ perserver.flatten.flatMap noticeBytes) := by
    refine holds_append.mpr ⟨wrote.holds, ?_⟩
    have frame := wrote.frame _ _ held (by simp)
    simpa using frame
  have sent := List.prefix_iff_eq_take.mp (holds_zero_iff.mp whole)
  rw [List.length_append, length_bigEndian, size] at sent
  unfold notificationBytes dynamicSerializeUpstreamBackupNotification
  rw [Loops.foldlM_flatten, ran]
  simp only [Option.bind_eq_bind, Option.bind_some, number, counted, id_eq]
  rw [← sent]

end Encoder

section Decoder

open JavaClient

theorem deserializePairs_of_holds {records : List WireRecord} {buf : List UInt8} {maxSize offset : Nat}
    (holds : Holds buf offset (records.flatMap noticeBytes)) (inside : offset + 20 * records.length ≤ maxSize)
    (result : Std.ExtTreeMap Key Int32) :
    deserializePairs buf maxSize records.length offset result =
      some (putPairs (records.map fun record => (record.key, record.seq.toInt32)) result) := by
  induction records generalizing offset result with
  | nil => rfl
  | cons record rest ih =>
    rw [List.length_cons] at inside
    rw [List.flatMap_cons] at holds
    obtain ⟨here, others⟩ := holds_append.mp holds
    rw [length_noticeBytes] at others
    obtain ⟨key, seq⟩ := holds_append.mp here
    rw [Key.length_serialize] at seq
    have keyRead := deserializeKey_of_holds key (show offset + 16 ≤ maxSize by omega)
    have seqRead := seq.readAt (length_bigEndian _ _) (by decide)
    have seqBack : ntohi (bigEndian 4 record.seq.toNat) = record.seq.toInt32 := by
      rw [ntohi, toUInt32_ofBigEndian]
    have tail := ih others (by omega) (result.insert record.key record.seq.toInt32)
    rw [List.length_cons, deserializePairs]
    simp only [guard, show offset + 16 ≤ maxSize by omega, show offset + 16 + 4 ≤ maxSize by omega, if_true,
      Option.pure_def, Option.bind_eq_bind, Option.bind_some, keyRead, seqRead, seqBack, tail]
    rfl

end Decoder

/-- The size of the `SNAPSHOT_GETDATA_ACK` that brought the records of the servers. -/
def snapshotSize (perserver : List (List WireRecord)) : Nat := 8 + (perserver.map SnapshotGetdata.serverSize).sum

/-- A snapshot with more than 23 bytes for a record has room for the 20 bytes of a pair. -/
theorem notification_fits (perserver : List (List WireRecord)) :
    4 + 20 * perserver.flatten.length ≤ snapshotSize perserver := by
  have each : 20 * perserver.flatten.length ≤ (perserver.map SnapshotGetdata.serverSize).sum := by
    induction perserver with
    | nil => simp
    | cons records rest ih =>
      have here : 20 * records.length ≤ SnapshotGetdata.serverSize records := by
        induction records with
        | nil => simp
        | cons record records inner =>
          unfold SnapshotGetdata.serverSize at inner ⊢
          rw [List.map_cons, List.sum_cons, List.length_cons]
          omega
      rw [List.flatten_cons, List.length_append, List.map_cons, List.sum_cons]
      omega
  unfold snapshotSize
  omega

/-- The client gets exactly the pairs of key and sequence number of a snapshot whose keys are all
different. -/
theorem notification_decodes {perserver : List (List WireRecord)} (snapshot : snapshotSize perserver ≤ 8388608)
    (distinct : (perserver.flatten.map (·.key)).Nodup) :
    ∃ bytes keySeqMap, notificationBytes perserver = some bytes ∧
      JavaClient.deserializeUpstreamBackupNotification bytes bytes.length = some keySeqMap ∧
      ∀ (key : Key) (seq : UInt32), keySeqMap[key]? = some seq.toInt32 ↔
        ∃ record ∈ perserver.flatten, record.key = key ∧ record.seq = seq := by
  have fits := (notification_fits perserver).trans snapshot
  have size : (bigEndian 4 perserver.flatten.length ++ perserver.flatten.flatMap noticeBytes).length =
      4 + 20 * perserver.flatten.length := by
    rw [List.length_append, length_bigEndian, length_flatMap_noticeBytes]
  obtain ⟨head, pairs⟩ := holds_append.mp (holds_zero_iff.mpr
    (List.prefix_refl (bigEndian 4 perserver.flatten.length ++ perserver.flatten.flatMap noticeBytes)))
  have numRead := head.readAt (length_bigEndian _ _) (by decide)
  have numBack : (JavaClient.ntohi (bigEndian 4 perserver.flatten.length)).toNatClampNeg =
      perserver.flatten.length := by
    unfold JavaClient.ntohi
    rw [ofBigEndian_bigEndian (by omega)]
    exact Int32.toNatClampNeg_ofNat_of_lt (by omega)
  rw [length_bigEndian, Nat.zero_add] at pairs
  have pairsRead := deserializePairs_of_holds pairs (Nat.le_of_eq size.symm) ∅
  have decoded : JavaClient.deserializeUpstreamBackupNotification
      (bigEndian 4 perserver.flatten.length ++ perserver.flatten.flatMap noticeBytes)
      (bigEndian 4 perserver.flatten.length ++ perserver.flatten.flatMap noticeBytes).length =
      some (JavaClient.putPairs (perserver.flatten.map fun record => (record.key, record.seq.toInt32)) ∅) := by
    unfold JavaClient.deserializeUpstreamBackupNotification
    simp only [guard, show 4 ≤ (bigEndian 4 perserver.flatten.length ++ perserver.flatten.flatMap noticeBytes).length
      by omega, if_true, Option.pure_def, Option.bind_eq_bind, Option.bind_some, numRead, numBack]
    exact pairsRead
  refine ⟨_, _, notificationBytes_eq fits, decoded, ?_⟩
  intro key seq
  have keys : ((perserver.flatten.map fun record => (record.key, record.seq.toInt32)).map Prod.fst).Nodup := by
    rw [List.map_map]
    exact distinct
  rw [JavaClient.getElem?_putPairs keys]
  simp only [List.mem_map, Prod.mk.injEq, Std.ExtTreeMap.getElem?_empty, reduceCtorEq, and_false, or_false]
  refine exists_congr fun record => and_congr_right fun _ => and_congr_right fun _ => ?_
  constructor
  · intro same
    simpa using congrArg Int32.toUInt32 same
  · intro same
    rw [same]

theorem notification_decodes_two :
    ∃ bytes keySeqMap,
      notificationBytes [[⟨⟨1, 0, 0, 0⟩, [], 3, true⟩], [⟨⟨2, 0, 0, 0⟩, [7], 4294967295, true⟩]] = some bytes ∧
      JavaClient.deserializeUpstreamBackupNotification bytes bytes.length = some keySeqMap ∧
      ∀ (key : Key) (seq : UInt32), keySeqMap[key]? = some seq.toInt32 ↔
        ∃ record ∈ [[(⟨⟨1, 0, 0, 0⟩, [], 3, true⟩ : WireRecord)], [⟨⟨2, 0, 0, 0⟩, [7], 4294967295, true⟩]].flatten,
          record.key = key ∧ record.seq = seq :=
  notification_decodes (by decide) (by decide)

end FarReach
