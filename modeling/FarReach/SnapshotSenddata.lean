import FarReach.FieldCodec

namespace FarReach

open Bytes DynamicArray

/-- One entry of the key, value, seq and stat arrays of a server's snapshot data. -/
structure WireRecord where
  key : Key
  val : Val
  seq : UInt32
  stat : Bool
deriving DecidableEq

def intBytes (n : Int32) : List UInt8 := littleEndian 4 n.toUInt32.toNat

def ofIntBytes (bytes : List UInt8) : Int32 := (ofLittleEndian bytes).toUInt32.toInt32

theorem ofIntBytes_intBytes (n : Int32) : ofIntBytes (intBytes n) = n := by
  unfold ofIntBytes intBytes
  rw [toUInt32_ofLittleEndian]
  simp

def boolByte (flag : Bool) : List UInt8 := [if flag then 1 else 0]

/-- The body of the loop of `dynamic_serialize_snapshot_senddata`. The status byte is converted from
the sequence number. -/
def serializeRecord (state : DynamicArray × Nat) (record : WireRecord) : Option (DynamicArray × Nat) := do
  let (buf, tmpkeysize) ← record.key.dynamicSerialize state.1 state.2
  let (buf, tmpvalsize) ← Val.dynamicSerialize record.val buf (state.2 + tmpkeysize)
  let buf ← buf.dynamicMemcpy (state.2 + tmpkeysize + tmpvalsize) (littleEndian 4 record.seq.toNat)
  let tmpstat := record.seq != 0
  let buf ← buf.dynamicMemcpy (state.2 + tmpkeysize + tmpvalsize + 4) (boolByte tmpstat)
  some (buf, state.2 + tmpkeysize + tmpvalsize + 5)

def serializeSenddataHead (buf : DynamicArray) (controlType snapshotid : Int32) : Option DynamicArray := do
  let buf ← buf.dynamicMemcpy 0 (intBytes controlType)
  buf.dynamicMemcpy 4 (intBytes snapshotid)

def serializeSenddataBody (buf : DynamicArray) (serveridx : UInt16) (recordcnt : Int32) (records : List WireRecord) :
    Option (DynamicArray × Nat) := do
  let buf ← buf.dynamicMemcpy 12 (littleEndian 2 serveridx.toNat)
  let buf ← buf.dynamicMemcpy 14 (intBytes recordcnt)
  records.foldlM serializeRecord (buf, 18)

/-- `dynamic_serialize_snapshot_senddata`: the size is filled in last. -/
def dynamicSerializeSnapshotSenddata (buf : DynamicArray) (controlType snapshotid : Int32) (serveridx : UInt16)
    (recordcnt : Int32) (records : List WireRecord) : Option (DynamicArray × Nat) := do
  let buf ← serializeSenddataHead buf controlType snapshotid
  let (buf, offset) ← serializeSenddataBody buf serveridx recordcnt records
  let buf ← buf.dynamicMemcpy 8 (intBytes (Int32.ofNat offset))
  some (buf, offset)

/-- `dynamic_buf.size() - offset` as the `uint32_t` the field decoders take. -/
def remaining (buf : DynamicArray) (offset : Nat) : Nat := (((buf.cursize : Int) - offset) % 2 ^ 32).toNat

def deserializeRecord (buf : DynamicArray) (offset : Nat) : Option (WireRecord × Nat) := do
  let (key, tmpkeysize) ← Key.deserialize buf.array offset (remaining buf offset)
  let offset := offset + tmpkeysize
  let (val, tmpvalsize) ← Val.deserialize buf.array offset (remaining buf offset)
  let offset := offset + tmpvalsize
  let tmpseq ← readAt buf.array offset 4
  let tmpstat ← readAt buf.array (offset + 4) 1
  some (⟨key, val, (ofLittleEndian tmpseq).toUInt32, ofLittleEndian tmpstat != 0⟩, offset + 5)

def deserializeRecords (buf : DynamicArray) : Nat → Nat → Option (List WireRecord)
  | 0, _ => some []
  | recordcnt + 1, offset => do
    let (record, offset) ← deserializeRecord buf offset
    let records ← deserializeRecords buf recordcnt offset
    some (record :: records)

/-- What `deserialize_snapshot_senddata` returns through its reference parameters. -/
structure Senddata where
  snapshotid : Int32
  bytes : Int32
  serveridx : UInt16
  recordcnt : Int32
  records : List WireRecord

def deserializeSnapshotSenddata (buf : DynamicArray) (controlType : Int32) : Option Senddata := do
  let tmpControlType ← readAt buf.array 0 4
  guard (ofIntBytes tmpControlType = controlType)
  let snapshotid ← readAt buf.array 4 4
  let bytes ← readAt buf.array 8 4
  let serveridx ← readAt buf.array 12 2
  let recordcnt ← readAt buf.array 14 4
  let records ← deserializeRecords buf (ofIntBytes recordcnt).toNatClampNeg 18
  some ⟨ofIntBytes snapshotid, ofIntBytes bytes, (ofLittleEndian serveridx).toUInt16, ofIntBytes recordcnt, records⟩

def recordBytes (record : WireRecord) : List UInt8 :=
  record.key.serialize ++ (Val.serialize record.val ++
    (littleEndian 4 record.seq.toNat ++ boolByte (record.seq != 0)))

theorem length_recordBytes (record : WireRecord) :
    (recordBytes record).length = 23 + record.val.length + Val.getPaddingSize record.val.length := by
  simp only [recordBytes, List.length_append, Key.length_serialize, Val.length_serialize, length_littleEndian,
    boolByte, List.length_singleton]
  omega

def senddataSize (records : List WireRecord) : Nat :=
  18 + (records.map fun record => 23 + record.val.length + Val.getPaddingSize record.val.length).sum

theorem senddataSize_eq (records : List WireRecord) :
    senddataSize records = 18 + (records.flatMap recordBytes).length := by
  simp [senddataSize, List.length_flatMap, length_recordBytes]

theorem length_le_senddataSize (records : List WireRecord) : records.length ≤ senddataSize records := by
  have each : (records.map fun _ => 1).sum ≤
      (records.map fun record => 23 + record.val.length + Val.getPaddingSize record.val.length).sum :=
    List.sum_le_sum fun record _ => by omega
  have ones : (records.map fun _ => 1).sum = records.length := by simp
  unfold senddataSize
  omega

theorem writes_serializeRecord (buf : DynamicArray) (offset : Nat) (record : WireRecord) :
    Writes buf offset (recordBytes record) (serializeRecord (buf, offset) record)
      (·, offset + (recordBytes record).length) := by
  have size : offset + (recordBytes record).length =
      offset + 16 + (2 + record.val.length + Val.getPaddingSize record.val.length) + 5 := by
    rw [length_recordBytes]
    omega
  rw [size]
  unfold recordBytes serializeRecord
  refine (Key.writes_dynamicSerialize _ _ _).bind fun _ _ => ?_
  refine (Val.writes_dynamicSerialize _ _ _).bind fun _ _ => ?_
  rw [Key.length_serialize, Val.length_serialize]
  refine (writes_dynamicMemcpy _ _ _).bind fun _ _ => ?_
  exact (writes_dynamicMemcpy _ _ _).finish
    (·, offset + 16 + (2 + record.val.length + Val.getPaddingSize record.val.length) + 5)

theorem writes_serializeRecords (records : List WireRecord) (buf : DynamicArray) (offset : Nat)
    (used : offset ≤ buf.cursize) :
    Writes buf offset (records.flatMap recordBytes) (records.foldlM serializeRecord (buf, offset))
      (·, offset + (records.flatMap recordBytes).length) :=
  writes_foldlM (fun record _ buf offset => writes_serializeRecord buf offset record) (Or.inl used)

def senddataBytes (controlType snapshotid : Int32) (serveridx : UInt16) (records : List WireRecord) : List UInt8 :=
  (intBytes controlType ++ intBytes snapshotid) ++ (intBytes (Int32.ofNat (senddataSize records)) ++
    (littleEndian 2 serveridx.toNat ++ (intBytes (Int32.ofNat records.length) ++ records.flatMap recordBytes)))

@[simp] theorem length_intBytes (n : Int32) : (intBytes n).length = 4 := by
  simp [intBytes]

theorem writes_serializeSenddataHead (buf : DynamicArray) (controlType snapshotid : Int32) :
    Writes buf 0 (intBytes controlType ++ intBytes snapshotid)
      (serializeSenddataHead buf controlType snapshotid) id := by
  refine (writes_dynamicMemcpy _ _ _).bind fun _ _ => ?_
  rw [length_intBytes]
  exact writes_dynamicMemcpy _ _ _

theorem writes_serializeSenddataBody (buf : DynamicArray) (serveridx : UInt16) (recordcnt : Int32)
    (records : List WireRecord) :
    Writes buf 12 (littleEndian 2 serveridx.toNat ++ (intBytes recordcnt ++ records.flatMap recordBytes))
      (serializeSenddataBody buf serveridx recordcnt records) (·, senddataSize records) := by
  rw [senddataSize_eq]
  refine (writes_dynamicMemcpy _ _ _).bind fun _ _ => ?_
  rw [length_littleEndian]
  refine (writes_dynamicMemcpy _ _ _).bind fun _ wrote => ?_
  rw [length_intBytes]
  refine writes_serializeRecords records _ 18 ?_
  have size := wrote.cursize
  rw [length_intBytes] at size
  omega

variable {buf : DynamicArray} {offset : Nat} {records : List WireRecord}

/-- The encoder exits on a message beyond the capability of the array, and otherwise leaves exactly the
message in a cleared array. -/
theorem dynamicSerializeSnapshotSenddata_spec (cleared : buf.cursize = 0) (controlType snapshotid : Int32)
    (serveridx : UInt16) (records : List WireRecord) :
    (senddataSize records ≤ buf.maxcapability → ∃ after,
      dynamicSerializeSnapshotSenddata buf controlType snapshotid serveridx (Int32.ofNat records.length) records =
          some (after, senddataSize records) ∧
        after.cursize = senddataSize records ∧ after.maxcapability = buf.maxcapability ∧
        Holds after.array 0 (senddataBytes controlType snapshotid serveridx records)) ∧
    (buf.maxcapability < senddataSize records →
      dynamicSerializeSnapshotSenddata buf controlType snapshotid serveridx (Int32.ofNat records.length) records =
        none) := by
  have total := senddataSize_eq records
  have head := writes_serializeSenddataHead buf controlType snapshotid
  have body := fun middle => writes_serializeSenddataBody middle serveridx (Int32.ofNat records.length) records
  unfold dynamicSerializeSnapshotSenddata
  simp only [Writes, List.length_append, length_intBytes, length_littleEndian] at head body
  constructor
  · intro fits
    obtain ⟨first, headDone, headWrote⟩ := head.1 (by omega)
    have firstCapability := headWrote.maxcapability
    obtain ⟨second, bodyDone, bodyWrote⟩ := (body first).1 (by omega)
    have secondCapability := bodyWrote.maxcapability
    obtain ⟨third, sizeDone, sizeWrote⟩ :=
      (writes_dynamicMemcpy second 8 (intBytes (Int32.ofNat (senddataSize records)))).1 (by
        rw [length_intBytes]
        omega)
    refine ⟨third, by simp [headDone, bodyDone, sizeDone], ?_, ?_, ?_⟩
    · rw [sizeWrote.cursize, bodyWrote.cursize, headWrote.cursize]
      simp only [List.length_append, length_intBytes, length_littleEndian]
      omega
    · exact sizeWrote.maxcapability.trans (secondCapability.trans firstCapability)
    · -- the head and the body lie on either side of the four bytes of the size
      have front := sizeWrote.frame _ _ (bodyWrote.frame _ _ headWrote.holds (by simp)) (by simp)
      have size := sizeWrote.holds
      have back := sizeWrote.frame _ _ bodyWrote.holds (by simp)
      exact holds_append.mpr ⟨front, holds_append.mpr ⟨by simpa using size, by simpa using back⟩⟩
  · intro exceeds
    by_cases headFits : 8 ≤ buf.maxcapability
    · obtain ⟨first, headDone, headWrote⟩ := head.1 (by omega)
      have firstCapability := headWrote.maxcapability
      rw [headDone]
      simp [(body first).2 (by omega)]
    · rw [head.2 (by omega)]
      rfl

theorem remaining_eq (inside : offset ≤ buf.cursize) :
    remaining buf offset = buf.cursize - offset := by
  have size := buf.cursize_le
  have capability := buf.curcapability_le
  have bounded := buf.bounded
  unfold remaining
  omega

/-- A decoded record is the encoded one with its status taken from the sequence number. -/
def WireRecord.received (record : WireRecord) : WireRecord := { record with stat := record.seq != 0 }

def dataBytes (record : WireRecord) : List UInt8 :=
  record.key.serialize ++ (Val.serialize record.val ++ (littleEndian 4 record.seq.toNat ++ boolByte record.stat))

theorem length_dataBytes (record : WireRecord) :
    (dataBytes record).length = 23 + record.val.length + Val.getPaddingSize record.val.length := by
  simp only [dataBytes, List.length_append, Key.length_serialize, Val.length_serialize, length_littleEndian,
    boolByte, List.length_singleton]
  omega

theorem deserializeRecord_dataBytes {buf : DynamicArray} {offset : Nat} {record : WireRecord}
    (short : record.val.length < 65536) (holds : Holds buf.array offset (dataBytes record))
    (inside : offset + (dataBytes record).length ≤ buf.cursize) :
    deserializeRecord buf offset = some (record, offset + (dataBytes record).length) := by
  have size := length_dataBytes record
  have valSize := Val.length_serialize record.val
  simp only [dataBytes, holds_append, Key.length_serialize, length_littleEndian] at holds
  obtain ⟨key, val, seq, stat⟩ := holds
  have keyRead := Key.deserialize_of_holds key (show 16 ≤ remaining buf offset by
    rw [remaining_eq (by omega)]
    omega)
  have valRead := Val.deserialize_of_holds short val (show _ ≤ remaining buf (offset + 16) by
    rw [remaining_eq (by omega)]
    omega)
  have seqRead := seq.readAt (length_littleEndian _ _) (by decide)
  have statRead := stat.readAt (show (boolByte _).length = 1 from rfl) (by decide)
  have seqBack := toUInt32_ofLittleEndian record.seq
  have statBack : (ofLittleEndian (boolByte record.stat) != 0) = record.stat := by
    cases record.stat <;> rfl
  unfold deserializeRecord
  rw [valSize] at valRead seqRead statRead
  simp only [keyRead, valRead, seqRead, statRead, Option.bind_eq_bind, Option.bind_some, seqBack, statBack]
  have total : offset + 16 + (2 + record.val.length + Val.getPaddingSize record.val.length) + 5 =
      offset + (dataBytes record).length := by omega
  rw [total]

theorem deserializeRecord_of_holds {record : WireRecord} (short : record.val.length < 65536)
    (holds : Holds buf.array offset (recordBytes record))
    (inside : offset + (recordBytes record).length ≤ buf.cursize) :
    deserializeRecord buf offset = some (record.received, offset + (recordBytes record).length) :=
  @deserializeRecord_dataBytes _ _ record.received short holds inside

theorem deserializeRecords_of_holds (short : ∀ record ∈ records, record.val.length < 65536)
    (holds : Holds buf.array offset (records.flatMap recordBytes))
    (inside : offset + (records.flatMap recordBytes).length ≤ buf.cursize) :
    deserializeRecords buf records.length offset = some (records.map WireRecord.received) := by
  induction records generalizing offset with
  | nil => rfl
  | cons record records ih =>
    rw [List.flatMap_cons] at holds inside
    rw [List.length_append, ← Nat.add_assoc] at inside
    obtain ⟨first, others⟩ := holds_append.mp holds
    have head := deserializeRecord_of_holds (short record List.mem_cons_self) first (by omega)
    have tail := ih (fun other member => short other (List.mem_cons_of_mem _ member)) others inside
    simp [deserializeRecords, head, tail]

/-- The decoder on a message: everything comes back, but for the status of the records. -/
theorem deserializeSnapshotSenddata_of_holds {controlType snapshotid : Int32} {serveridx : UInt16}
    (short : ∀ record ∈ records, record.val.length < 65536) (size : buf.cursize = senddataSize records)
    (holds : Holds buf.array 0 (senddataBytes controlType snapshotid serveridx records)) :
    deserializeSnapshotSenddata buf controlType =
      some ⟨snapshotid, Int32.ofNat (senddataSize records), serveridx, Int32.ofNat records.length,
        records.map WireRecord.received⟩ := by
  simp only [senddataBytes, holds_append, List.length_append, length_intBytes, length_littleEndian, Nat.zero_add,
    Nat.reduceAdd] at holds
  obtain ⟨⟨control, id⟩, bytes, server, count, data⟩ := holds
  have controlRead := control.readAt (length_intBytes _) (by decide)
  have idRead := id.readAt (length_intBytes _) (by decide)
  have bytesRead := bytes.readAt (length_intBytes _) (by decide)
  have serverRead := server.readAt (length_littleEndian _ _) (by decide)
  have countRead := count.readAt (length_intBytes _) (by decide)
  have total := senddataSize_eq records
  have bounded := buf.cursize_le.trans (buf.curcapability_le.trans buf.bounded)
  have counted : (Int32.ofNat records.length).toNatClampNeg = records.length := by
    refine Int32.toNatClampNeg_ofNat_of_lt ?_
    have short := length_le_senddataSize records
    omega
  have recordsRead := deserializeRecords_of_holds short data (by omega)
  have serverBack := toUInt16_ofLittleEndian serveridx
  unfold deserializeSnapshotSenddata
  simp only [controlRead, idRead, bytesRead, serverRead, countRead, Option.bind_eq_bind, Option.bind_some,
    ofIntBytes_intBytes, guard, if_true, Option.pure_def, counted, recordsRead, serverBack]

/-- The server gets back the id, its index, the count and the records, and the size in the message is
that of the buffer. -/
def SenddataRoundTrips (buf : DynamicArray) (controlType snapshotid : Int32) (serveridx : UInt16)
    (records : List WireRecord) : Prop :=
  ∃ after size received,
    dynamicSerializeSnapshotSenddata buf controlType snapshotid serveridx (Int32.ofNat records.length) records =
        some (after, size) ∧
      deserializeSnapshotSenddata after controlType = some received ∧
      received.snapshotid = snapshotid ∧ received.serveridx = serveridx ∧
      received.recordcnt.toInt = records.length ∧ received.records = records ∧
      received.bytes.toInt = after.cursize

theorem map_received_eq_iff :
    records.map WireRecord.received = records ↔ ∀ record ∈ records, record.stat = (record.seq != 0) := by
  induction records with
  | nil => simp
  | cons record records ih =>
    have first : record.received = record ↔ record.stat = (record.seq != 0) := by
      cases record
      simp only [WireRecord.received, WireRecord.mk.injEq, true_and]
      exact eq_comm
    simp only [List.map_cons, List.cons.injEq, List.forall_mem_cons, ih, first]

theorem senddataRoundTrips_iff (cleared : buf.cursize = 0) (controlType snapshotid : Int32) (serveridx : UInt16)
    (short : ∀ record ∈ records, record.val.length < 65536) :
    SenddataRoundTrips buf controlType snapshotid serveridx records ↔
      senddataSize records ≤ buf.maxcapability ∧ records.map WireRecord.received = records := by
  obtain ⟨sends, exits⟩ := dynamicSerializeSnapshotSenddata_spec cleared controlType snapshotid serveridx records
  have bounded := buf.bounded
  have counted := length_le_senddataSize records
  constructor
  · rintro ⟨after, size, received, sent, decoded, _, _, _, same, _⟩
    have fits : senddataSize records ≤ buf.maxcapability := by
      by_contra exceeds
      rw [exits (Nat.lt_of_not_le exceeds)] at sent
      cases sent
    obtain ⟨after', sent', sized, _, holds⟩ := sends fits
    cases sent.symm.trans sent'
    rw [deserializeSnapshotSenddata_of_holds short sized holds] at decoded
    cases decoded
    exact ⟨fits, same⟩
  · rintro ⟨fits, same⟩
    obtain ⟨after, sent, sized, _, holds⟩ := sends fits
    refine ⟨after, _, _, sent, deserializeSnapshotSenddata_of_holds short sized holds, rfl, rfl, ?_, same, ?_⟩
    · exact Int32.toInt_ofNat_of_lt (by omega)
    · rw [sized]
      exact Int32.toInt_ofNat_of_lt (by omega)

/-- The controller's snapshot data reaches the server unchanged exactly when the message fits into the
send buffer and every record is live if and only if its sequence number is not zero. -/
theorem senddata_round_trip {buf : DynamicArray} (cleared : buf.cursize = 0) (controlType snapshotid : Int32)
    (serveridx : UInt16) {records : List WireRecord} (short : ∀ record ∈ records, record.val.length ≤ 128) :
    SenddataRoundTrips buf controlType snapshotid serveridx records ↔
      senddataSize records ≤ buf.maxcapability ∧ ∀ record ∈ records, record.stat = (record.seq != 0) := by
  rw [senddataRoundTrips_iff cleared controlType snapshotid serveridx
    fun record member => (short record member).trans_lt (by decide), map_received_eq_iff]

theorem bufsize_pos : 0 < 40960 := by decide

theorem bufsize_lt_largeBufsize : 40960 < 8388608 := by decide

theorem largeBufsize_le : 8388608 ≤ 2 ^ 30 := by decide

/-- The send buffer of the controller, as `init` with `MAX_BUFSIZE` and `MAX_LARGE_BUFSIZE` leaves it. -/
def databuf : DynamicArray :=
  DynamicArray.allocated 40960 8388608 bufsize_pos bufsize_lt_largeBufsize largeBufsize_le

/-- Two live records make it, and a deleted one that was never written. -/
theorem senddata_round_trip_three :
    SenddataRoundTrips databuf 5 1 0
      [⟨⟨1, 0, 0, 0⟩, [7], 3, true⟩, ⟨⟨2, 0, 0, 0⟩, [], 0, false⟩, ⟨⟨0, 0, 0, 9⟩, [8, 9], 4, true⟩] :=
  (senddata_round_trip rfl 5 1 0 (by decide)).mpr ⟨by decide, by decide⟩

/-- A deleted record arrives as a live one. -/
theorem senddata_revives_deleted :
    ¬ SenddataRoundTrips databuf 5 1 0 [⟨⟨1, 0, 0, 0⟩, [], 3, false⟩] := by
  rw [senddataRoundTrips_iff rfl 5 1 0 (by decide)]
  decide

end FarReach
