import FarReach.Loops
import FarReach.SnapshotSenddata

namespace FarReach

open Bytes DynamicArray

/-- A backed-up record of a pipeline with the server that owns it. The length of a value takes 16 bits. -/
structure BackedRecord (servers : UInt16) extends WireRecord where
  serveridx : Fin servers.toNat
  short : val.length < 65536

/-- An entry of `tmp_sendbuf_list`, `tmp_send_bytes` and `tmp_record_cnts`. -/
structure Sendbuf where
  buf : DynamicArray
  sendBytes : Nat
  recordCnt : Nat

namespace Sendbuf

def fresh : Sendbuf := ⟨databuf.clear, 0, 0⟩

def serialize (sendbuf : Sendbuf) (record : WireRecord) : Option Sendbuf := do
  let (buf, tmpKeysize) ← record.key.dynamicSerialize sendbuf.buf sendbuf.sendBytes
  let (buf, tmpValsize) ← Val.dynamicSerialize record.val buf (sendbuf.sendBytes + tmpKeysize)
  let buf ← buf.dynamicMemcpy (sendbuf.sendBytes + tmpKeysize + tmpValsize) (littleEndian 4 record.seq.toNat)
  let buf ← buf.dynamicMemcpy (sendbuf.sendBytes + tmpKeysize + tmpValsize + 4) (boolByte record.stat)
  some ⟨buf, sendbuf.sendBytes + tmpKeysize + tmpValsize + 5, sendbuf.recordCnt + 1⟩

end Sendbuf

namespace SnapshotGetdata

variable {servers : UInt16}

def serializeBacked (sendbufs : Fin servers.toNat → Sendbuf) (record : BackedRecord servers) :
    Option (Fin servers.toNat → Sendbuf) := do
  let sendbuf ← (sendbufs record.serveridx).serialize record.toWireRecord
  some (Function.update sendbufs record.serveridx sendbuf)

def serializeServer (sendbufs : Fin servers.toNat → Sendbuf) (bwcosts : Fin servers.toNat → UInt64)
    (state : DynamicArray × Nat) (serveridx : Fin servers.toNat) : Option (DynamicArray × Nat) := do
  let sendbuf := sendbufs serveridx
  let perserverBytes := sendbuf.sendBytes + 18
  let buf ← state.1.dynamicMemcpy state.2 (intBytes (Int32.ofNat perserverBytes))
  let buf ← buf.dynamicMemcpy (state.2 + 4) (littleEndian 2 serveridx.val)
  let buf ← buf.dynamicMemcpy (state.2 + 6) (intBytes (Int32.ofNat sendbuf.recordCnt))
  let buf ← buf.dynamicMemcpy (state.2 + 10) (littleEndian 8 (bwcosts serveridx).toNat)
  let buf ← buf.dynamicMemcpy (state.2 + 18) (sendbuf.buf.array.take sendbuf.sendBytes)
  some (buf, state.2 + 18 + sendbuf.sendBytes)

/-- The control type and the total size are filled in last, then the size is checked against
`MAX_LARGE_BUFSIZE`. -/
def serializeHead (buf : DynamicArray) (controlType : Int32) (totalBytes : Nat) : Option (DynamicArray × Nat) := do
  let buf ← buf.dynamicMemcpy 0 (intBytes controlType)
  let buf ← buf.dynamicMemcpy 4 (intBytes (Int32.ofNat totalBytes))
  guard (totalBytes ≤ 8388608)
  some (buf, totalBytes)

def dynamicSerializeSnapshotGetdataAck (buf : DynamicArray) (controlType : Int32)
    (pipelines : List (List (BackedRecord servers))) (bwcosts : Fin servers.toNat → UInt64) :
    Option (DynamicArray × Nat) := do
  let sendbufs ← pipelines.foldlM (fun sendbufs records => records.foldlM serializeBacked sendbufs)
    (fun _ => Sendbuf.fresh)
  let (buf, totalBytes) ← (List.finRange servers.toNat).foldlM (serializeServer sendbufs bwcosts) (buf, 8)
  serializeHead buf controlType totalBytes

/-- What `deserialize_snapshot_getdata_ack` pushes for one server. -/
structure ServerData where
  bytes : Int32
  serveridx : UInt16
  recordcnt : Int32
  specialcaseBwcost : UInt64
  records : List WireRecord

def deserializeServerRecords (buf : DynamicArray) : Nat → Nat → Option (List WireRecord × Nat)
  | 0, offset => some ([], offset)
  | recordcnt + 1, offset => do
    let (record, offset) ← deserializeRecord buf offset
    let (records, offset) ← deserializeServerRecords buf recordcnt offset
    some (record :: records, offset)

def deserializeServer (buf : DynamicArray) (offset : Nat) : Option (ServerData × Nat) := do
  let bytes ← readAt buf.array offset 4
  let serveridx ← readAt buf.array (offset + 4) 2
  let recordcnt ← readAt buf.array (offset + 6) 4
  let bwcost ← readAt buf.array (offset + 10) 8
  let (records, offset) ← deserializeServerRecords buf (ofIntBytes recordcnt).toNatClampNeg (offset + 18)
  some (⟨ofIntBytes bytes, (ofLittleEndian serveridx).toUInt16, ofIntBytes recordcnt,
    (ofLittleEndian bwcost).toUInt64, records⟩, offset)

/-- The loop: every round reads at least 18 bytes, so that a round for each byte is enough. -/
def deserializeServers (buf : DynamicArray) (totalBytes : Int) : Nat → Nat → Option (List ServerData)
  | 0, _ => none
  | rounds + 1, offset =>
    if offset < totalBytes then do
      let (server, offset) ← deserializeServer buf offset
      let rest ← deserializeServers buf totalBytes rounds offset
      some (server :: rest)
    else some []

def deserializeSnapshotGetdataAck (buf : DynamicArray) (controlType : Int32) : Option (Int32 × List ServerData) := do
  let tmpControlType ← readAt buf.array 0 4
  guard (ofIntBytes tmpControlType = controlType)
  let totalBytes ← readAt buf.array 4 4
  let totalBytes := ofIntBytes totalBytes
  guard ((buf.cursize : Int) = totalBytes.toInt)
  let perserver ← deserializeServers buf totalBytes.toInt (buf.cursize + 1) 8
  some (totalBytes, perserver)

/-- The records of a server, in the order of the pipelines and of the indexes in each. -/
def serverRecords (pipelines : List (List (BackedRecord servers))) (serveridx : Fin servers.toNat) :
    List WireRecord :=
  (pipelines.flatten.filter (·.serveridx = serveridx)).map (·.toWireRecord)

/-- The size of a server's part: 18 bytes, and for each record 23 bytes and its padded value. -/
def serverSize (records : List WireRecord) : Nat :=
  18 + (records.map fun record => 23 + record.val.length + Val.getPaddingSize record.val.length).sum

def getdataSize (pipelines : List (List (BackedRecord servers))) : Nat :=
  8 + ((List.finRange servers.toNat).map fun serveridx => serverSize (serverRecords pipelines serveridx)).sum

/-- What the controller gets for a server is what switchos has for it. -/
structure Received (pipelines : List (List (BackedRecord servers))) (bwcosts : Fin servers.toNat → UInt64)
    (serveridx : Fin servers.toNat) (data : ServerData) : Prop where
  server : data.serveridx.toNat = serveridx.val
  records : data.records = serverRecords pipelines serveridx
  recordcnt : data.recordcnt.toInt = (serverRecords pipelines serveridx).length
  bytes : data.bytes.toInt = serverSize (serverRecords pipelines serveridx)
  bwcost : data.specialcaseBwcost = bwcosts serveridx

/-- The encoder succeeds, the total length it writes is the one it returns and the one of its buffer, and
the decoder returns for each server exactly what belongs to it. -/
def RoundTrips (controlType : Int32) (pipelines : List (List (BackedRecord servers)))
    (bwcosts : Fin servers.toNat → UInt64) : Prop :=
  ∃ after size totalBytes perserver,
    dynamicSerializeSnapshotGetdataAck databuf controlType pipelines bwcosts = some (after, size) ∧
      deserializeSnapshotGetdataAck after controlType = some (totalBytes, perserver) ∧
      size = after.cursize ∧ totalBytes.toInt = size ∧
      List.Forall₂ (Received pipelines bwcosts) (List.finRange servers.toNat) perserver

section Encoder

theorem writes_serialize (sendbuf : Sendbuf) (record : WireRecord) :
    Writes sendbuf.buf sendbuf.sendBytes (dataBytes record) (sendbuf.serialize record)
      (fun buf => ⟨buf, sendbuf.sendBytes + (dataBytes record).length, sendbuf.recordCnt + 1⟩) := by
  have size : sendbuf.sendBytes + (dataBytes record).length =
      sendbuf.sendBytes + 16 + (2 + record.val.length + Val.getPaddingSize record.val.length) + 5 := by
    rw [length_dataBytes]
    omega
  rw [size]
  unfold dataBytes Sendbuf.serialize
  refine (Key.writes_dynamicSerialize _ _ _).bind fun _ _ => ?_
  refine (Val.writes_dynamicSerialize _ _ _).bind fun _ _ => ?_
  rw [Key.length_serialize, Val.length_serialize]
  refine (writes_dynamicMemcpy _ _ _).bind fun _ _ => ?_
  exact (writes_dynamicMemcpy _ _ _).finish fun buf => Sendbuf.mk buf
    (sendbuf.sendBytes + 16 + (2 + record.val.length + Val.getPaddingSize record.val.length) + 5)
    (sendbuf.recordCnt + 1)

def ofServer (records : List (BackedRecord servers)) (serveridx : Fin servers.toNat) : List WireRecord :=
  (records.filter (·.serveridx = serveridx)).map (·.toWireRecord)

/-- The buffer of each server holds the bytes of its records. -/
structure Grouped (records : List (BackedRecord servers)) (serveridx : Fin servers.toNat) (sendbuf : Sendbuf) :
    Prop where
  wrote : Wrote databuf.clear 0 ((ofServer records serveridx).flatMap dataBytes) sendbuf.buf
  sendBytes : sendbuf.sendBytes = ((ofServer records serveridx).flatMap dataBytes).length
  recordCnt : sendbuf.recordCnt = (ofServer records serveridx).length

theorem grouped_fresh (serveridx : Fin servers.toNat) : Grouped [] serveridx Sendbuf.fresh where
  wrote := ⟨by simp [Sendbuf.fresh, ofServer], rfl, by simp [ofServer], by simp [ofServer, Holds],
    fun _ _ held _ => held, fun zeroed pos behind inside _ => zeroed pos behind inside⟩
  sendBytes := rfl
  recordCnt := rfl

theorem ofServer_concat (records : List (BackedRecord servers)) (record : BackedRecord servers)
    (serveridx : Fin servers.toNat) :
    ofServer (records ++ [record]) serveridx =
      ofServer records serveridx ++ if record.serveridx = serveridx then [record.toWireRecord] else [] := by
  unfold ofServer
  rw [List.filter_append, List.map_append]
  by_cases same : record.serveridx = serveridx
  · simp [same]
  · simp [same]

theorem serializeBacked_spec {done : List (BackedRecord servers)} {sendbufs : Fin servers.toNat → Sendbuf}
    (grouped : ∀ serveridx, Grouped done serveridx (sendbufs serveridx)) (record : BackedRecord servers) :
    (((ofServer (done ++ [record]) record.serveridx).flatMap dataBytes).length ≤ 8388608 →
      ∃ next, serializeBacked sendbufs record = some next) ∧
    ∀ next, serializeBacked sendbufs record = some next →
      ∀ serveridx, Grouped (done ++ [record]) serveridx (next serveridx) := by
  have own := grouped record.serveridx
  have writes := writes_serialize (sendbufs record.serveridx) record.toWireRecord
  have capability : (sendbufs record.serveridx).buf.maxcapability = 8388608 := own.wrote.maxcapability
  have total : ((ofServer (done ++ [record]) record.serveridx).flatMap dataBytes).length =
      (sendbufs record.serveridx).sendBytes + (dataBytes record.toWireRecord).length := by
    rw [ofServer_concat, if_pos rfl, List.flatMap_append, List.length_append, own.sendBytes]
    simp
  unfold serializeBacked
  constructor
  · intro fits
    obtain ⟨after, done, _⟩ := writes.1 (by omega)
    exact ⟨_, by rw [done]; rfl⟩
  · intro next stepped serveridx
    by_cases fits : (sendbufs record.serveridx).sendBytes + (dataBytes record.toWireRecord).length ≤
        (sendbufs record.serveridx).buf.maxcapability
    · obtain ⟨after, written, wrote⟩ := writes.1 fits
      rw [written] at stepped
      cases Option.some.inj stepped
      by_cases same : record.serveridx = serveridx
      · subst same
        rw [Function.update_self]
        have bytes : (ofServer (done ++ [record]) record.serveridx).flatMap dataBytes =
            (ofServer done record.serveridx).flatMap dataBytes ++ dataBytes record.toWireRecord := by
          rw [ofServer_concat, if_pos rfl, List.flatMap_append]
          simp
        refine ⟨?_, ?_, ?_⟩
        · rw [bytes]
          refine own.wrote.append ?_
          rw [Nat.zero_add, ← own.sendBytes]
          exact wrote
        · rw [bytes, List.length_append, ← own.sendBytes]
        · rw [ofServer_concat, if_pos rfl, List.length_append, ← own.recordCnt]
          rfl
      · rw [Function.update_of_ne (Ne.symm same)]
        obtain ⟨wrote, sendBytes, recordCnt⟩ := grouped serveridx
        have unchanged : ofServer (done ++ [record]) serveridx = ofServer done serveridx := by
          rw [ofServer_concat, if_neg same, List.append_nil]
        exact ⟨unchanged ▸ wrote, unchanged ▸ sendBytes, unchanged ▸ recordCnt⟩
    · rw [writes.2 (Nat.lt_of_not_le fits)] at stepped
      cases stepped

theorem serializeBacked_all {records done : List (BackedRecord servers)} {sendbufs : Fin servers.toNat → Sendbuf}
    (grouped : ∀ serveridx, Grouped done serveridx (sendbufs serveridx)) :
    ((∀ serveridx, ((ofServer (done ++ records) serveridx).flatMap dataBytes).length ≤ 8388608) →
      ∃ final, records.foldlM serializeBacked sendbufs = some final) ∧
    ∀ final, records.foldlM serializeBacked sendbufs = some final →
      ∀ serveridx, Grouped (done ++ records) serveridx (final serveridx) := by
  induction records generalizing done sendbufs with
  | nil =>
    refine ⟨fun _ => ⟨sendbufs, rfl⟩, ?_⟩
    intro final same
    cases Option.some.inj same
    simpa using grouped
  | cons record rest ih =>
    obtain ⟨steps, groups⟩ := serializeBacked_spec grouped record
    rw [List.foldlM_cons]
    constructor
    · intro fits
      have here : ((ofServer (done ++ [record]) record.serveridx).flatMap dataBytes).length ≤ 8388608 := by
        have whole := fits record.serveridx
        rw [List.append_cons] at whole
        unfold ofServer at whole ⊢
        rw [List.filter_append, List.map_append, List.flatMap_append, List.length_append] at whole
        omega
      obtain ⟨next, stepped⟩ := steps here
      obtain ⟨final, ran⟩ := (ih (groups next stepped)).1 (by simpa using fits)
      exact ⟨final, by rw [stepped]; exact ran⟩
    · intro final ran
      obtain ⟨next, stepped, later⟩ := Option.bind_eq_some_iff.mp ran
      have grouped := (ih (groups next stepped)).2 final later
      simpa using grouped

def serverBytes (bwcosts : Fin servers.toNat → UInt64) (records : Fin servers.toNat → List WireRecord)
    (serveridx : Fin servers.toNat) : List UInt8 :=
  intBytes (Int32.ofNat (((records serveridx).flatMap dataBytes).length + 18)) ++ (littleEndian 2 serveridx.val ++
    (intBytes (Int32.ofNat (records serveridx).length) ++ (littleEndian 8 (bwcosts serveridx).toNat ++
      (records serveridx).flatMap dataBytes)))

theorem length_serverBytes (bwcosts : Fin servers.toNat → UInt64) (records : Fin servers.toNat → List WireRecord)
    (serveridx : Fin servers.toNat) :
    (serverBytes bwcosts records serveridx).length = 18 + ((records serveridx).flatMap dataBytes).length := by
  simp only [serverBytes, List.length_append, length_intBytes, length_littleEndian]
  omega

variable {records : List (BackedRecord servers)} {sendbufs : Fin servers.toNat → Sendbuf}

theorem writes_serializeServer (grouped : ∀ serveridx, Grouped records serveridx (sendbufs serveridx))
    (bwcosts : Fin servers.toNat → UInt64) (buf : DynamicArray) (offset : Nat) (serveridx : Fin servers.toNat) :
    Writes buf offset (serverBytes bwcosts (ofServer records) serveridx)
      (serializeServer sendbufs bwcosts (buf, offset) serveridx)
      (·, offset + (serverBytes bwcosts (ofServer records) serveridx).length) := by
  obtain ⟨wrote, sendBytes, recordCnt⟩ := grouped serveridx
  have data : (sendbufs serveridx).buf.array.take (sendbufs serveridx).sendBytes =
      (ofServer records serveridx).flatMap dataBytes := by
    rw [sendBytes]
    exact (List.prefix_iff_eq_take.mp (holds_zero_iff.mp wrote.holds)).symm
  have size : offset + (serverBytes bwcosts (ofServer records) serveridx).length =
      offset + 18 + (sendbufs serveridx).sendBytes := by
    rw [length_serverBytes, sendBytes]
    omega
  rw [size]
  unfold serverBytes serializeServer
  rw [← recordCnt, ← sendBytes]
  simp only [data]
  refine (writes_dynamicMemcpy _ _ _).bind fun _ _ => ?_
  rw [length_intBytes]
  refine (writes_dynamicMemcpy _ _ _).bind fun _ _ => ?_
  rw [length_littleEndian]
  refine (writes_dynamicMemcpy _ _ _).bind fun _ _ => ?_
  rw [length_intBytes]
  refine (writes_dynamicMemcpy _ _ _).bind fun _ _ => ?_
  rw [length_littleEndian]
  exact (writes_dynamicMemcpy _ _ _).finish (·, offset + 18 + (sendbufs serveridx).sendBytes)

theorem writes_serializeServers (grouped : ∀ serveridx, Grouped records serveridx (sendbufs serveridx))
    (bwcosts : Fin servers.toNat → UInt64) (indexes : List (Fin servers.toNat)) (buf : DynamicArray) (offset : Nat)
    (used : offset ≤ buf.cursize ∨ indexes ≠ []) :
    Writes buf offset (indexes.flatMap (serverBytes bwcosts (ofServer records)))
      (indexes.foldlM (serializeServer sendbufs bwcosts) (buf, offset))
      (·, offset + (indexes.flatMap (serverBytes bwcosts (ofServer records))).length) :=
  writes_foldlM (fun serveridx _ buf offset => writes_serializeServer grouped bwcosts buf offset serveridx) used

/-- The loop over the servers from the free place for the head on. -/
theorem serializeServers_spec (grouped : ∀ serveridx, Grouped records serveridx (sendbufs serveridx))
    (bwcosts : Fin servers.toNat → UInt64) {size : Nat}
    (sized : size = 8 + ((List.finRange servers.toNat).flatMap (serverBytes bwcosts (ofServer records))).length) :
    (size ≤ 8388608 → ∃ after,
      (List.finRange servers.toNat).foldlM (serializeServer sendbufs bwcosts) (databuf, 8) = some (after, size) ∧
        max after.cursize 8 = size ∧ after.maxcapability = 8388608 ∧
        Holds after.array 8 ((List.finRange servers.toNat).flatMap (serverBytes bwcosts (ofServer records)))) ∧
    (8388608 < size →
      (List.finRange servers.toNat).foldlM (serializeServer sendbufs bwcosts) (databuf, 8) = none) := by
  subst sized
  by_cases empty : List.finRange servers.toNat = []
  · rw [empty]
    refine ⟨fun _ => ⟨databuf, rfl, rfl, rfl, by simp [Holds]⟩, ?_⟩
    intro exceeds
    simp at exceeds
  · have writes := writes_serializeServers grouped bwcosts (List.finRange servers.toNat) databuf 8 (Or.inr empty)
    refine ⟨fun fits => ?_, writes.2⟩
    obtain ⟨after, done, wrote⟩ := writes.1 fits
    refine ⟨after, done, ?_, wrote.maxcapability, wrote.holds⟩
    have cursize : after.cursize = max 0 (8 + _) := wrote.cursize
    omega

/-- The head is written in front of what is there. -/
theorem serializeHead_spec {buf : DynamicArray} {controlType : Int32} {totalBytes : Nat}
    {body : List UInt8} (capability : buf.maxcapability = 8388608) (size : max buf.cursize 8 = totalBytes)
    (fits : totalBytes ≤ 8388608) (holds : Holds buf.array 8 body) :
    ∃ after, serializeHead buf controlType totalBytes = some (after, totalBytes) ∧ after.cursize = totalBytes ∧
      Holds after.array 0 (intBytes controlType ++ (intBytes (Int32.ofNat totalBytes) ++ body)) := by
  have control := writes_dynamicMemcpy buf 0 (intBytes controlType)
  obtain ⟨first, controlDone, controlWrote⟩ := control.1 (by rw [length_intBytes]; omega)
  have firstCapability := controlWrote.maxcapability
  have total := writes_dynamicMemcpy first 4 (intBytes (Int32.ofNat totalBytes))
  obtain ⟨second, totalDone, totalWrote⟩ := total.1 (by rw [length_intBytes]; omega)
  refine ⟨second, ?_, ?_, ?_⟩
  · unfold serializeHead
    simp [controlDone, totalDone, guard, fits]
  · rw [totalWrote.cursize, controlWrote.cursize, length_intBytes, length_intBytes]
    omega
  · have front := totalWrote.frame _ _ controlWrote.holds (by simp)
    have back := totalWrote.frame _ _ (controlWrote.frame _ _ holds (by simp)) (by simp)
    exact holds_append.mpr ⟨front, holds_append.mpr ⟨by simpa using totalWrote.holds, by simpa using back⟩⟩

end Encoder

section Sizes

theorem serverSize_eq (records : List WireRecord) : serverSize records = 18 + (records.flatMap dataBytes).length := by
  simp [serverSize, List.length_flatMap, length_dataBytes]

theorem getdataSize_eq (pipelines : List (List (BackedRecord servers))) (bwcosts : Fin servers.toNat → UInt64) :
    getdataSize pipelines =
      8 + ((List.finRange servers.toNat).flatMap (serverBytes bwcosts (ofServer pipelines.flatten))).length := by
  rw [getdataSize, List.length_flatMap]
  congr 2
  refine List.map_congr_left fun serveridx _ => ?_
  rw [length_serverBytes, serverSize_eq]
  rfl

theorem serverSize_le (pipelines : List (List (BackedRecord servers))) (serveridx : Fin servers.toNat) :
    serverSize (serverRecords pipelines serveridx) ≤ getdataSize pipelines := by
  have member : serverSize (serverRecords pipelines serveridx) ∈
      (List.finRange servers.toNat).map fun serveridx => serverSize (serverRecords pipelines serveridx) :=
    List.mem_map_of_mem (List.mem_finRange serveridx)
  have part := List.le_sum_of_mem member
  unfold getdataSize
  omega

theorem length_le_serverSize (records : List WireRecord) : records.length ≤ serverSize records :=
  length_le_senddataSize records

end Sizes

def getdataBytes (controlType : Int32) (pipelines : List (List (BackedRecord servers)))
    (bwcosts : Fin servers.toNat → UInt64) : List UInt8 :=
  intBytes controlType ++ (intBytes (Int32.ofNat (getdataSize pipelines)) ++
    (List.finRange servers.toNat).flatMap (serverBytes bwcosts (ofServer pipelines.flatten)))

/-- The encoder exits on data beyond `MAX_LARGE_BUFSIZE`, and otherwise leaves exactly the message. -/
theorem dynamicSerializeSnapshotGetdataAck_spec (controlType : Int32)
    (pipelines : List (List (BackedRecord servers))) (bwcosts : Fin servers.toNat → UInt64) :
    (getdataSize pipelines ≤ 8388608 → ∃ after,
      dynamicSerializeSnapshotGetdataAck databuf controlType pipelines bwcosts =
          some (after, getdataSize pipelines) ∧
        after.cursize = getdataSize pipelines ∧
        Holds after.array 0 (getdataBytes controlType pipelines bwcosts)) ∧
    (8388608 < getdataSize pipelines →
      dynamicSerializeSnapshotGetdataAck databuf controlType pipelines bwcosts = none) := by
  obtain ⟨runs, groups⟩ := @serializeBacked_all _ pipelines.flatten [] _ grouped_fresh
  rw [List.nil_append] at runs groups
  have sized := getdataSize_eq pipelines bwcosts
  unfold dynamicSerializeSnapshotGetdataAck
  rw [Loops.foldlM_flatten]
  constructor
  · intro fits
    obtain ⟨sendbufs, ran⟩ := runs fun serveridx => by
      have part := serverSize_le pipelines serveridx
      rw [serverSize_eq] at part
      exact (Nat.le_add_left _ 18).trans (part.trans fits)
    obtain ⟨body, bodyDone, size, capability, holds⟩ :=
      (serializeServers_spec (groups sendbufs ran) bwcosts sized).1 fits
    obtain ⟨after, headDone, cursize, whole⟩ := @serializeHead_spec body controlType _ _ capability size fits holds
    refine ⟨after, ?_, cursize, whole⟩
    rw [ran]
    simp only [Option.bind_eq_bind, Option.bind_some, bodyDone, headDone]
  · intro exceeds
    cases ran : pipelines.flatten.foldlM serializeBacked fun _ => Sendbuf.fresh with
    | none => rfl
    | some sendbufs =>
      have exits := (serializeServers_spec (groups sendbufs ran) bwcosts sized).2 exceeds
      simp only [Option.bind_eq_bind, Option.bind_some, exits, Option.bind_none]

section Decoder

variable {buf : DynamicArray}

theorem deserializeServerRecords_of_holds {records : List WireRecord} {offset : Nat}
    (short : ∀ record ∈ records, record.val.length < 65536)
    (holds : Holds buf.array offset (records.flatMap dataBytes))
    (inside : offset + (records.flatMap dataBytes).length ≤ buf.cursize) :
    deserializeServerRecords buf records.length offset =
      some (records, offset + (records.flatMap dataBytes).length) := by
  induction records generalizing offset with
  | nil => rfl
  | cons record records ih =>
    rw [List.flatMap_cons] at holds inside ⊢
    rw [List.length_append, ← Nat.add_assoc] at inside ⊢
    rw [List.forall_mem_cons] at short
    obtain ⟨first, others⟩ := holds_append.mp holds
    have head := deserializeRecord_dataBytes short.1 first (by omega)
    have tail := ih short.2 others inside
    simp [deserializeServerRecords, head, tail]

def decoded (bwcosts : Fin servers.toNat → UInt64) (records : Fin servers.toNat → List WireRecord)
    (serveridx : Fin servers.toNat) : ServerData :=
  ⟨Int32.ofNat (((records serveridx).flatMap dataBytes).length + 18), UInt16.ofNat serveridx.val,
    Int32.ofNat (records serveridx).length, bwcosts serveridx, records serveridx⟩

variable {bwcosts : Fin servers.toNat → UInt64} {records : Fin servers.toNat → List WireRecord}

theorem deserializeServer_of_holds {serveridx : Fin servers.toNat} {offset : Nat}
    (short : ∀ record ∈ records serveridx, record.val.length < 65536)
    (holds : Holds buf.array offset (serverBytes bwcosts records serveridx))
    (inside : offset + (serverBytes bwcosts records serveridx).length ≤ buf.cursize) :
    deserializeServer buf offset =
      some (decoded bwcosts records serveridx, offset + (serverBytes bwcosts records serveridx).length) := by
  have size := length_serverBytes bwcosts records serveridx
  have total := serverSize_eq (records serveridx)
  have counted := length_le_serverSize (records serveridx)
  have bounded := buf.cursize_le.trans (buf.curcapability_le.trans buf.bounded)
  simp only [serverBytes, holds_append, length_intBytes, length_littleEndian] at holds
  obtain ⟨bytes, server, count, bwcost, data⟩ := holds
  have bytesRead := bytes.readAt (length_intBytes _) (by decide)
  have serverRead := server.readAt (length_littleEndian _ _) (by decide)
  have countRead := count.readAt (length_intBytes _) (by decide)
  have bwcostRead := bwcost.readAt (length_littleEndian _ _) (by decide)
  have serverBack : (ofLittleEndian (littleEndian 2 serveridx.val)).toUInt16 = UInt16.ofNat serveridx.val := by
    rw [ofLittleEndian_littleEndian (serveridx.isLt.trans servers.toNat_lt)]
  have bwcostBack : (ofLittleEndian (littleEndian 8 (bwcosts serveridx).toNat)).toUInt64 = bwcosts serveridx := by
    rw [ofLittleEndian_littleEndian (bwcosts serveridx).toNat_lt]
    simp
  have counts : (Int32.ofNat (records serveridx).length).toNatClampNeg = (records serveridx).length :=
    Int32.toNatClampNeg_ofNat_of_lt (by omega)
  have recordsRead := deserializeServerRecords_of_holds short data (by omega)
  unfold deserializeServer
  simp only [bytesRead, serverRead, countRead, bwcostRead, Option.bind_eq_bind, Option.bind_some, ofIntBytes_intBytes,
    counts, Nat.add_assoc, Nat.reduceAdd] at recordsRead ⊢
  rw [recordsRead]
  simp only [Option.bind_some, serverBack, bwcostBack, size]
  rfl

theorem deserializeServers_of_holds {indexes : List (Fin servers.toNat)} {offset rounds : Nat}
    (short : ∀ serveridx, ∀ record ∈ records serveridx, record.val.length < 65536)
    (holds : Holds buf.array offset (indexes.flatMap (serverBytes bwcosts records)))
    (whole : offset + (indexes.flatMap (serverBytes bwcosts records)).length = buf.cursize)
    (enough : indexes.length < rounds) :
    deserializeServers buf buf.cursize rounds offset = some (indexes.map (decoded bwcosts records)) := by
  induction indexes generalizing offset rounds with
  | nil =>
    obtain ⟨rounds, rfl⟩ := Nat.exists_eq_succ_of_ne_zero (Nat.ne_of_gt enough)
    have atEnd : ¬ (offset : Int) < buf.cursize := by
      rw [← whole]
      simp
    rw [deserializeServers, if_neg atEnd]
    rfl
  | cons serveridx rest ih =>
    obtain ⟨rounds, rfl⟩ := Nat.exists_eq_succ_of_ne_zero (Nat.ne_of_gt ((Nat.zero_le _).trans_lt enough))
    rw [List.flatMap_cons] at holds whole
    rw [List.length_append, ← Nat.add_assoc] at whole
    obtain ⟨first, others⟩ := holds_append.mp holds
    have size := length_serverBytes bwcosts records serveridx
    have before : (offset : Int) < buf.cursize := by omega
    have head := deserializeServer_of_holds (short serveridx) first (by omega)
    have tail := ih others whole (Nat.lt_of_succ_lt_succ enough)
    rw [deserializeServers, if_pos before, head]
    simp [tail]

end Decoder

theorem short_ofServer (records : List (BackedRecord servers)) (serveridx : Fin servers.toNat) :
    ∀ record ∈ ofServer records serveridx, record.val.length < 65536 := by
  intro record member
  obtain ⟨backed, _, rfl⟩ := List.mem_map.mp member
  exact backed.short

theorem deserializeSnapshotGetdataAck_of_holds {buf : DynamicArray} {controlType : Int32}
    {pipelines : List (List (BackedRecord servers))} {bwcosts : Fin servers.toNat → UInt64}
    (size : buf.cursize = getdataSize pipelines)
    (holds : Holds buf.array 0 (getdataBytes controlType pipelines bwcosts)) :
    deserializeSnapshotGetdataAck buf controlType =
      some (Int32.ofNat (getdataSize pipelines),
        (List.finRange servers.toNat).map (decoded bwcosts (ofServer pipelines.flatten))) := by
  have bounded := buf.cursize_le.trans (buf.curcapability_le.trans buf.bounded)
  have total := getdataSize_eq pipelines bwcosts
  simp only [getdataBytes, holds_append, length_intBytes, Nat.zero_add, Nat.reduceAdd] at holds
  obtain ⟨control, bytes, data⟩ := holds
  have controlRead := control.readAt (length_intBytes _) (by decide)
  have bytesRead := bytes.readAt (length_intBytes _) (by decide)
  have bytesBack : (Int32.ofNat (getdataSize pipelines)).toInt = buf.cursize := by
    rw [size]
    exact Int32.toInt_ofNat_of_lt (by omega)
  have enough : (List.finRange servers.toNat).length < buf.cursize + 1 := by
    have each : ((List.finRange servers.toNat).map fun _ => 1).sum ≤
        ((List.finRange servers.toNat).map fun serveridx => serverSize (serverRecords pipelines serveridx)).sum :=
      List.sum_le_sum fun serveridx _ => by
        rw [serverSize_eq]
        omega
    have ones : ((List.finRange servers.toNat).map fun _ => 1).sum = (List.finRange servers.toNat).length := by simp
    unfold getdataSize at size
    omega
  have serversRead := deserializeServers_of_holds (short_ofServer pipelines.flatten) data (by omega) enough
  unfold deserializeSnapshotGetdataAck
  simp only [controlRead, bytesRead, Option.bind_eq_bind, Option.bind_some, ofIntBytes_intBytes, guard, if_true,
    Option.pure_def, bytesBack, serversRead]

theorem received_decoded {pipelines : List (List (BackedRecord servers))} (fits : getdataSize pipelines ≤ 8388608)
    (bwcosts : Fin servers.toNat → UInt64) (serveridx : Fin servers.toNat) :
    Received pipelines bwcosts serveridx (decoded bwcosts (ofServer pipelines.flatten) serveridx) := by
  have part := serverSize_le pipelines serveridx
  have size := serverSize_eq (serverRecords pipelines serveridx)
  have counted := length_le_serverSize (serverRecords pipelines serveridx)
  refine ⟨?_, rfl, ?_, ?_, rfl⟩
  · exact UInt16.toNat_ofNat_of_lt (serveridx.isLt.trans servers.toNat_lt)
  · show (Int32.ofNat (serverRecords pipelines serveridx).length).toInt = _
    exact Int32.toInt_ofNat_of_lt (by omega)
  · show (Int32.ofNat (((serverRecords pipelines serveridx).flatMap dataBytes).length + 18)).toInt = _
    rw [size, Nat.add_comm 18]
    exact Int32.toInt_ofNat_of_lt (by omega)

/-- The snapshot data of all pipelines reaches the controller, grouped by server and in order, exactly when
the message is at most `MAX_LARGE_BUFSIZE` bytes. -/
theorem getdata_round_trips_iff (controlType : Int32) (pipelines : List (List (BackedRecord servers)))
    (bwcosts : Fin servers.toNat → UInt64) :
    RoundTrips controlType pipelines bwcosts ↔ getdataSize pipelines ≤ 8388608 := by
  obtain ⟨sends, exits⟩ := dynamicSerializeSnapshotGetdataAck_spec controlType pipelines bwcosts
  constructor
  · intro ⟨after, size, totalBytes, perserver, sent, _⟩
    by_contra exceeds
    rw [exits (Nat.lt_of_not_le exceeds)] at sent
    cases sent
  · intro fits
    obtain ⟨after, sent, sized, holds⟩ := sends fits
    refine ⟨after, _, _, _, sent, deserializeSnapshotGetdataAck_of_holds sized holds, sized.symm, ?_, ?_⟩
    · exact Int32.toInt_ofNat_of_lt (by omega)
    · rw [List.forall₂_map_right_iff, List.forall₂_same]
      intro serveridx _
      exact received_decoded fits bwcosts serveridx

/-- A record of the only server, with a value as long as the switch can hold. -/
def fullRecord : BackedRecord 1 := ⟨⟨⟨1, 0, 0, 0⟩, List.replicate 128 0, 3, true⟩, ⟨0, by decide⟩, by simp⟩

theorem serverSize_replicate (count : Nat) :
    serverSize (serverRecords (List.replicate 2 (List.replicate count fullRecord)) ⟨0, by decide⟩) =
      18 + 2 * count * 151 := by
  have records : serverRecords (List.replicate 2 (List.replicate count fullRecord)) ⟨0, by decide⟩ =
      List.replicate (2 * count) fullRecord.toWireRecord := by
    unfold serverRecords
    rw [List.flatten_replicate_replicate, List.filter_eq_self.mpr, List.map_replicate]
    intro record member
    rw [List.eq_of_mem_replicate member]
    rfl
  rw [records, serverSize, List.map_replicate, List.sum_replicate]
  simp [fullRecord, Val.getPaddingSize]

/-- Two pipelines with 27800 records of full values each are too much: the encoder exits. -/
theorem getdata_exits_large :
    dynamicSerializeSnapshotGetdataAck databuf 5 (List.replicate 2 (List.replicate 27800 fullRecord)) (fun _ => 0) =
      none := by
  refine (dynamicSerializeSnapshotGetdataAck_spec 5 _ _).2 ?_
  have part := serverSize_le (List.replicate 2 (List.replicate 27800 fullRecord)) ⟨0, by decide⟩
  rw [serverSize_replicate] at part
  omega

end SnapshotGetdata

end FarReach
