import FarReach.UpstreamNotification

namespace FarReach

open Bytes DynamicArray SnapshotGetdata JavaClient

/-- `SNAPSHOT_GETDATA_ACK` and `SNAPSHOT_SENDDATA` of `control_type.ini`. -/
def snapshotGetdataAck : Int32 := 10

def snapshotSenddata : Int32 := 11

/-- The `SNAPSHOT_SENDDATA` for a server. One that is not valid is passed over with `SERVER_ROTATION`, and fails an
`INVARIANT` without it. -/
def senddataFor (rotation : Bool) (valid : List UInt16) (snapshotid : Int32) (data : ServerData) :
    Option (Option (UInt16 × DynamicArray)) :=
  if data.serveridx ∈ valid then do
    let (buf, _) ← dynamicSerializeSnapshotSenddata databuf snapshotSenddata snapshotid data.serveridx
      data.recordcnt data.records
    some (some (data.serveridx, buf))
  else if rotation then some none
  else none

/-- What `run_controller_snapshotclient` makes of a `SNAPSHOT_GETDATA_ACK`: the messages for the servers and the
notification for the clients. -/
def distributeSnapshot (rotation : Bool) (valid : List UInt16) (snapshotid : Int32) (message : DynamicArray) :
    Option (List (UInt16 × DynamicArray) × List UInt8) := do
  let (_, perserver) ← deserializeSnapshotGetdataAck message snapshotGetdataAck
  let sent ← perserver.mapM (senddataFor rotation valid snapshotid)
  let notification ← notificationBytes (perserver.map ServerData.records)
  some (sent.reduceOption, notification)

variable {servers : UInt16} {pipelines : List (List (BackedRecord servers))}

theorem deserialize_notificationBytes {perserver : List (List WireRecord)}
    (fits : 4 + 20 * perserver.flatten.length ≤ 8388608) :
    ∃ bytes, notificationBytes perserver = some bytes ∧
      deserializeUpstreamBackupNotification bytes bytes.length =
        some (putPairs (perserver.flatten.map fun record => (record.key, record.seq.toInt32)) ∅) := by
  refine ⟨_, notificationBytes_eq fits, ?_⟩
  generalize perserver.flatten = records at fits
  have size : (bigEndian 4 records.length ++ records.flatMap noticeBytes).length = 4 + 20 * records.length := by
    rw [List.length_append, length_bigEndian, length_flatMap_noticeBytes]
  obtain ⟨head, pairs⟩ := holds_append.mp (holds_zero_iff.mpr
    (List.prefix_refl (bigEndian 4 records.length ++ records.flatMap noticeBytes)))
  have numRead := head.readAt (length_bigEndian _ _) (by decide)
  have numBack : (ntohi (bigEndian 4 records.length)).toNatClampNeg = records.length := by
    unfold ntohi
    rw [ofBigEndian_bigEndian (by omega)]
    exact Int32.toNatClampNeg_ofNat_of_lt (by omega)
  rw [length_bigEndian, Nat.zero_add] at pairs
  have pairsRead := deserializePairs_of_holds pairs (Nat.le_of_eq size.symm) ∅
  unfold deserializeUpstreamBackupNotification
  simp only [guard, numRead, numBack, pairsRead, Option.pure_def, Option.bind_eq_bind, Option.bind_some]
  rw [if_pos (by omega)]
  rfl

/-- What a server gets of the records that the controller sends it. -/
theorem deserialize_senddata {records : List WireRecord} (short : ∀ record ∈ records, record.val.length < 65536)
    (fits : senddataSize records ≤ 8388608) (snapshotid : Int32) (serveridx : UInt16) :
    ∃ after size, dynamicSerializeSnapshotSenddata databuf snapshotSenddata snapshotid serveridx
        (Int32.ofNat records.length) records = some (after, size) ∧
      deserializeSnapshotSenddata after snapshotSenddata = some ⟨snapshotid, Int32.ofNat (senddataSize records),
        serveridx, Int32.ofNat records.length, records.map WireRecord.received⟩ := by
  have cleared : databuf.cursize = 0 := rfl
  obtain ⟨after, sent, sized, _, holds⟩ :=
    (dynamicSerializeSnapshotSenddata_spec cleared snapshotSenddata snapshotid serveridx records).1 fits
  exact ⟨after, _, sent, deserializeSnapshotSenddata_of_holds short sized holds⟩

/-- What switchos sends to the controller reaches the servers and the clients: every valid server gets exactly
the records it owns, in order and under the id of the snapshot, each one live unless its sequence number is
zero; and a client gets the keys and sequence numbers of the records of all servers. -/
theorem snapshot_distributed (rotation : Bool) (valid : List UInt16) (snapshotid : Int32)
    (bwcosts : Fin servers.toNat → UInt64)
    (known : rotation = true ∨ ∀ serveridx : Fin servers.toNat, UInt16.ofNat serveridx ∈ valid)
    (fits : getdataSize pipelines ≤ 8388608) :
    ∃ message size sent notification,
      dynamicSerializeSnapshotGetdataAck databuf snapshotGetdataAck pipelines bwcosts = some (message, size) ∧
      distributeSnapshot rotation valid snapshotid message = some (sent, notification) ∧
      List.Forall₂ (fun serveridx message => message.1.toNat = serveridx.val ∧
          ∃ data, deserializeSnapshotSenddata message.2 snapshotSenddata = some data ∧ data.snapshotid = snapshotid ∧
            data.records = (serverRecords pipelines serveridx).map WireRecord.received)
        ((List.finRange servers.toNat).filter fun serveridx => UInt16.ofNat serveridx.val ∈ valid) sent ∧
      deserializeUpstreamBackupNotification notification notification.length = some (putPairs
        (((List.finRange servers.toNat).flatMap (serverRecords pipelines)).map fun record =>
          (record.key, record.seq.toInt32)) ∅) := by
  obtain ⟨message, collected, sized, holds⟩ :=
    (dynamicSerializeSnapshotGetdataAck_spec snapshotGetdataAck pipelines bwcosts).1 fits
  have decodes := deserializeSnapshotGetdataAck_of_holds sized holds
  have part := fun serveridx => (serverSize_le pipelines serveridx).trans fits
  choose sent size sends received using fun serveridx => deserialize_senddata
    (short_ofServer pipelines.flatten serveridx) (part serveridx) snapshotid (UInt16.ofNat serveridx.val)
  obtain ⟨notification, notifies, told⟩ := @deserialize_notificationBytes
    ((List.finRange servers.toNat).map (serverRecords pipelines)) ((notification_fits _).trans (by
      rw [snapshotSize, List.map_map]
      exact fits))
  -- a server that is not valid is passed over
  have loop : senddataFor rotation valid snapshotid ∘ decoded bwcosts (ofServer pipelines.flatten) = fun serveridx =>
      pure ((Option.guard (fun idx => UInt16.ofNat idx.val ∈ valid) serveridx).map fun idx =>
        (UInt16.ofNat idx.val, sent idx)) := by
    funext serveridx
    by_cases isValid : UInt16.ofNat serveridx ∈ valid
    · simp [senddataFor, decoded, isValid, sends serveridx, Option.guard]
    · have rotates := known.resolve_right fun all => isValid (all serveridx)
      simp [senddataFor, decoded, isValid, rotates, Option.guard]
  refine ⟨message, _, ?_, notification, collected, ?_, ?_, List.flatMap_def ▸ told⟩
  rotate_left
  · unfold distributeSnapshot
    simp only [decodes, Option.bind_eq_bind, Option.bind_some, List.mapM_map, loop, List.mapM_pure, List.map_map]
    exact congrArg (Option.bind · _) notifies
  · rw [List.reduceOption, List.filterMap_map, Function.id_comp, ← List.map_filterMap, List.filterMap_eq_filter,
      List.forall₂_map_right_iff, List.forall₂_same]
    intro serveridx _
    exact ⟨UInt16.toNat_ofNat_of_lt (serveridx.isLt.trans servers.toNat_lt), _, received serveridx, rfl, rfl⟩

def mixedPipelines : List (List (BackedRecord 2)) :=
  [[⟨⟨⟨1, 0, 0, 0⟩, [7], 3, true⟩, ⟨0, by decide⟩, by decide⟩,
    ⟨⟨⟨2, 0, 0, 0⟩, [8, 9], 4, true⟩, ⟨1, by decide⟩, by decide⟩],
      [⟨⟨⟨3, 0, 0, 0⟩, [], 5, false⟩, ⟨1, by decide⟩, by decide⟩,
        ⟨⟨⟨4, 0, 0, 0⟩, [6], 9, true⟩, ⟨0, by decide⟩, by decide⟩]]

/-- The first server is not valid: the second one gets its two records, and the clients are told of all four. -/
theorem snapshot_distributed_rotated :
    ∃ message size buf notification data,
      dynamicSerializeSnapshotGetdataAck databuf snapshotGetdataAck mixedPipelines (fun _ => 0) =
        some (message, size) ∧
      distributeSnapshot true [1] 5 message = some ([(1, buf)], notification) ∧
      deserializeSnapshotSenddata buf snapshotSenddata = some data ∧ data.snapshotid = 5 ∧
      data.records = [⟨⟨2, 0, 0, 0⟩, [8, 9], 4, true⟩, ⟨⟨3, 0, 0, 0⟩, [], 5, true⟩] ∧
      deserializeUpstreamBackupNotification notification notification.length = some (putPairs
        [(⟨1, 0, 0, 0⟩, 3), (⟨4, 0, 0, 0⟩, 9), (⟨2, 0, 0, 0⟩, 4), (⟨3, 0, 0, 0⟩, 5)] ∅) := by
  obtain ⟨message, size, sent, notification, collected, distributed, delivered, told⟩ :=
    @snapshot_distributed 2 mixedPipelines true [1] 5 (fun _ => 0) (Or.inl rfl) (by decide +kernel)
  have valid : ((List.finRange (2 : UInt16).toNat).filter fun serveridx => UInt16.ofNat serveridx.val ∈
      [(1 : UInt16)]) = [⟨1, by decide⟩] := by decide +kernel
  rw [valid] at delivered
  cases delivered with
  | cons received none =>
    cases none
    rename_i entry
    obtain ⟨idx, buf⟩ := entry
    obtain ⟨server, data, decodes, id, records⟩ := received
    obtain rfl : idx = 1 := UInt16.toNat_inj.mp server
    exact ⟨message, size, buf, notification, data, collected, distributed, decodes, id, records, told⟩

end FarReach
